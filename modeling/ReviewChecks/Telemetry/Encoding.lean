import ReviewChecks.Json
import ReviewChecks.Notice
import ReviewChecks.Telemetry

/-!
# Notices and log records in JSON

The JSON forms of what is shown to the user and of what is written to the log.
-/

namespace ReviewChecks

def Notice.toJson : Notice → Json
  | .showAlert message dismissible => .record [("show", .text message), ("dismiss", .bool dismissible)]
  | .hideAlert => .text "hide"

def Delivery.toJson : Delivery Notice → Json
  | .message notice => notice.toJson
  | .lagged missed => .record [("lagged", .nat missed)]

def LogRecord.toJson (entry : LogRecord) : Json :=
  .record [("level", .text entry.level.name),
    ("fields", .record (entry.fields.map fun field => (field.1, .text field.2)))]

end ReviewChecks
