import ReviewChecks.Change.Encoding
import ReviewChecks.Store.View

/-!
# View values in JSON

The JSON forms of the values that views take.
-/

namespace ReviewChecks

/-- Messages by provider as JSON, each with its provider in an array of two. -/
def Json.messages (values : List (String × String)) : Json :=
  .list (fun value => .array [.text value.1, .text value.2]) values

def ViewValue.toJson : ViewValue → Json
  | .flag value => .bool value
  | .patchset value => Json.nullable Json.word32 value
  | .text value => Json.nullable Json.text value
  | .messages values => Json.messages values
  | .actions values => .list Action.toJson values
  | .links values => .list Link.toJson values
  | .runs values => .list CheckRun.toJson values
  | .results values => .list RunResult.toJson values
  | .owners values => values.toJson Json.text
  | .count value => .nat value

end ReviewChecks
