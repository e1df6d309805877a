import ReviewChecks.Board
import ReviewChecks.Run.Encoding

/-!
# Boards in JSON

What is known of a provider as JSON, in full and as a summary, and the summary of a whole board.
-/

namespace ReviewChecks

def Entry.toJson (entry : Entry) : Json :=
  .record [("runs", .list CheckRun.toJson entry.runs), ("actions", .list Action.toJson entry.actions),
    ("links", .list Link.toJson entry.links), ("error_message", Json.nullable Json.text entry.errorMessage?),
    ("login", Json.nullable Json.text entry.login?)]

def EntryStatus.toJson : EntryStatus → Json
  | .ok => .text "ok"
  | .error message => .record [("error", .text message)]
  | .notLoggedIn login => .record [("login", .text login)]

def RunResult.summary (result : RunResult) : Json :=
  .array [.text result.id, Json.nullable Json.text result.result.externalId, result.result.category.toJson,
    .text result.result.summary]

def CheckRun.summary (run : CheckRun) : Json :=
  .record [("id", .text run.id), ("status", run.info.status.toJson), ("latest", .bool run.isLatestAttempt),
    ("single", .bool run.isSingleAttempt),
    ("attempts", .list (fun detail => .array [Json.nullable Json.word32 detail.attempt, detail.icon.toJson])
      run.attemptDetails),
    ("results", .list RunResult.summary run.results)]

def Entry.summary (entry : Entry) : Json :=
  .record [("plugin", .text entry.plugin), ("loading", .bool entry.loading), ("first", .bool entry.firstTimeLoad),
    ("status", entry.status.toJson), ("runs", .list CheckRun.summary entry.runs),
    ("actions", .list (fun action => .text action.name) entry.actions),
    ("links", .list (fun link => .text link.url) entry.links)]

def Board.summary (board : Board) : Json :=
  .record [("pin", Json.nullable Json.word32 board.pin), ("latest", .list Entry.summary board.latest.entries),
    ("selected", .list Entry.summary board.selected.entries)]

end ReviewChecks
