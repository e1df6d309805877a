import ReviewChecks.Fetch
import ReviewChecks.Run.Encoding

/-!
# Fetches in JSON

The JSON forms of patchset contexts, which are their names, and of what providers answer.
-/

namespace ReviewChecks

def PatchsetContext.toJson (context : PatchsetContext) : Json :=
  .text context.name

def PatchsetContext.ofJson? (value : Json) : Option PatchsetContext :=
  value.caseName?.bind PatchsetContext.ofName?

/-- An answer as JSON: the code of its kind, and what it carries. A login is not written. -/
def FetchResponse.toJson (response : FetchResponse) : Json :=
  .record ([("code", .text response.code)] ++
    match response with
    | .ok runs actions links =>
      [("runs", .list Run.toJson runs), ("actions", .list Action.toJson actions), ("links", .list Link.toJson links)]
    | .error message => [("message", .text message)]
    | .notLoggedIn _ => [])

end ReviewChecks
