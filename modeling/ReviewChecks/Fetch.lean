import ReviewChecks.Change
import ReviewChecks.Run

/-!
# Fetches

What a provider is asked for, for which patchset, and what it answers. A login callback is known by its name: equal
names are the same callback.
-/

namespace ReviewChecks

/-- The patchset that check state belongs to. -/
inductive PatchsetContext where
  /-- The newest patchset of the change. -/
  | latest
  /-- The pinned patchset, or the newest one while none is pinned. -/
  | selected
deriving DecidableEq, Repr

namespace PatchsetContext

def all : List PatchsetContext :=
  [.latest, .selected]

def name : PatchsetContext → String
  | .latest => "latest"
  | .selected => "selected"

def ofName? : String → Option PatchsetContext
  | "latest" => some .latest
  | "selected" => some .selected
  | _ => none

def parse (name : String) : Except UnknownName PatchsetContext :=
  match ofName? name with
  | some context => .ok context
  | none => .error ⟨.patchsetContext, name⟩

theorem ofName?_name (context : PatchsetContext) : ofName? context.name = some context := by
  cases context <;> rfl

end PatchsetContext

/-- What a provider is asked for: the checks of one patchset of a change. -/
structure FetchRequest where
  changeNumber : UInt64
  patchset : UInt32
  sha : String
  repo : String
  commitMessage : Option String
  changeInfo : ChangeInfo
deriving DecidableEq

inductive FetchResponse where
  | ok (runs : List Run) (actions : List Action) (links : List Link)
  | error (message : String)
  | notLoggedIn (login : String)
deriving DecidableEq

namespace FetchResponse

def empty : FetchResponse :=
  .ok [] [] []

def withRuns (runs : List Run) : FetchResponse :=
  .ok runs [] []

def code : FetchResponse → String
  | .ok .. => "OK"
  | .error _ => "ERROR"
  | .notLoggedIn _ => "NOT_LOGGED_IN"

end FetchResponse

end ReviewChecks
