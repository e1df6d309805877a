import ReviewChecks.Board

/-!
# Reading entries

What can be read off the entries of a context, in the order of the providers, and a memo that repeats a reading only
when it is given entries of another version.
-/

namespace ReviewChecks

namespace Entries

def pluginRegistered (entries : Entries) : Bool :=
  !entries.isEmpty

/-- Whether a fetch is in flight for some provider. -/
def someLoading (entries : Entries) : Bool :=
  entries.any (·.loading)

/-- Whether some provider has not answered yet. -/
def someLoadingFirstTime (entries : Entries) : Bool :=
  entries.any (·.firstTimeLoad)

def firstErrorMessage? (entries : Entries) : Option String :=
  entries.findSome? Entry.errorMessage?

def errorMessages (entries : Entries) : List (String × String) :=
  entries.filterMap fun entry => entry.errorMessage?.map (entry.plugin, ·)

def firstLogin? (entries : Entries) : Option String :=
  entries.findSome? Entry.login?

/-- The actions that providers offer besides those of their runs. -/
def topLevelActions (entries : Entries) : List Action :=
  entries.flatMap (·.actions)

/-- The links that providers offer besides those of their results. -/
def topLevelLinks (entries : Entries) : List Link :=
  entries.flatMap (·.links)

def allRuns (entries : Entries) : List CheckRun :=
  entries.flatMap (·.runs)

def allRunsLatestAttempt (entries : Entries) : List CheckRun :=
  entries.allRuns.filter (·.isLatestAttempt)

def allResults (entries : Entries) : List RunResult :=
  entries.allRuns.flatMap (·.results)

/-- The provider that each check belongs to: of several that report it, the one that came last. -/
def checkOwners (entries : Entries) : Table String :=
  .ofList (entries.flatMap fun entry => entry.runs.map fun run => (run.info.checkName, entry.plugin))

end Entries

/-- The last reading of some entries, by their version, and how many readings there have been. -/
structure Memo (α : Type) where
  held : Option (Nat × α) := none
  computed : Nat := 0

namespace Memo

variable {α : Type}

/-- Reads entries: the held reading when they have its version, else a new reading, which is held from then on. -/
def read (memo : Memo α) (project : Entries → α) (map : EntryMap) : α × Memo α :=
  match memo.held with
  | some (version, value) =>
    if version = map.version then (value, memo)
    else (project map.entries, ⟨some (map.version, project map.entries), memo.computed + 1⟩)
  | none => (project map.entries, ⟨some (map.version, project map.entries), memo.computed + 1⟩)

end Memo

end ReviewChecks
