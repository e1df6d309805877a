import ReviewChecks.Fetch
import ReviewChecks.Run.Derived

/-!
# Entries

What is known of one provider in one patchset context, and lists of entries in the order in which the providers came.
An entry is addressed by its provider's name; of equal names the first entry counts.
-/

namespace ReviewChecks

/-- How the last fetch of a provider ended. -/
inductive EntryStatus where
  | ok
  | error (message : String)
  | notLoggedIn (login : String)
deriving DecidableEq, Repr

/-- What is known of one provider in one patchset context. -/
structure Entry where
  plugin : String
  /-- A fetch is in flight; what was known before stays visible. -/
  loading : Bool := false
  /-- No answer has landed yet. -/
  firstTimeLoad : Bool := true
  status : EntryStatus := .ok
  runs : List CheckRun := []
  actions : List Action := []
  links : List Link := []
deriving DecidableEq

namespace Entry

def fresh (plugin : String) : Entry where
  plugin := plugin

/-- The error that the last fetch ended with. -/
def errorMessage? (entry : Entry) : Option String :=
  match entry.status with
  | .error message => some message
  | _ => none

/-- The login that the last fetch asked for. -/
def login? (entry : Entry) : Option String :=
  match entry.status with
  | .notLoggedIn login => some login
  | _ => none

def startLoading (entry : Entry) : Entry :=
  { entry with loading := true }

/-- The entry once a fetch has ended in a status without data. Links stay, so that they can still be followed. -/
def fail (entry : Entry) (status : EntryStatus) : Entry :=
  { entry with loading := false, firstTimeLoad := false, status, runs := [], actions := [] }

def load (entry : Entry) (runs : List Run) (actions : List Action) (links : List Link) : Entry :=
  { entry with
    loading := false, firstTimeLoad := false, status := .ok
    runs := CheckRun.deriveAll runs, actions, links }

end Entry

/-- Puts a new result in the place of the first one with the given external id; its id stays that of the place. None
when no result has that external id. -/
def replaceResult? (externalId : String) (updated : CheckResult) : List RunResult → Option (List RunResult)
  | [] => none
  | held :: rest =>
    if held.result.externalId = some externalId then some ({ held with result := updated } :: rest)
    else (replaceResult? externalId updated rest).map (held :: ·)

/-- The run with a result replaced, if it is the target run and has a result with that external id. -/
def CheckRun.replaceResult? (run : CheckRun) (target : RunInfo) (externalId : String) (updated : CheckResult) :
    Option CheckRun :=
  if run.info.sameRun target then
    (ReviewChecks.replaceResult? externalId updated run.results).map fun results => { run with results }
  else none

/-- The entry with a pushed result in all runs that hold an older one; none when there is no such run. -/
def Entry.push? (entry : Entry) (target : RunInfo) (updated : CheckResult) : Option Entry := do
  let externalId ← updated.externalId
  if entry.runs.any fun run => (run.replaceResult? target externalId updated).isSome then
    some { entry with
      runs := entry.runs.map fun run => (run.replaceResult? target externalId updated).getD run }
  else none

/-- Entries in the order in which their providers came. -/
abbrev Entries := List Entry

namespace Entries

def get? (entries : Entries) (plugin : String) : Option Entry :=
  entries.find? fun entry => entry.plugin == plugin

/-- Puts an entry in the place of the one of the same provider, or at the end when there is none. -/
def put (entry : Entry) : Entries → Entries
  | [] => [entry]
  | head :: rest => if head.plugin = entry.plugin then entry :: rest else head :: put entry rest

/-- Changes the entry of a provider, starting from a fresh one when there is none. -/
def update (entries : Entries) (plugin : String) (change : Entry → Entry) : Entries :=
  entries.put (change ((entries.get? plugin).getD (.fresh plugin)))

/-- The entries without those of a provider; none when it has no entry. -/
def erase? (entries : Entries) (plugin : String) : Option Entries :=
  if (entries.get? plugin).isSome then some (entries.filter fun entry => entry.plugin != plugin) else none

/-- The entries with a pushed result in the entry of a provider; none when nothing there matches. -/
def push? (entries : Entries) (plugin : String) (target : RunInfo) (updated : CheckResult) : Option Entries := do
  let entry ← entries.get? plugin
  let pushed ← entry.push? target updated
  return entries.put pushed

end Entries

end ReviewChecks
