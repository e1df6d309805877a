import ReviewChecks.Action
import ReviewChecks.Run.Status
import ReviewChecks.Text.Digits
import ReviewChecks.Time.Timestamp

/-!
# Runs

Runs of checks as providers report them: a description of the run and its findings. A run is identified by its change,
patchset, attempt and check.
-/

namespace ReviewChecks

/-- A short mark on a result. -/
structure Tag where
  name : String
  tooltip : Option String := none
deriving DecidableEq, Repr

structure Link where
  url : String
  tooltip : Option String := none
  primary : Bool := false
  icon : Option String := none
deriving DecidableEq, Repr

/-- One finding of a run. -/
structure CheckResult where
  /-- The name by which a later report can replace this result. -/
  externalId : Option String := none
  category : Category
  summary : String
  message : Option String := none
  tags : List Tag := []
  links : List Link := []
  actions : List Action := []
deriving DecidableEq, Repr

structure RunInfo where
  change : UInt64
  patchset : UInt32
  /-- Absent when the provider does not number attempts. -/
  attempt : Option UInt32 := none
  externalId : Option String := none
  checkName : String
  checkDescription : Option String := none
  checkLink : Option String := none
  status : RunStatus := .completed
  statusDescription : Option String := none
  statusLink : Option String := none
  labelName : Option String := none
  actions : List Action := []
  scheduledTimestamp : Option Timestamp := none
  startedTimestamp : Option Timestamp := none
  finishedTimestamp : Option Timestamp := none
deriving DecidableEq

namespace RunInfo

/-- The attempt as it stands in a run's id. -/
def attemptLabel : Option UInt32 → String
  | some attempt => Text.ofNat attempt.toNat
  | none => "none"

/-- The id of a run: check name, change, patchset and attempt, with dashes between them. -/
def runId (info : RunInfo) : String :=
  info.checkName ++ "-" ++ Text.ofNat info.change.toNat ++ "-" ++ Text.ofNat info.patchset.toNat ++ "-" ++
    attemptLabel info.attempt

/-- Whether two descriptions are of the same run. -/
def sameRun (left right : RunInfo) : Bool :=
  left.change == right.change && left.patchset == right.patchset && left.attempt == right.attempt &&
    left.checkName == right.checkName

end RunInfo

structure Run where
  info : RunInfo
  results : List CheckResult := []
deriving DecidableEq

def Run.icon (run : Run) : StatusIcon :=
  .ofOutcome run.info.status (run.results.map (·.category))

end ReviewChecks
