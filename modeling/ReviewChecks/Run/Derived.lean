import ReviewChecks.Run.Attempt

/-!
# Derived runs

Runs as they are held and shown: with their ids, the ids of their results, and what is known of the other attempts of
the same check.
-/

namespace ReviewChecks

/-- A result with the id by which it is known as long as it is held. -/
structure RunResult where
  result : CheckResult
  id : String
deriving DecidableEq, Repr

/-- A run with its ids and attempts. -/
structure CheckRun where
  info : RunInfo
  id : String
  isLatestAttempt : Bool
  isSingleAttempt : Bool
  attemptDetails : List AttemptDetail
  results : List RunResult
deriving DecidableEq

namespace CheckRun

/-- The results of a run with their ids, which are the run's id and the place of the result. -/
def numbered (runId : String) (results : List CheckResult) : List RunResult :=
  results.mapIdx fun index result => { result, id := runId ++ "-" ++ Text.ofNat index }

/-- A run with what the attempts of all checks say about it. -/
def ofRun (attempts : Table AttemptInfo) (run : Run) : CheckRun :=
  let info := (attempts.find? run.info.checkName).getD {}
  { info := run.info
    id := run.info.runId
    isLatestAttempt := info.isLatest run.info.attempt
    isSingleAttempt := info.isSingleAttempt
    attemptDetails := info.attempts
    results := numbered run.info.runId run.results }

/-- The runs that a provider reported together, derived. -/
def deriveAll (runs : List Run) : List CheckRun :=
  runs.map (ofRun (aggregate runs))

/-- The run as a provider would report it with the results it holds now. -/
def toRun (run : CheckRun) : Run where
  info := run.info
  results := run.results.map (·.result)

end CheckRun

end ReviewChecks
