/-!
# Telemetry

What is reported about providers and actions, and how a report is written to the log.
-/

namespace ReviewChecks

/-- The kinds of provider outcomes that are counted. -/
inductive Execution where
  /-- A provider answered with an error. -/
  | fetchError
  /-- A provider asked for a login. -/
  | notLoggedIn
  /-- A fetch failed without an answer; the provider is given up. -/
  | fetchCrashed
deriving DecidableEq, Repr

def Execution.name : Execution → String
  | .fetchError => "checks-api-error"
  | .notLoggedIn => "checks-api-not-logged-in"
  | .fetchCrashed => "checks-fetch-crashed"

inductive Report where
  | execution (kind : Execution) (plugin message : String)
  | error (plugin message : String)
  | actionTriggered (action : String) (check : Option String)
deriving DecidableEq, Repr

inductive LogLevel where
  | error
  | warn
  | info
deriving DecidableEq, Repr

def LogLevel.name : LogLevel → String
  | .error => "ERROR"
  | .warn => "WARN"
  | .info => "INFO"

structure LogRecord where
  level : LogLevel
  fields : List (String × String)
deriving DecidableEq, Repr

/-- The log record of a report. The field `message` holds the reported message when there is one, else what happened;
an absent check is left out. -/
def Report.logRecord : Report → LogRecord
  | .execution kind plugin message =>
    ⟨.warn, [("execution", kind.name), ("plugin", plugin), ("message", message)]⟩
  | .error plugin message => ⟨.error, [("plugin", plugin), ("message", message)]⟩
  | .actionTriggered action check =>
    ⟨.info, [("action", action)] ++ (check.map fun name => ("check", name)).toList ++
      [("message", "checks action triggered")]⟩

end ReviewChecks
