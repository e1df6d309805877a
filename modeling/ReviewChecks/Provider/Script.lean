import ReviewChecks.Provider

/-!
# Scripted providers

Providers that do what they are told beforehand: one that goes through a list of scripts, one for each request, and one
that leaves every request to be answered from outside.
-/

namespace ReviewChecks

/-- What a provider is told to do with one request. -/
structure Script where
  /-- Milliseconds until it answers; it answers at once when there is no delay. -/
  delay : Option Nat := none
  /-- How the fetch ends, if it ever does. -/
  outcome : Option (FetchRequest → Outcome) := none

namespace Script

def ofResponse (response : FetchRequest → FetchResponse) : Script where
  outcome := some fun request => .response (response request)

def ofFailure (failure : FetchFailure) : Script where
  outcome := some fun _ => .failed failure

def reply (script : Script) (request : FetchRequest) : Reply :=
  match script.outcome, script.delay with
  | none, _ => .never
  | some outcome, none => .now (outcome request)
  | some outcome, some delay => .later delay (outcome request)

end Script

/-- The provider that follows the scripts in their order, and the last one from then on. -/
def Provider.ofScripts (first : Script) (rest : List Script) : Provider := fun _ call request =>
  (((first :: rest)[call]?).getD (rest.getLastD first)).reply request

/-- The provider that leaves every request to be answered from outside. -/
def Provider.handOut : Provider := fun _ _ _ =>
  .handedOut

end ReviewChecks
