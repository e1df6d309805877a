/-!
# Actions

Buttons that a provider offers, what is handed to the callback behind one of them, and what comes back. A callback is
known by its name: equal names are the same callback.
-/

namespace ReviewChecks

/-- A button that a provider offers, at the top level or on a run or result. -/
structure Action where
  name : String
  tooltip : Option String := none
  primary : Bool := false
  summary : Bool := false
  disabled : Bool := false
  /-- The callback behind the button; it is no part of the written form. -/
  callback : Option String := none
deriving DecidableEq, Repr, Inhabited

def Action.withoutCallback (action : Action) : Action :=
  { action with callback := none }

/-- What an action's callback is told when the action is triggered. -/
structure ActionInvocation where
  change : UInt64
  patchset : UInt32
  attempt : Option UInt32
  externalId : Option String
  checkName : Option String
  actionName : String
deriving DecidableEq, Repr

/-- What an action came to. -/
structure ActionResult where
  message : Option String := none
  errorMessage : Option String := none
  shouldReload : Bool := false
deriving DecidableEq, Repr, Inhabited

end ReviewChecks
