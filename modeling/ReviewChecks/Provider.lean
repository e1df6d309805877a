import ReviewChecks.Fetch

/-!
# Providers

A provider is known by what it does with a request: it answers at once or after some time, leaves the request to be
answered from outside, or never answers. Instead of answering, a fetch can also fail, which ends its pipeline.
-/

namespace ReviewChecks

inductive FetchFailure where
  /-- An error with the errors that led to it, the outermost first. -/
  | error (chain : List String)
  /-- A panic, with its message if it has one. -/
  | panic (message : Option String)
deriving DecidableEq, Repr

def FetchFailure.reason : FetchFailure → String
  | .error chain => ": ".intercalate chain
  | .panic (some message) => message
  | .panic none => "provider panicked"

inductive Outcome where
  | response (response : FetchResponse)
  | failed (failure : FetchFailure)
deriving DecidableEq

/-- What a provider does with a request. -/
inductive Reply where
  | now (outcome : Outcome)
  /-- An outcome after some milliseconds. -/
  | later (delay : Nat) (outcome : Outcome)
  /-- The request is handed out, to be answered from outside. -/
  | handedOut
  | never
deriving DecidableEq

/-- A provider, by its reply to a request: it depends on the context that asks and on how many requests were made
before under the same name in that context. -/
abbrev Provider := PatchsetContext → Nat → FetchRequest → Reply

end ReviewChecks
