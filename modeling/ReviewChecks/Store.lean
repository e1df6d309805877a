import ReviewChecks.Board

/-!
# The store

The store holds the current board and publishes a new one whenever a mutation replaces something. Publications are
numbered, and their numbers stamp the replaced entries. Writers may be bound to a token: once the token is cancelled,
their mutations no longer have an effect.
-/

namespace ReviewChecks

/-- The current board and the number of publications that led to it. -/
structure Store where
  board : Board := .empty
  published : Nat := 0
deriving DecidableEq

namespace Store

/-- The store after a mutation that publishes; none when the mutation replaces nothing. -/
def publish? (store : Store) (mutation : Mutation) : Option Store :=
  (mutation.replacement? store.board).map fun replacement =>
    { board := replacement.applyTo (store.published + 1) store.board
      published := store.published + 1 }

def apply (store : Store) (mutation : Mutation) : Store :=
  (store.publish? mutation).getD store

def applyAll (store : Store) (mutations : List Mutation) : Store :=
  mutations.foldl apply store

end Store

/-- A writer's access to the store, which may be bound to a token. -/
structure Handle where
  token : Option String := none
deriving DecidableEq, Repr

/-- The same store, bound to a token and to nothing else. -/
def Handle.boundTo (_ : Handle) (token : String) : Handle where
  token := some token

/-- A store with the tokens that have been cancelled. -/
structure GuardedStore where
  store : Store := {}
  cancelled : List String := []

inductive GuardedEvent where
  | cancel (token : String)
  | write (handle : Handle) (mutation : Mutation)

namespace GuardedStore

/-- Whether mutations through a handle still count. -/
def isLive (guarded : GuardedStore) (handle : Handle) : Bool :=
  match handle.token with
  | some token => !guarded.cancelled.contains token
  | none => true

/-- The guarded store after a mutation through a handle, if that publishes a new board. -/
def publish? (guarded : GuardedStore) (handle : Handle) (mutation : Mutation) : Option GuardedStore :=
  if guarded.isLive handle then
    (guarded.store.publish? mutation).map fun store => { guarded with store }
  else none

def cancel (guarded : GuardedStore) (token : String) : GuardedStore :=
  { guarded with cancelled := token :: guarded.cancelled }

def step (guarded : GuardedStore) : GuardedEvent → GuardedStore
  | .cancel token => guarded.cancel token
  | .write handle mutation => (guarded.publish? handle mutation).getD guarded

def run (guarded : GuardedStore) (events : List GuardedEvent) : GuardedStore :=
  events.foldl step guarded

end GuardedStore

end ReviewChecks
