import ReviewChecks.Board.Reading
import ReviewChecks.Store

/-!
# View streams

A stream of the values that a view of the board takes. Its first value is that of the current board. After that it
yields a value whenever a publication it has not looked at yet gives one that differs from the last value yielded, and
it ends when the store's writers are gone.
-/

namespace ReviewChecks

/-- How a view reads a board, with a state that it keeps between readings. -/
structure Selector (σ α : Type) where
  read : σ → Board → α × σ

namespace Selector

variable {α : Type}

def ofBoard (project : Board → α) : Selector Unit α where
  read _ board := (project board, ())

/-- A view of the entries shown for a context, which is read anew only when it is given other entries. -/
def ofContext (context : PatchsetContext) (project : Entries → α) : Selector (Memo α) α where
  read memo board := memo.read project (board.view context)

end Selector

/-- A stream of a view's values. -/
structure ViewStream (σ α : Type) where
  selector : Selector σ α
  state : σ
  /-- The number of the last publication that the stream has looked at. -/
  seen : Nat
  /-- The last value yielded. -/
  last : Option α := none

/-- What asking a stream for its next value comes to. -/
inductive Poll (α : Type) where
  | value (value : α)
  /-- There is nothing new yet. -/
  | pending
  /-- There will be nothing new. -/
  | ended
deriving DecidableEq, Repr

namespace ViewStream

variable {σ α : Type}

/-- A stream of a view's values that has not been looked at. -/
def ofSelector (selector : Selector σ α) (state : σ) (store : Store) : ViewStream σ α where
  selector := selector
  state := state
  seen := store.published

/-- The value of the current board, and the stream, which yields the same as before. -/
def current (stream : ViewStream σ α) (store : Store) : α × ViewStream σ α :=
  let (value, state) := stream.selector.read stream.state store.board
  (value, { stream with state })

/-- What the stream has to give when it is not waited for, and the stream after that. `closed` says that no writer of
the store is left. -/
def next [DecidableEq α] (stream : ViewStream σ α) (store : Store) (closed : Bool) :
    Poll α × ViewStream σ α :=
  let idle : Poll α := if closed then .ended else .pending
  if stream.last.isSome && stream.seen == store.published then (idle, stream)
  else
    let (value, state) := stream.selector.read stream.state store.board
    let looked := { stream with state, seen := store.published }
    if stream.last = some value then (idle, looked) else (.value value, { looked with last := some value })

end ViewStream

end ReviewChecks
