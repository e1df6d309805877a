/-!
# Notices

What the user is told, and how a broadcast reaches its readers. A broadcast keeps a limited number of its newest
messages. A reader that has fallen further behind is told how many it has missed and goes on with the oldest one kept.
-/

namespace ReviewChecks

inductive Notice where
  | showAlert (message : String) (dismissible : Bool)
  | hideAlert
deriving DecidableEq, Repr

/-- The notice of a message that the user cannot dismiss. -/
def Notice.alert (message : String) : Notice :=
  .showAlert message false

/-- What a reader of a broadcast gets. -/
inductive Delivery (α : Type) where
  | message (value : α)
  | lagged (missed : Nat)
deriving DecidableEq, Repr

namespace Broadcast

/-- How many notices are kept for a reader. -/
def noticeCapacity : Nat := 32

/-- How many requests to reload everything are kept for a reader. -/
def reloadCapacity : Nat := 16

/-- What the reader of a broadcast gets next, when `sent` messages were sent and it has come to message `read`: none
when there is nothing new, else the number of the message or how many messages were missed, and how far the reader has
come then. -/
def receive? (capacity sent read : Nat) : Option (Delivery Nat × Nat) :=
  if sent ≤ read then none
  else if capacity < sent - read then some (.lagged (sent - capacity - read), sent - capacity)
  else some (.message read, read + 1)

/-- What a reader gets that reads all of some new messages. -/
def drain {α : Type} (capacity : Nat) (new : List α) : List (Delivery α) :=
  let missed := new.length - capacity
  (if missed = 0 then [] else [.lagged missed]) ++ (new.drop missed).map .message

end Broadcast

end ReviewChecks
