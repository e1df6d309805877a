import ReviewChecks.Board.Entry

/-!
# The board

The state of all checks: the entries of both patchset contexts and the pinned patchset. A mutation either leaves the
board as it is or replaces some of its parts. The entries of a context carry a version, which stays the same as long
as they are not replaced and never returns, so that an observer can tell by it whether to look again.
-/

namespace ReviewChecks

/-- The entries of one context and their version. -/
structure EntryMap where
  version : Nat
  entries : Entries
deriving DecidableEq

structure Board where
  /-- The pinned patchset; none means that the latest one is followed. -/
  pin : Option UInt32
  latest : EntryMap
  selected : EntryMap
deriving DecidableEq

/-- The parts of a board that a mutation replaces; an absent part stays. -/
structure Replacement where
  pin : Option (Option UInt32) := none
  latest : Option Entries := none
  selected : Option Entries := none
deriving DecidableEq

/-- An operation on the board. -/
inductive Mutation where
  /-- A fresh entry for a provider, in place of the one it had. -/
  | register (plugin : String) (context : PatchsetContext)
  /-- No entries of a provider in either context. -/
  | remove (plugin : String)
  | startLoading (plugin : String) (context : PatchsetContext)
  | fail (plugin : String) (context : PatchsetContext) (message : String)
  | requireLogin (plugin : String) (context : PatchsetContext) (login : String)
  | load (plugin : String) (context : PatchsetContext) (runs : List Run) (actions : List Action)
      (links : List Link)
  /-- A newer version of one result, in both contexts. -/
  | push (plugin : String) (run : RunInfo) (result : CheckResult)
  | setPin (patchset : Option UInt32)
  /-- Drops a pin that the given latest patchset makes needless. -/
  | normalizePin (latest : Option UInt32)
deriving DecidableEq

namespace Board

def empty : Board where
  pin := none
  latest := ⟨0, []⟩
  selected := ⟨1, []⟩

def map (board : Board) : PatchsetContext → EntryMap
  | .latest => board.latest
  | .selected => board.selected

/-- The entries to show for a context: those of the selected context only count while a patchset is pinned. -/
def view (board : Board) : PatchsetContext → EntryMap
  | .latest => board.latest
  | .selected => if board.pin.isSome then board.selected else board.latest

def entry? (board : Board) (context : PatchsetContext) (plugin : String) : Option Entry :=
  (board.map context).entries.get? plugin

end Board

namespace Replacement

def ofContext : PatchsetContext → Entries → Replacement
  | .latest, entries => { latest := some entries }
  | .selected, entries => { selected := some entries }

/-- The replacement of the contexts for which there are new entries; none when there are none at all. -/
def ofBoth? (latest selected : Option Entries) : Option Replacement :=
  if latest.isSome || selected.isSome then some { latest, selected } else none

/-- The board with the replaced parts, whose entries get the versions that belong to the given stamp. -/
def applyTo (replacement : Replacement) (stamp : Nat) (board : Board) : Board where
  pin := replacement.pin.getD board.pin
  latest := (replacement.latest.map fun entries => ⟨2 * stamp, entries⟩).getD board.latest
  selected := (replacement.selected.map fun entries => ⟨2 * stamp + 1, entries⟩).getD board.selected

end Replacement

namespace Mutation

def replaceEntry (board : Board) (plugin : String) (context : PatchsetContext) (change : Entry → Entry) :
    Replacement :=
  .ofContext context ((board.map context).entries.update plugin change)

/-- What a mutation replaces; none when it leaves the board as it is. -/
def replacement? (board : Board) : Mutation → Option Replacement
  | .register plugin context => some (replaceEntry board plugin context fun _ => .fresh plugin)
  | .remove plugin =>
    Replacement.ofBoth? (board.latest.entries.erase? plugin) (board.selected.entries.erase? plugin)
  | .startLoading plugin context => some (replaceEntry board plugin context Entry.startLoading)
  | .fail plugin context message => some (replaceEntry board plugin context (·.fail (.error message)))
  | .requireLogin plugin context login =>
    some (replaceEntry board plugin context (·.fail (.notLoggedIn login)))
  | .load plugin context runs actions links =>
    some (replaceEntry board plugin context (·.load runs actions links))
  | .push plugin run result =>
    Replacement.ofBoth? (board.latest.entries.push? plugin run result)
      (board.selected.entries.push? plugin run result)
  | .setPin patchset => if board.pin = patchset then none else some { pin := some patchset }
  | .normalizePin latest =>
    match board.pin, latest with
    | some pinned, some latest => if pinned = latest then some { pin := some none } else none
    | some _, none => some { pin := some none }
    | none, _ => none

end Mutation

end ReviewChecks
