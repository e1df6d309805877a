import ReviewChecks.Change

/-!
# The host

The host shows a change and publishes what it shows through signals: the change and its number, the latest patchset,
the patchset that the address asks for, and whether the host can be seen. A signal counts the times it was set to
another value, so that a reader can tell by the count it saw last whether there is something new. Besides, the host
broadcasts requests to reload everything.
-/

namespace ReviewChecks

/-- A value that readers follow, with the number of times it was set to another value. -/
structure Signal (α : Type) where
  value : α
  changes : Nat := 0
deriving DecidableEq

/-- The signal set to a value; setting it to the value it has is no change. -/
def Signal.set {α : Type} [DecidableEq α] (signal : Signal α) (value : α) : Signal α :=
  if signal.value = value then signal else ⟨value, signal.changes + 1⟩

inductive Visibility where
  | visible
  | hidden
deriving DecidableEq, Repr

structure Host where
  changeNumber : Signal (Option UInt64) := ⟨none, 0⟩
  latestPatchset : Signal (Option UInt32) := ⟨none, 0⟩
  change : Signal (Option ChangeInfo) := ⟨none, 0⟩
  routerPatchset : Signal (Option UInt32) := ⟨none, 0⟩
  visibility : Signal Visibility := ⟨.visible, 0⟩
  /-- How many requests to reload everything have been broadcast. -/
  reloads : Nat := 0
deriving DecidableEq

inductive HostAction where
  | setChangeNumber (number : Option UInt64)
  | setLatestPatchset (patchset : Option UInt32)
  | setChange (change : Option ChangeInfo)
  | setRouterPatchset (patchset : Option UInt32)
  | setVisibility (visibility : Visibility)
  /-- Publishes a change, then its number, then its latest patchset. -/
  | loadChange (change : ChangeInfo)
  | broadcastReload
deriving DecidableEq

/-- The ways on which the host publishes. -/
inductive HostChannel where
  | changeNumber
  | latestPatchset
  | change
  | routerPatchset
  | visibility
  | reload
deriving DecidableEq, Repr

namespace HostChannel

def all : List HostChannel :=
  [.changeNumber, .latestPatchset, .change, .routerPatchset, .visibility, .reload]

def name : HostChannel → String
  | .changeNumber => "change_number"
  | .latestPatchset => "latest_patchset"
  | .change => "change"
  | .routerPatchset => "router_patchset"
  | .visibility => "visibility"
  | .reload => "reload"

end HostChannel

namespace Host

def act (host : Host) : HostAction → Host
  | .setChangeNumber number => { host with changeNumber := host.changeNumber.set number }
  | .setLatestPatchset patchset => { host with latestPatchset := host.latestPatchset.set patchset }
  | .setChange change => { host with change := host.change.set change }
  | .setRouterPatchset patchset => { host with routerPatchset := host.routerPatchset.set patchset }
  | .setVisibility visibility => { host with visibility := host.visibility.set visibility }
  | .loadChange change =>
    { host with
      change := host.change.set (some change)
      changeNumber := host.changeNumber.set (some change.number)
      latestPatchset := host.latestPatchset.set change.latestPatchset? }
  | .broadcastReload => { host with reloads := host.reloads + 1 }

def isVisible (host : Host) : Bool :=
  host.visibility.value == .visible

def notifications (host : Host) : HostChannel → Nat
  | .changeNumber => host.changeNumber.changes
  | .latestPatchset => host.latestPatchset.changes
  | .change => host.change.changes
  | .routerPatchset => host.routerPatchset.changes
  | .visibility => host.visibility.changes
  | .reload => host.reloads

/-- The channels on which something was published since an earlier state of the host. -/
def notifiedSince (host earlier : Host) : List HostChannel :=
  HostChannel.all.filter fun channel => host.notifications channel != earlier.notifications channel

end Host

end ReviewChecks
