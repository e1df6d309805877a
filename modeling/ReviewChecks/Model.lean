import ReviewChecks.Board.Reading
import ReviewChecks.Config
import ReviewChecks.Pipeline

/-!
# The model

The model ties everything together: what the host publishes, the store, the registered providers with one pipeline for
each patchset context, actions whose results are awaited, and two background tasks that follow the host. It is a value;
an operation gives the model after it. Operations never wait: what they set going is done by the tasks of
`ReviewChecks.Model.Task`, in the order of `ReviewChecks.Model.Agenda`.
-/

namespace ReviewChecks

/-- A provider's registration. Registrations are numbered, so that a new one is told from an old one of the same
name. -/
structure Registration where
  plugin : String
  number : Nat
  /-- How many requests to reload the provider there have been. -/
  reloads : Nat := 0
deriving DecidableEq, Repr

/-- The result that an action's callback promises: when it comes after the callback was called, if ever, and what it
is. If work on it only begins once it is waited for, the delay includes the time until then. -/
structure Promise where
  delay : Option Nat
  result : ActionResult
deriving DecidableEq, Repr

/-- An action whose result is awaited by a task of its own. Awaited actions are numbered in the order in which they were
triggered. -/
structure PendingAction where
  number : Nat
  checkName : Option String
  /-- When the result comes, if ever. -/
  due : Option Nat
  /-- How long the task waits for the result. -/
  timeout : Nat
  /-- When the task took its first step, which is what the timeout counts from. -/
  startedAt : Option Nat := none
  result : ActionResult
deriving DecidableEq, Repr

namespace PendingAction

def hasResult (pending : PendingAction) (now : Nat) : Bool :=
  pending.due.any (· ≤ now)

/-- When the wait ends: when the result comes or the timeout passes. A task that has not taken a step yet is taken to
start now. -/
def wakesAt (pending : PendingAction) (now : Nat) : Nat :=
  let ends := pending.startedAt.getD now + pending.timeout
  pending.due.elim ends (min · ends)

/-- Whether there is something for the task to do: start, or end the wait. -/
def isReady (pending : PendingAction) (now : Nat) : Bool :=
  pending.startedAt.isNone || decide (pending.wakesAt now ≤ now)

def start (pending : PendingAction) (now : Nat) : PendingAction :=
  { pending with startedAt := some (pending.startedAt.getD now) }

/-- From the first step of the task on it is settled when the wait ends. -/
@[simp] theorem wakesAt_start (pending : PendingAction) (now later : Nat) :
    (pending.start now).wakesAt later = pending.wakesAt now := rfl

@[simp] theorem start_start (pending : PendingAction) (now later : Nat) :
    (pending.start now).start later = pending.start now := rfl

theorem start_of_isSome {pending : PendingAction} (started : pending.startedAt.isSome) (now : Nat) :
    pending.start now = pending := by
  obtain ⟨time, started⟩ := Option.isSome_iff_exists.mp started
  simp only [start, started, Option.getD_some]
  exact congrArg (fun startedAt => { pending with startedAt }) started.symm

def timers (pending : PendingAction) : List Timer :=
  match pending.startedAt with
  | none => []
  | some started => (pending.due.map (Timer.mk .result)).toList ++ [⟨.timeout, started + pending.timeout⟩]

end PendingAction

inductive Model.Life where
  | running
  | shutDown
  /-- Nobody holds the model any more. -/
  | dropped
deriving DecidableEq, Repr

structure Model where
  config : ModelConfig
  host : Host
  store : Store := {}
  /-- Milliseconds since the model was made. -/
  clock : Nat := 0
  life : Model.Life := .running
  /-- The registered providers in the order of their registrations. -/
  registry : List Registration := []
  /-- The pipelines of all registrations there have been, two for each. -/
  pipelines : List Pipeline := []
  pending : List PendingAction := []
  /-- How many registrations there have been. -/
  registered : Nat := 0
  /-- How many actions there have been whose result was awaited. -/
  triggered : Nat := 0
  /-- How many fetches have been created. -/
  fetches : Nat := 0
  /-- The task that follows the router's and the latest patchset runs, and the counts of them that it has seen. -/
  followsPatchset : Bool := true
  seenRouterPatchset : Nat
  seenLatestPatchset : Nat
  /-- The task that follows the host's requests to reload runs, and how many of them it has read. -/
  followsReloads : Bool := true
  reloadsRead : Nat
  /-- What has happened, the newest first. -/
  log : List Effect := []

inductive Operation where
  | register (plugin : String) (provider : Provider) (settings : Option ProviderConfig)
  | unregister (plugin : String)
  | reload (plugin : String)
  | reloadAll
  /-- Reloads the provider that a check belongs to, or all providers without a check. -/
  | reloadForCheck (checkName : Option String)
  | updateResult (plugin : String) (run : RunInfo) (result : CheckResult)
  | setPatchset (patchset : Option UInt32)
  /-- Triggers an action for a run or for the whole change; the callback is given by what it promises. -/
  | trigger (action : Action) (run : Option RunInfo) (callback : ActionInvocation → Option Promise)
  | shutdown
  | drop

inductive Answer where
  | done
  | flag (value : Bool)
  | refused (error : Error)
deriving DecidableEq

namespace Model

/-- A patchset as it is pinned: the latest one is not pinned but followed. -/
def normalized (patchset latest : Option UInt32) : Option UInt32 :=
  if patchset.isSome ∧ patchset = latest then none else patchset

def setPatchset (model : Model) (patchset : Option UInt32) : Model :=
  { model with store := model.store.apply (.setPin (normalized patchset model.host.latestPatchset.value)) }

/-- A new model for a host. Everything that the host has published so far counts as seen, and the router's patchset is
pinned. -/
def create (host : Host) (config : ModelConfig) : Model :=
  setPatchset
    { config, host
      seenRouterPatchset := host.routerPatchset.changes
      seenLatestPatchset := host.latestPatchset.changes
      reloadsRead := host.reloads }
    host.routerPatchset.value

def hostActs (model : Model) (action : HostAction) : Model :=
  { model with host := model.host.act action }

def record (model : Model) (effects : List Effect) : Model :=
  { model with log := effects.reverse ++ model.log }

def isRegistered (model : Model) (plugin : String) : Bool :=
  model.registry.any (·.plugin = plugin)

/-- Whether the registration of a number still stands. -/
def isLive (model : Model) (registration : Nat) : Bool :=
  model.registry.any (·.number = registration)

/-- How many requests to reload a registration there have been. -/
def reloadsOf (model : Model) (registration : Nat) : Nat :=
  ((model.registry.find? (·.number = registration)).map (·.reloads)).getD 0

/-- Registers a provider: its entries are fresh, and a pipeline for each context is set up. -/
def register (model : Model) (plugin : String) (provider : Provider) (settings : Option ProviderConfig) :
    Except Error Model :=
  if model.life ≠ .running then .error .shutdown
  else if model.isRegistered plugin then .error (.alreadyRegistered plugin)
  else
    let number := model.registered
    let period := (model.config.providerConfig plugin settings).pollingInterval?
    .ok { model with
      store := model.store.applyAll (PatchsetContext.all.map (.register plugin))
      registered := number + 1
      registry := model.registry ++ [{ plugin, number }]
      pipelines := model.pipelines ++
        PatchsetContext.all.map fun context =>
          { key := { plugin, context, registration := number }, provider, period } }

/-- Ends a provider's registration and removes its entries. -/
def unregister (model : Model) (plugin : String) : Except Error Model :=
  if model.isRegistered plugin then
    .ok { model with
      registry := model.registry.filter (·.plugin ≠ plugin)
      store := model.store.apply (.remove plugin) }
  else .error (.unknownPlugin plugin)

/-- Requests a reload of every provider that satisfies a condition. -/
def reloadWhere (model : Model) (condition : Registration → Bool) : Model :=
  { model with
    registry := model.registry.map fun registration =>
      if condition registration then { registration with reloads := registration.reloads + 1 } else registration }

def reload (model : Model) (plugin : String) : Except Error Model :=
  if model.isRegistered plugin then .ok (model.reloadWhere (·.plugin = plugin))
  else .error (.unknownPlugin plugin)

def reloadAll (model : Model) : Model :=
  model.reloadWhere fun _ => true

/-- Requests a reload of the provider that a check belongs to by the latest entries, or of all without a check. A check
that belongs to no provider is ignored. -/
def reloadForCheck (model : Model) : Option String → Model
  | none => model.reloadAll
  | some checkName =>
    match model.store.board.latest.entries.checkOwners.find? checkName with
    | some plugin => model.reloadWhere (·.plugin = plugin)
    | none => model

/-- Pushes a newer version of one result, and whether any entry held an older one. -/
def updateResult (model : Model) (plugin : String) (run : RunInfo) (result : CheckResult) : Bool × Model :=
  match model.store.publish? (.push plugin run result) with
  | some store => (true, { model with store })
  | none => (false, model)

/-- What an action's callback is told: nothing unless the action has a callback, and the change and the patchset are
known. -/
def invocation? (model : Model) (action : Action) (run : Option RunInfo) : Option ActionInvocation := do
  let _ ← action.callback
  let change ← model.host.changeNumber.value
  let patchset ← (run.map (·.patchset)).or model.host.latestPatchset.value
  return {
    change, patchset
    attempt := run.bind (·.attempt)
    externalId := run.bind (·.externalId)
    checkName := run.map (·.checkName)
    actionName := action.name }

/-- The notice that an action has been triggered. -/
def triggerNotice (action : String) : Notice :=
  .showAlert s!"Triggering action '{action}' ..." true

/-- Triggers an action, and whether its result is awaited. -/
def trigger (model : Model) (action : Action) (run : Option RunInfo)
    (callback : ActionInvocation → Option Promise) : Bool × Model :=
  match model.invocation? action run with
  | none => (false, model)
  | some invocation =>
    let invoked := model.record
      [.reported (.actionTriggered action.name invocation.checkName), .invoked invocation]
    match callback invocation with
    | none => (false, invoked)
    | some promise =>
      (true, { invoked.record [.noticed (triggerNotice action.name)] with
        triggered := model.triggered + 1
        pending := model.pending ++ [{
          number := model.triggered
          checkName := invocation.checkName
          due := promise.delay.map (model.clock + ·)
          timeout := model.config.actionTimeout.toNat
          result := promise.result }] })

/-- Ends all registrations; the entries stay as they are. -/
def shutdown (model : Model) : Model :=
  if model.life = .running then { model with life := .shutDown, registry := [] } else model

/-- Lets go of the model, which shuts it down. -/
def drop (model : Model) : Model :=
  { model.shutdown with life := .dropped }

/-- Gives the outcome of a fetch that was handed out, and whether a pipeline still waits for it. -/
def answer (model : Model) (fetch : Nat) (outcome : Outcome) : Bool × Model :=
  let waits := fun (held : Fetch) => held.number = fetch ∧ held.stage = .handedOut
  if model.pipelines.any fun pipeline => pipeline.inFlight.any fun held => waits held then
    (true, { model with
      pipelines := model.pipelines.map fun pipeline =>
        match pipeline.inFlight with
        | some held =>
          if waits held then { pipeline with inFlight := some { held with stage := .answered outcome } }
          else pipeline
        | none => pipeline })
  else (false, model)

/-- Whether nothing is left that could write to the store. -/
def isClosed (model : Model) : Bool :=
  model.life = .dropped && model.pipelines.all (·.phase = .ended)

/-- The answer and the model after an operation that may be refused. -/
def accept (model : Model) : Except Error Model → Answer × Model
  | .ok next => (.done, next)
  | .error error => (.refused error, model)

/-- The answer to an operation and the model after it. -/
def perform (model : Model) : Operation → Answer × Model
  | .register plugin provider settings => model.accept (model.register plugin provider settings)
  | .unregister plugin => model.accept (model.unregister plugin)
  | .reload plugin => model.accept (model.reload plugin)
  | .reloadAll => (.done, model.reloadAll)
  | .reloadForCheck checkName => (.done, model.reloadForCheck checkName)
  | .updateResult plugin run result =>
    let (updated, next) := model.updateResult plugin run result
    (.flag updated, next)
  | .setPatchset patchset => (.done, model.setPatchset patchset)
  | .trigger action run callback =>
    let (started, next) := model.trigger action run callback
    (.flag started, next)
  | .shutdown => (.done, model.shutdown)
  | .drop => (.done, model.drop)

end Model

end ReviewChecks
