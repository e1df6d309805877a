import ReviewChecks.Board.Reading
import ReviewChecks.Model

/-!
# Tasks

What a model does by itself. Each task can take a step whenever it has something to do, in any order. A step of a task
that has nothing to do changes nothing.
-/

namespace ReviewChecks

/-- A step that a model can take by itself. -/
inductive Task where
  /-- One step of the pipeline at a place. -/
  | pipeline (index : Nat)
  /-- Pins the router's patchset after it has changed. -/
  | followRouter
  /-- Drops the pin if the latest patchset, which has changed, makes it needless. -/
  | followLatest
  /-- Ends the task that follows patchsets, once the model is shut down. -/
  | stopFollowing
  /-- Reads one request to reload everything and passes it on. -/
  | relayReload
  /-- Ends the task that passes requests to reload on, once the model is shut down. -/
  | stopRelaying
  /-- Starts to wait for the result of the awaited action of a number, or handles the result or the timeout. -/
  | action (number : Nat)
deriving DecidableEq, Repr

namespace Model

def scene (model : Model) (pipeline : Pipeline) : Scene where
  host := model.host
  store := model.store
  live := model.isLive pipeline.key.registration
  reloads := model.reloadsOf pipeline.key.registration
  now := model.clock
  reloadThrottle := model.config.reloadThrottle.toNat
  nextFetch := model.fetches
  log := model.log

/-- The model after a step of the pipeline at a place. What the pipeline writes only counts while its registration
stands. -/
def stepPipeline (model : Model) (index : Nat) : Model :=
  match model.pipelines[index]? with
  | none => model
  | some pipeline =>
    let scene := model.scene pipeline
    let step := pipeline.step scene
    { model with
      pipelines := model.pipelines.set index step.pipeline
      store := if scene.live then model.store.applyAll step.writes else model.store
      fetches := model.fetches + step.created
      log := step.effects.reverse ++ model.log }

/-- Whether the router's patchset has changed since the following task looked at it. -/
def routerChanged (model : Model) : Bool :=
  model.followsPatchset && model.seenRouterPatchset != model.host.routerPatchset.changes

/-- Whether the latest patchset has changed since the following task looked at it. -/
def latestChanged (model : Model) : Bool :=
  model.followsPatchset && model.seenLatestPatchset != model.host.latestPatchset.changes

/-- The model after the following task has handled the router's patchset. -/
def followRouter (model : Model) : Model :=
  if model.routerChanged then
    let looked := { model with seenRouterPatchset := model.host.routerPatchset.changes }
    if model.life = .dropped then { looked with followsPatchset := false }
    else looked.setPatchset model.host.routerPatchset.value
  else model

/-- The model after the following task has handled the latest patchset. -/
def followLatest (model : Model) : Model :=
  if model.latestChanged then
    let looked := { model with seenLatestPatchset := model.host.latestPatchset.changes }
    if model.life = .dropped then { looked with followsPatchset := false }
    else { looked with store := model.store.apply (.normalizePin model.host.latestPatchset.value) }
  else model

/-- The model after the task that follows the host's requests to reload has read the next one, or has been told that
it missed some. -/
def relayReload (model : Model) : Model :=
  if model.followsReloads then
    match Broadcast.receive? Broadcast.reloadCapacity model.host.reloads model.reloadsRead with
    | none => model
    | some (_, read) =>
      let looked := { model with reloadsRead := read }
      if model.life = .dropped then { looked with followsReloads := false } else looked.reloadAll
  else model

/-- The notice of an action's result: its message, else its error message, else that there is nothing to say. -/
def resultNotice (result : ActionResult) : Notice :=
  match result.message.or result.errorMessage with
  | some message => .alert message
  | none => .hideAlert

def handleResult (model : Model) (pending : PendingAction) : Model :=
  let noticed := model.record [.noticed (resultNotice pending.result)]
  if pending.result.shouldReload then noticed.reloadForCheck pending.checkName else noticed

/-- The model once the task of the awaited action of a number has started to wait. -/
def startAction (model : Model) (number : Nat) : Model :=
  { model with pending := model.pending.map fun held => if held.number = number then held.start model.clock else held }

/-- The model after the task of the awaited action of a number has taken a step. The first step starts the timeout. A
result that is there counts even if the timeout has passed, but not once nobody holds the model any more. -/
def stepAction (model : Model) (number : Nat) : Model :=
  match model.pending.find? (·.number = number) with
  | none => model
  | some pending =>
    if pending.wakesAt model.clock ≤ model.clock then
      let rest := { model with pending := model.pending.filter (·.number ≠ number) }
      if pending.hasResult model.clock && model.life != .dropped then rest.handleResult pending
      else rest
    else if pending.startedAt.isNone then model.startAction number
    else model

def runTask (model : Model) : Task → Model
  | .pipeline index => model.stepPipeline index
  | .followRouter => model.followRouter
  | .followLatest => model.followLatest
  | .stopFollowing => if model.life = .running then model else { model with followsPatchset := false }
  | .relayReload => model.relayReload
  | .stopRelaying => if model.life = .running then model else { model with followsReloads := false }
  | .action number => model.stepAction number

/-- Whether there is something to do for a step of a task. -/
def isReady (model : Model) : Task → Bool
  | .pipeline index => model.pipelines[index]?.any fun pipeline => pipeline.isReady (model.scene pipeline)
  | .followRouter => model.routerChanged
  | .followLatest => model.latestChanged
  | .stopFollowing => model.followsPatchset && model.life ≠ .running
  | .relayReload => model.followsReloads && model.reloadsRead < model.host.reloads
  | .stopRelaying => model.followsReloads && model.life ≠ .running
  | .action number => (model.pending.find? (·.number = number)).any (·.isReady model.clock)

end Model

end ReviewChecks
