import ReviewChecks.Host
import ReviewChecks.Notice
import ReviewChecks.Provider
import ReviewChecks.Store
import ReviewChecks.Telemetry

/-!
# Pipelines

A pipeline keeps one provider's entry in one patchset context up to date. It waits for signals, each of which may make
it evaluate its trigger anew: with the change, patchset and host as they are then, the trigger asks for a fetch, finds
that there is nothing to ask for, or is suppressed because the host is hidden. At most one fetch is in flight; a newer
one takes its place.

One iteration of a pipeline takes the first branch that is ready (`Pipeline.branch?`) and acts on it
(`Pipeline.take`); `Pipeline.step` is the whole iteration. A step does not touch the store itself: it says what is to
be written, and what it does besides.
-/

namespace ReviewChecks

inductive Fetch.Stage where
  /-- The provider does not know of it yet. -/
  | created
  /-- It waits for an answer from outside. -/
  | handedOut
  /-- It ends by itself at a point in time. -/
  | due (time : Nat) (outcome : Outcome)
  /-- It has ended and its outcome waits to be handled. -/
  | answered (outcome : Outcome)
  /-- It never ends. -/
  | silent
deriving DecidableEq

/-- How far a fetch has come when the provider has just replied to it. -/
def Fetch.Stage.ofReply (now : Nat) : Reply → Fetch.Stage
  | .now outcome => .answered outcome
  | .later delay outcome => .due (now + delay) outcome
  | .handedOut => .handedOut
  | .never => .silent

/-- A fetch in flight. Fetches are numbered in the order in which triggers create them. -/
structure Fetch where
  number : Nat
  request : FetchRequest
  stage : Fetch.Stage := .created
deriving DecidableEq

/-- The outcome of a fetch that has ended by a point in time. -/
def Fetch.outcome? (fetch : Fetch) (now : Nat) : Option Outcome :=
  match fetch.stage with
  | .answered outcome => some outcome
  | .due time outcome => if time ≤ now then some outcome else none
  | .created | .handedOut | .silent => none

/-- What a point in time is waited for. -/
inductive Timer.Cause where
  /-- The end of the fetch of a number. -/
  | fetch (number : Nat)
  /-- The next poll. -/
  | tick
  /-- The result of an action. -/
  | result
  /-- The end of the patience with an action. -/
  | timeout
deriving DecidableEq, Repr

structure Timer where
  cause : Timer.Cause
  time : Nat
deriving DecidableEq, Repr

/-- Which pipeline is meant: that of a provider's registration in a context. -/
structure PipelineKey where
  plugin : String
  context : PatchsetContext
  registration : Nat
deriving DecidableEq, Repr

/-- What happens besides changes of the store. -/
inductive Effect where
  /-- A trigger was evaluated with the given change number and patchset. -/
  | evaluated (key : PipelineKey) (changeNumber : Option UInt64) (patchset : Option UInt32)
  /-- A fetch was handed to the provider, which had had `call` requests in that context before, with its reply. -/
  | requested (key : PipelineKey) (fetch call time : Nat) (request : FetchRequest) (reply : Reply)
  /-- A fetch that was handed out was dropped before it had an answer. -/
  | abandoned (key : PipelineKey) (fetch : Nat)
  /-- The outcome of a fetch was handled. -/
  | settled (key : PipelineKey) (fetch : Nat) (outcome : Outcome)
  | reported (report : Report)
  | invoked (invocation : ActionInvocation)
  | noticed (notice : Notice)
deriving DecidableEq

/-- What a pipeline can see when it takes a step. -/
structure Scene where
  host : Host
  store : Store
  /-- Its registration still stands. -/
  live : Bool
  /-- How many requests to reload its provider there have been. -/
  reloads : Nat
  now : Nat
  reloadThrottle : Nat
  /-- The number that the next fetch gets. -/
  nextFetch : Nat
  /-- What has happened, the newest first. -/
  log : List Effect

inductive Trigger where
  /-- The host is hidden: nothing is fetched and nothing written. -/
  | suppressed
  /-- Something that a request needs is not known. -/
  | gap
  | fetch (request : FetchRequest)
deriving DecidableEq

/-- Whether a request to the provider of a pipeline was made in its context, under this registration or another of the
same name. -/
def Effect.isRequestOf (key : PipelineKey) : Effect → Bool
  | .requested asked .. => asked.plugin == key.plugin && asked.context == key.context
  | _ => false

namespace Scene

/-- How many requests the provider of a pipeline has had in its context. -/
def calls (scene : Scene) (key : PipelineKey) : Nat :=
  scene.log.countP (Effect.isRequestOf key)

/-- The patchset of a context: the latest one, or the pinned one where it goes before. -/
def patchset? (scene : Scene) : PatchsetContext → Option UInt32
  | .latest => scene.host.latestPatchset.value
  | .selected => scene.store.board.pin.or scene.host.latestPatchset.value

/-- The request for a context, if everything that it needs is known. -/
def request? (scene : Scene) (context : PatchsetContext) : Option FetchRequest := do
  let changeNumber ← scene.host.changeNumber.value
  let patchset ← scene.patchset? context
  let change ← scene.host.change.value
  let sha ← change.shaForPatchset? patchset
  return {
    changeNumber, patchset, sha
    repo := change.project
    commitMessage := change.currentCommitMessage?
    changeInfo := change }

def trigger (scene : Scene) (context : PatchsetContext) : Trigger :=
  if scene.host.isVisible then
    match scene.request? context with
    | some request => .fetch request
    | none => .gap
  else .suppressed

end Scene

inductive Pipeline.Phase where
  /-- It has been set up but has not run yet. -/
  | created
  | running
  /-- It was cancelled or its provider failed. -/
  | ended
deriving DecidableEq, Repr

/-- The fetch loop of one provider in one patchset context. -/
structure Pipeline where
  key : PipelineKey
  provider : Provider
  /-- Milliseconds between two polls, none without polling. -/
  period : Option Nat
  phase : Pipeline.Phase := .created
  /-- The counts of the signals that have been looked at. -/
  seenChangeNumber : Nat := 0
  seenLatestPatchset : Nat := 0
  seenPublished : Nat := 0
  seenReloads : Nat := 0
  seenVisibility : Nat := 0
  nextTick : Option Nat := none
  /-- When a reload last had an effect. -/
  lastReload : Option Nat := none
  /-- The patchset that the context resolved to when that was last looked at. -/
  patchset : Option UInt32 := none
  inFlight : Option Fetch := none

structure PipelineStep where
  pipeline : Pipeline
  writes : List Mutation := []
  effects : List Effect := []
  /-- How many fetches were created. -/
  created : Nat := 0

inductive Pipeline.Branch where
  | cancelled
  | settled (fetch : Nat) (outcome : Outcome)
  | changeNumber
  | latestPatchset
  | published
  | reload
  | visibility
  | tick
deriving DecidableEq

namespace Pipeline

/-- The effect of dropping the fetch in flight. -/
def abandonment (pipeline : Pipeline) : List Effect :=
  match pipeline.inFlight with
  | some fetch => if fetch.stage = .handedOut then [.abandoned pipeline.key fetch.number] else []
  | none => []

/-- Evaluates the trigger. A new fetch takes the place of the one in flight; a gap drops it and writes an empty
answer; a hidden host leaves it alone. -/
def fire (scene : Scene) (pipeline : Pipeline) : PipelineStep :=
  let plugin := pipeline.key.plugin
  let context := pipeline.key.context
  let evaluated :=
    Effect.evaluated pipeline.key scene.host.changeNumber.value (scene.patchset? context)
  match scene.trigger context with
  | .suppressed => { pipeline, effects := [evaluated] }
  | .gap =>
    { pipeline := { pipeline with inFlight := none }
      writes := [.load plugin context [] [] []]
      effects := evaluated :: pipeline.abandonment }
  | .fetch request =>
    { pipeline := { pipeline with inFlight := some { number := scene.nextFetch, request } }
      writes := [.startLoading plugin context]
      effects := evaluated :: pipeline.abandonment
      created := 1 }

/-- Evaluates the trigger if the context resolves to another patchset than when that was last looked at. -/
def fireIfMoved (scene : Scene) (pipeline : Pipeline) : PipelineStep :=
  let current := scene.patchset? pipeline.key.context
  if current = pipeline.patchset then { pipeline }
  else fire scene { pipeline with patchset := current }

/-- The first step: everything that was signalled so far is covered by one evaluation of the trigger. The clock is taken
to hold every time. With a bounded clock the first tick of a period of about `2 ^ 63` seconds or more would overflow,
and the pipeline would end here, before its first fetch; this is left out. -/
def start (scene : Scene) (pipeline : Pipeline) : PipelineStep :=
  fire scene { pipeline with
    phase := .running
    seenChangeNumber := scene.host.changeNumber.changes
    seenLatestPatchset := scene.host.latestPatchset.changes
    seenPublished := scene.store.published
    seenReloads := scene.reloads
    seenVisibility := scene.host.visibility.changes
    nextTick := pipeline.period.map (scene.now + ·)
    patchset := scene.patchset? pipeline.key.context }

/-- What is written and reported when a provider has answered. -/
def land (key : PipelineKey) : FetchResponse → Mutation × List Effect
  | .ok runs actions links => (.load key.plugin key.context runs actions links, [])
  | .error message =>
    (.fail key.plugin key.context message, [.reported (.execution .fetchError key.plugin message)])
  | .notLoggedIn login =>
    (.requireLogin key.plugin key.context login, [.reported (.execution .notLoggedIn key.plugin "")])

def crashMessage (reason : String) : String :=
  s!"Fetching checks failed: {reason}"

/-- Handles the outcome of the fetch in flight: an answer is written, a failure ends the pipeline. -/
def settle (pipeline : Pipeline) (fetch : Nat) (outcome : Outcome) : PipelineStep :=
  let key := pipeline.key
  match outcome with
  | .response response =>
    { pipeline := { pipeline with inFlight := none }
      writes := [(land key response).1]
      effects := .settled key fetch outcome :: (land key response).2 }
  | .failed failure =>
    let message := crashMessage failure.reason
    { pipeline := { pipeline with inFlight := none, phase := .ended }
      writes := [.fail key.plugin key.context message]
      effects := [.settled key fetch outcome, .reported (.error key.plugin message),
        .reported (.execution .fetchCrashed key.plugin failure.reason)] }

/-- A reload has an effect when the last one that had is long enough ago. -/
def reloadDue (scene : Scene) (pipeline : Pipeline) : Bool :=
  match pipeline.lastReload with
  | some last => decide (scene.reloadThrottle ≤ scene.now - last)
  | none => true

/-- The first of the ticks of the given period from `tick` on that lies ahead. -/
def tickAfter (now tick period : Nat) : Nat :=
  tick + period * ((now - tick) / period + 1)

/-- Hands a new fetch to the provider. -/
def request (scene : Scene) (pipeline : Pipeline) : Pipeline × List Effect :=
  match pipeline.inFlight with
  | some fetch =>
    if fetch.stage = .created then
      let calls := scene.calls pipeline.key
      let reply := pipeline.provider pipeline.key.context calls fetch.request
      ({ pipeline with inFlight := some { fetch with stage := .ofReply scene.now reply } },
        [.requested pipeline.key fetch.number calls scene.now fetch.request reply])
    else (pipeline, [])
  | none => (pipeline, [])

/-- The fetch in flight that has ended, with its outcome. -/
def ended? (scene : Scene) (pipeline : Pipeline) : Option (Nat × Outcome) := do
  let fetch ← pipeline.inFlight
  let outcome ← fetch.outcome? scene.now
  return (fetch.number, outcome)

/-- The first branch that is ready. -/
def branch? (scene : Scene) (pipeline : Pipeline) : Option Branch :=
  if scene.live then
    match pipeline.ended? scene with
    | some (fetch, outcome) => some (.settled fetch outcome)
    | none =>
      if pipeline.seenChangeNumber ≠ scene.host.changeNumber.changes then some .changeNumber
      else if pipeline.seenLatestPatchset ≠ scene.host.latestPatchset.changes then some .latestPatchset
      else if pipeline.key.context = .selected ∧ pipeline.seenPublished ≠ scene.store.published then
        some .published
      else if pipeline.seenReloads ≠ scene.reloads then some .reload
      else if pipeline.seenVisibility ≠ scene.host.visibility.changes then some .visibility
      else if pipeline.nextTick.any (· ≤ scene.now) then some .tick
      else none
  else some .cancelled

def take (scene : Scene) (pipeline : Pipeline) : Branch → PipelineStep
  | .cancelled =>
    { pipeline := { pipeline with inFlight := none, phase := .ended }, effects := pipeline.abandonment }
  | .settled fetch outcome => pipeline.settle fetch outcome
  | .changeNumber => fire scene { pipeline with seenChangeNumber := scene.host.changeNumber.changes }
  | .latestPatchset =>
    fireIfMoved scene { pipeline with seenLatestPatchset := scene.host.latestPatchset.changes }
  | .published => fireIfMoved scene { pipeline with seenPublished := scene.store.published }
  | .reload =>
    let looked := { pipeline with seenReloads := scene.reloads }
    if pipeline.reloadDue scene then fire scene { looked with lastReload := some scene.now }
    else { pipeline := looked }
  | .visibility => fire scene { pipeline with seenVisibility := scene.host.visibility.changes }
  | .tick =>
    fire scene { pipeline with
      nextTick := do
        let tick ← pipeline.nextTick
        let period ← pipeline.period
        return tickAfter scene.now tick period }

/-- One iteration of a running pipeline. A cancelled one ends. Otherwise a new fetch is handed to the provider before
any branch is looked at. -/
def iterate (scene : Scene) (pipeline : Pipeline) : PipelineStep :=
  if scene.live then
    let (asked, effects) := pipeline.request scene
    match asked.branch? scene with
    | some branch =>
      let step := asked.take scene branch
      { step with effects := effects ++ step.effects }
    | none => { pipeline := asked, effects }
  else pipeline.take scene .cancelled

def step (scene : Scene) (pipeline : Pipeline) : PipelineStep :=
  match pipeline.phase with
  | .created => pipeline.start scene
  | .running => pipeline.iterate scene
  | .ended => { pipeline }

def hasNewFetch (pipeline : Pipeline) : Bool :=
  pipeline.inFlight.any (·.stage = .created)

def isReady (scene : Scene) (pipeline : Pipeline) : Bool :=
  match pipeline.phase with
  | .created => true
  | .running => pipeline.hasNewFetch || (pipeline.branch? scene).isSome
  | .ended => false

/-- The points in time that a pipeline waits for: the end of the fetch in flight and the next poll. -/
def timers (pipeline : Pipeline) : List Timer :=
  if pipeline.phase = .running then
    (match pipeline.inFlight with
      | some { number, stage := .due time _, .. } => [⟨.fetch number, time⟩]
      | _ => []) ++
    (pipeline.nextTick.map (Timer.mk .tick)).toList
  else []

end Pipeline

end ReviewChecks
