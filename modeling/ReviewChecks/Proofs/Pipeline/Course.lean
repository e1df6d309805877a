import Mathlib.Tactic.SplitIfs
import ReviewChecks.Pipeline

/-! # The courses of a pipeline's step

A step either rests, starts, is cancelled, waits, settles the fetch in flight, or looks at one signal. A look may
evaluate the trigger. `Pipeline.Course` lists these courses with their guards, and `Pipeline.course_step` says that
every step takes one of them: what a step can do is read off here, and the definition of a step is not opened again.
Asking the provider, which may come before the rest of a step, only moves the stage of the fetch in flight.
-/

namespace ReviewChecks

/-- A step that comes after some effects. -/
def PipelineStep.after (effects : List Effect) (step : PipelineStep) : PipelineStep :=
  { step with effects := effects ++ step.effects }

/-- What tells a fetch from others: everything but how far it has come. -/
def Fetch.ticket (fetch : Fetch) : Nat × FetchRequest :=
  (fetch.number, fetch.request)

namespace Pipeline

/-- The pipeline once everything that was signalled so far counts as seen. -/
def started (scene : Scene) (pipeline : Pipeline) : Pipeline :=
  { pipeline with
    phase := .running
    seenChangeNumber := scene.host.changeNumber.changes
    seenLatestPatchset := scene.host.latestPatchset.changes
    seenPublished := scene.store.published
    seenReloads := scene.reloads
    seenVisibility := scene.host.visibility.changes
    nextTick := pipeline.period.map (scene.now + ·)
    patchset := scene.patchset? pipeline.key.context }

/-- The pipeline once it has looked at the signal of a branch. -/
def looked (scene : Scene) (pipeline : Pipeline) : Branch → Pipeline
  | .cancelled | .settled _ _ => pipeline
  | .changeNumber => { pipeline with seenChangeNumber := scene.host.changeNumber.changes }
  | .latestPatchset =>
    { pipeline with
      seenLatestPatchset := scene.host.latestPatchset.changes
      patchset := scene.patchset? pipeline.key.context }
  | .published =>
    { pipeline with
      seenPublished := scene.store.published
      patchset := scene.patchset? pipeline.key.context }
  | .reload =>
    { pipeline with
      seenReloads := scene.reloads
      lastReload := if pipeline.reloadDue scene then some scene.now else pipeline.lastReload }
  | .visibility => { pipeline with seenVisibility := scene.host.visibility.changes }
  | .tick =>
    { pipeline with
      nextTick := do
        let tick ← pipeline.nextTick
        let period ← pipeline.period
        return tickAfter scene.now tick period }

@[simp] theorem looked_key (scene : Scene) (pipeline : Pipeline) (branch : Branch) :
    (pipeline.looked scene branch).key = pipeline.key := by
  cases branch <;> rfl

@[simp] theorem looked_phase (scene : Scene) (pipeline : Pipeline) (branch : Branch) :
    (pipeline.looked scene branch).phase = pipeline.phase := by
  cases branch <;> rfl

@[simp] theorem looked_inFlight (scene : Scene) (pipeline : Pipeline) (branch : Branch) :
    (pipeline.looked scene branch).inFlight = pipeline.inFlight := by
  cases branch <;> rfl

/-- Whether looking at the signal of a branch evaluates the trigger. -/
def fires (scene : Scene) (pipeline : Pipeline) : Branch → Bool
  | .cancelled | .settled _ _ => false
  | .changeNumber | .visibility | .tick => true
  | .latestPatchset | .published => decide (scene.patchset? pipeline.key.context ≠ pipeline.patchset)
  | .reload => pipeline.reloadDue scene

/-- A branch that is about a signal or a tick. -/
def Branch.IsSignal : Branch → Prop
  | .cancelled | .settled _ _ => False
  | .changeNumber | .latestPatchset | .published | .reload | .visibility | .tick => True

private theorem fireIfMoved_eq (scene : Scene) (pipeline : Pipeline) :
    fireIfMoved scene pipeline =
      if scene.patchset? pipeline.key.context ≠ pipeline.patchset then
        fire scene { pipeline with patchset := scene.patchset? pipeline.key.context }
      else { pipeline := { pipeline with patchset := scene.patchset? pipeline.key.context } } := by
  by_cases same : scene.patchset? pipeline.key.context = pipeline.patchset
  · simp only [fireIfMoved, same, ↓reduceIte, ne_eq, not_true_eq_false]
  · simp only [fireIfMoved, same, ↓reduceIte, ne_eq, not_false_eq_true]

/-- Acting on a signal is looking at it, with the trigger evaluated or not. -/
theorem take_signal (scene : Scene) (pipeline : Pipeline) {branch : Branch} (signal : branch.IsSignal) :
    pipeline.take scene branch =
      if pipeline.fires scene branch then fire scene (pipeline.looked scene branch)
      else { pipeline := pipeline.looked scene branch } := by
  cases branch with
  | cancelled => exact signal.elim
  | settled fetch outcome => exact signal.elim
  | changeNumber => rfl
  | latestPatchset => simp only [take, fireIfMoved_eq, fires, decide_eq_true_eq, looked]
  | published => simp only [take, fireIfMoved_eq, fires, decide_eq_true_eq, looked]
  | reload =>
    by_cases due : pipeline.reloadDue scene = true
    · simp only [take, fires, looked, due, ↓reduceIte]
    · simp only [take, fires, looked, due, Bool.false_eq_true, ↓reduceIte]
  | visibility => rfl
  | tick => rfl

/-- Asking the provider changes nothing but the stage of the fetch in flight. -/
theorem request_eq (scene : Scene) (pipeline : Pipeline) :
    (pipeline.request scene).1 = { pipeline with inFlight := (pipeline.request scene).1.inFlight } := by
  unfold request
  split
  · split <;> rfl
  · rfl

theorem request_ticket (scene : Scene) (pipeline : Pipeline) :
    (pipeline.request scene).1.inFlight.map Fetch.ticket = pipeline.inFlight.map Fetch.ticket := by
  unfold request
  split
  next fetch held =>
    split
    · simp only [held, Option.map_some, Fetch.ticket]
    · rfl
  next => rfl

/-- The courses that a step can take. -/
inductive Course (scene : Scene) (pipeline : Pipeline) : PipelineStep → Prop where
  | rests : pipeline.phase = .ended → Course scene pipeline { pipeline }
  | starts : pipeline.phase = .created → Course scene pipeline (fire scene (pipeline.started scene))
  | cancels : pipeline.phase = .running → scene.live = false →
      Course scene pipeline (pipeline.take scene .cancelled)
  | waits : pipeline.phase = .running → scene.live = true → (pipeline.request scene).1.branch? scene = none →
      Course scene pipeline
        (.after (pipeline.request scene).2 { pipeline := (pipeline.request scene).1 })
  | settles (fetch : Fetch) (outcome : Outcome) : pipeline.phase = .running → scene.live = true →
      (pipeline.request scene).1.inFlight = some fetch → fetch.outcome? scene.now = some outcome →
      Course scene pipeline
        (.after (pipeline.request scene).2 ((pipeline.request scene).1.settle fetch.number outcome))
  | looks (branch : Branch) : pipeline.phase = .running → scene.live = true → branch.IsSignal →
      (pipeline.request scene).1.branch? scene = some branch →
      (pipeline.request scene).1.fires scene branch = false →
      Course scene pipeline
        (.after (pipeline.request scene).2 { pipeline := (pipeline.request scene).1.looked scene branch })
  | fires (branch : Branch) : pipeline.phase = .running → scene.live = true → branch.IsSignal →
      (pipeline.request scene).1.branch? scene = some branch →
      (pipeline.request scene).1.fires scene branch = true →
      Course scene pipeline
        (.after (pipeline.request scene).2 (fire scene ((pipeline.request scene).1.looked scene branch)))

/-- The branch of a settled fetch is that of the fetch in flight. -/
theorem branch?_settled {scene : Scene} {pipeline : Pipeline} {number : Nat} {outcome : Outcome}
    (ready : pipeline.branch? scene = some (.settled number outcome)) :
    ∃ fetch, pipeline.inFlight = some fetch ∧ fetch.outcome? scene.now = some outcome ∧ fetch.number = number := by
  unfold branch? at ready
  split at ready
  · split at ready
    next found ended =>
      obtain ⟨rfl, rfl⟩ := by simpa only [Option.some.injEq, Branch.settled.injEq] using ready
      simp only [ended?, bind, Option.bind_eq_some_iff, pure, Option.some.injEq, Prod.mk.injEq] at ended
      obtain ⟨fetch, held, result, came, same, rfl⟩ := ended
      exact ⟨fetch, held, came, same⟩
    next => split_ifs at ready <;> cases ready
  · cases ready

theorem branch?_ne_cancelled {scene : Scene} {pipeline : Pipeline} (live : scene.live = true) :
    pipeline.branch? scene ≠ some .cancelled := by
  unfold branch?
  rw [if_pos live]
  split
  · simp
  · split_ifs <;> simp

private theorem course_signal {scene : Scene} {pipeline : Pipeline} {branch : Branch}
    (running : pipeline.phase = .running) (live : scene.live = true) (signal : branch.IsSignal)
    (ready : (pipeline.request scene).1.branch? scene = some branch) :
    Course scene pipeline
      (.after (pipeline.request scene).2 ((pipeline.request scene).1.take scene branch)) := by
  rw [take_signal scene _ signal]
  split
  next evaluates => exact .fires branch running live signal ready evaluates
  next silent => exact .looks branch running live signal ready (Bool.eq_false_iff.mpr silent)

/-- Every step takes one of the courses. -/
theorem course_step (scene : Scene) (pipeline : Pipeline) : Course scene pipeline (pipeline.step scene) := by
  cases phase : pipeline.phase with
  | created =>
    simp only [step, phase]
    exact .starts phase
  | ended =>
    simp only [step, phase]
    exact .rests phase
  | running =>
    simp only [step, phase, iterate]
    by_cases live : scene.live = true
    · rw [if_pos live]
      split
      next branch ready =>
        cases branch with
        | cancelled => exact (branch?_ne_cancelled live ready).elim
        | settled number outcome =>
          obtain ⟨fetch, held, came, rfl⟩ := branch?_settled ready
          exact .settles fetch outcome phase live held came
        | changeNumber | latestPatchset | published | reload | visibility | tick =>
          exact course_signal phase live trivial ready
      next idle =>
        have waits : Course scene pipeline _ := .waits phase live idle
        simpa only [PipelineStep.after, List.append_nil] using waits
    · rw [if_neg live]
      exact .cancels phase (Bool.eq_false_iff.mpr live)

end Pipeline

end ReviewChecks
