import Mathlib.Data.Bool.Basic
import ReviewChecks.Proofs.Pipeline.Turn

/-! # What makes a pipeline evaluate its trigger

A step takes note of nothing, of everything when it is the first one, or of one signal (`Pipeline.Notes`), and only what
it takes note of makes it evaluate the trigger. So a pipeline that runs owes an evaluation for each signal that it has
not looked at, and one for a patchset that it has not taken note of (`Pipeline.owed`). Every evaluation pays for one of
these or is the work of a tick, and no step adds to what is owed (`Pipeline.evaluations_add_owed_step`). Publications of
the store are not among what is owed for: looking at one evaluates the trigger only if the patchset has moved.
-/

namespace ReviewChecks

/-- How often a step evaluates its trigger. -/
def PipelineStep.evaluations (step : PipelineStep) : Nat :=
  step.effects.countP fun effect => effect.evaluation?.isSome

theorem PipelineStep.evaluations_of_evaluation?_eq_none {step : PipelineStep} (unevaluated : step.evaluation? = none) :
    step.evaluations = 0 := by
  refine List.countP_eq_zero.mpr fun effect member => ?_
  rw [List.findSome?_eq_none_iff.mp unevaluated effect member]
  exact Bool.false_ne_true

namespace Pipeline

theorem evaluations_fire (scene : Scene) (pipeline : Pipeline) : (fire scene pipeline).evaluations = 1 := by
  have dropped : pipeline.abandonment.countP (fun effect => effect.evaluation?.isSome) = 0 :=
    PipelineStep.evaluations_of_evaluation?_eq_none (take_cancelled scene pipeline).1
  unfold fire PipelineStep.evaluations
  dsimp only
  split
  · rfl
  · exact (List.countP_cons_of_pos rfl).trans (congrArg (· + 1) dropped)
  · exact (List.countP_cons_of_pos rfl).trans (congrArg (· + 1) dropped)

theorem evaluations_after_request (scene : Scene) (pipeline : Pipeline) (step : PipelineStep) :
    (step.after (pipeline.request scene).2).evaluations = step.evaluations := by
  have quiet := evaluation?_after_request scene pipeline { pipeline }
  rw [PipelineStep.after, List.append_nil] at quiet
  have asked : (pipeline.request scene).2.countP (fun effect => effect.evaluation?.isSome) = 0 :=
    PipelineStep.evaluations_of_evaluation?_eq_none quiet
  rw [PipelineStep.evaluations, PipelineStep.after, List.countP_append, asked, Nat.zero_add]
  rfl

variable {scene : Scene} {pipeline : Pipeline} {branch : Branch}

/-- What a branch that is ready tells of the signals. A publication is looked at when the latest patchset has been. -/
def Branch.Pending (scene : Scene) (pipeline : Pipeline) : Branch → Prop
  | .cancelled | .settled _ _ => True
  | .changeNumber => pipeline.seenChangeNumber ≠ scene.host.changeNumber.changes
  | .latestPatchset => pipeline.seenLatestPatchset ≠ scene.host.latestPatchset.changes
  | .published => pipeline.seenLatestPatchset = scene.host.latestPatchset.changes
  | .reload => scene.live = true ∧ pipeline.seenReloads ≠ scene.reloads
  | .visibility => pipeline.seenVisibility ≠ scene.host.visibility.changes
  | .tick => ∃ tick, pipeline.nextTick = some tick ∧ tick ≤ scene.now

theorem pending_of_branch? (ready : pipeline.branch? scene = some branch) : branch.Pending scene pipeline := by
  unfold branch? at ready
  split at ready
  next live =>
    split at ready
    next =>
      obtain rfl := Option.some.inj ready
      trivial
    next =>
      split_ifs at ready with number latest published reload visibility tick
      · obtain rfl := Option.some.inj ready
        exact number
      · obtain rfl := Option.some.inj ready
        exact latest
      · obtain rfl := Option.some.inj ready
        exact not_not.mp latest
      · obtain rfl := Option.some.inj ready
        exact ⟨live, reload⟩
      · obtain rfl := Option.some.inj ready
        exact visibility
      · obtain rfl := Option.some.inj ready
        obtain ⟨due, next, passed⟩ := (Option.any_eq_true ..).mp tick
        exact ⟨due, next, of_decide_eq_true passed⟩
  next =>
    obtain rfl := Option.some.inj ready
    trivial

theorem branch?_of_not_live (cancelled : scene.live = false) : pipeline.branch? scene = some .cancelled := by
  rw [branch?, cancelled]
  rfl

theorem branch?_of_outcome {fetch : Fetch} {outcome : Outcome} (live : scene.live = true)
    (held : pipeline.inFlight = some fetch) (came : fetch.outcome? scene.now = some outcome) :
    pipeline.branch? scene = some (.settled fetch.number outcome) := by
  have ended : pipeline.ended? scene = some (fetch.number, outcome) := by
    simp only [ended?, held, came, bind, Option.bind_some, pure]
  rw [branch?, if_pos live, ended]

/-- Whether the next step of a pipeline is the work of a tick. -/
def polls (scene : Scene) (pipeline : Pipeline) : Bool :=
  decide (pipeline.phase = .running ∧ (pipeline.request scene).1.branch? scene = some .tick)

theorem polls_of_not_running (idle : pipeline.phase ≠ .running) : pipeline.polls scene = false :=
  decide_eq_false fun polled => idle polled.1

theorem polls_of_branch? {ready : Option Branch} (running : pipeline.phase = .running)
    (given : (pipeline.request scene).1.branch? scene = ready) :
    pipeline.polls scene = decide (ready = some .tick) := by
  simp only [polls, running, given, true_and]

/-- What a pipeline remembers once a step has taken note of nothing, of everything, or of one signal, with how often it
has evaluated the trigger for that, and whether it was the work of a tick. -/
inductive Notes (scene : Scene) (pipeline : Pipeline) : Pipeline → Nat → Bool → Prop where
  | nothing : pipeline.phase ≠ .created → Notes scene pipeline pipeline 0 false
  | everything : pipeline.phase = .created → Notes scene pipeline (pipeline.started scene) 1 false
  | signal (branch : Branch) : pipeline.phase = .running → branch.IsSignal → branch.Pending scene pipeline →
      Notes scene pipeline (pipeline.looked scene branch) (pipeline.fires scene branch).toNat (branch = .tick)

/-- Asking the provider has nothing to do with what there is to take note of. -/
private theorem notes_of_branch? (running : pipeline.phase = .running) (signal : branch.IsSignal)
    (ready : (pipeline.request scene).1.branch? scene = some branch) :
    ∃ base : Pipeline, (pipeline.request scene).1.looked scene branch =
        { base with inFlight := (pipeline.request scene).1.inFlight } ∧ base.phase = .running ∧
      Notes scene pipeline base ((pipeline.request scene).1.fires scene branch).toNat (pipeline.polls scene) := by
  have tick : pipeline.polls scene = decide (branch = .tick) := by
    rw [polls_of_branch? running ready]
    exact decide_eq_decide.mpr (by rw [Option.some.injEq])
  have pending := pending_of_branch? ready
  rw [tick]
  rw [request_eq] at pending ⊢
  refine ⟨pipeline.looked scene branch, ?_, (looked_phase ..).trans running, ?_⟩
  · cases branch <;> rfl
  · have notes : Notes scene pipeline _ _ _ := .signal branch running signal (by cases branch <;> exact pending)
    cases branch <;> exact notes

/-- Besides what it takes note of, a step only moves the fetch in flight and may end the pipeline. -/
theorem notes_step (scene : Scene) (pipeline : Pipeline) :
    ∃ base : Pipeline, Notes scene pipeline base (pipeline.step scene).evaluations (pipeline.polls scene) ∧
      ∃ inFlight phase, (pipeline.step scene).pipeline = { base with inFlight, phase } ∧
        (phase = base.phase ∨ phase = .ended) := by
  obtain ⟨inFlight, asked⟩ : ∃ inFlight, (pipeline.request scene).1 = { pipeline with inFlight } :=
    ⟨_, request_eq scene pipeline⟩
  have course := course_step scene pipeline
  generalize pipeline.step scene = step at course ⊢
  cases course with
  | rests ended =>
    rw [polls_of_not_running (by simp [ended])]
    exact ⟨pipeline, .nothing (by simp [ended]), pipeline.inFlight, pipeline.phase, rfl, .inl rfl⟩
  | starts new =>
    rw [polls_of_not_running (by simp [new]), evaluations_fire]
    exact ⟨pipeline.started scene, .everything new, _, _, fire_pipeline .., .inl rfl⟩
  | cancels running cancelled =>
    rw [polls_of_branch? running (branch?_of_not_live cancelled),
      PipelineStep.evaluations_of_evaluation?_eq_none (take_cancelled scene pipeline).1]
    exact ⟨pipeline, .nothing (by simp [running]), none, .ended, rfl, .inr rfl⟩
  | waits running live idle =>
    rw [polls_of_branch? running idle, evaluations_after_request]
    exact ⟨pipeline, .nothing (by simp [running]), inFlight, pipeline.phase, asked, .inl rfl⟩
  | settles fetch outcome running live held came =>
    rw [polls_of_branch? running (branch?_of_outcome live held came), evaluations_after_request,
      PipelineStep.evaluations_of_evaluation?_eq_none (settle_effects ..).1]
    refine ⟨pipeline, .nothing (by simp [running]), none, ?_⟩
    rw [asked]
    cases outcome with
    | response response => exact ⟨pipeline.phase, rfl, .inl rfl⟩
    | failed failure => exact ⟨.ended, rfl, .inr rfl⟩
  | looks branch running _ signal ready quiet =>
    obtain ⟨base, same, phase, notes⟩ := notes_of_branch? running signal ready
    rw [quiet] at notes
    rw [evaluations_after_request]
    exact ⟨base, notes, _, base.phase, same, .inl rfl⟩
  | fires branch running _ signal ready evaluates =>
    obtain ⟨base, same, phase, notes⟩ := notes_of_branch? running signal ready
    rw [evaluates] at notes
    rw [evaluations_after_request, evaluations_fire]
    refine ⟨base, notes, (fire scene ((pipeline.request scene).1.looked scene branch)).pipeline.inFlight, base.phase,
      ?_, .inl rfl⟩
    rw [PipelineStep.after, fire_pipeline, same]

/-- The evaluations that a running pipeline owes: one for each signal that it has not looked at, and for the patchset
also while the one it remembers is not that of its context. -/
def debt (scene : Scene) (pipeline : Pipeline) : Nat :=
  (pipeline.seenChangeNumber != scene.host.changeNumber.changes).toNat +
    (pipeline.seenLatestPatchset != scene.host.latestPatchset.changes ||
      pipeline.patchset != scene.patchset? pipeline.key.context).toNat +
    (pipeline.seenVisibility != scene.host.visibility.changes).toNat +
    (scene.live && pipeline.seenReloads != scene.reloads).toNat

/-- The evaluations that a pipeline owes: the first one until it has run. -/
def owed (scene : Scene) (pipeline : Pipeline) : Nat :=
  match pipeline.phase with
  | .created => 1
  | .running => pipeline.debt scene
  | .ended => 0

theorem owed_of_running (running : pipeline.phase = .running) : pipeline.owed scene = pipeline.debt scene := by
  rw [owed, running]

/-- Nothing but the signals matters, and a pipeline that has ended owes nothing. -/
theorem owed_le_of_fields {base : Pipeline} {inFlight : Option Fetch} {phase : Phase}
    (same : pipeline = { base with inFlight, phase }) (ends : phase = base.phase ∨ phase = .ended) :
    pipeline.owed scene ≤ base.owed scene := by
  subst same
  rcases ends with rfl | rfl
  · exact Nat.le_refl _
  · exact Nat.zero_le _

theorem debt_started : (pipeline.started scene).debt scene = 0 := by
  simp only [debt, started, bne_self_eq_false, Bool.or_self, Bool.and_false, Bool.toNat_false]

/-- Looking at a publication evaluates the trigger if the patchset has moved. -/
theorem fires_published :
    pipeline.fires scene .published = (pipeline.patchset != scene.patchset? pipeline.key.context) := by
  rw [Bool.eq_iff_iff, bne_iff_ne, ne_comm]
  exact decide_eq_true_iff

/-- Looking at a signal pays for the evaluation that it asks for, and a tick need not be paid for. -/
theorem fires_add_debt_looked (pending : branch.Pending scene pipeline) (signal : branch.IsSignal) :
    (pipeline.fires scene branch).toNat + (pipeline.looked scene branch).debt scene ≤
      pipeline.debt scene + (decide (branch = .tick)).toNat := by
  have once := Bool.toNat_le (pipeline.fires scene branch)
  cases branch with
  | cancelled | settled => exact signal.elim
  | changeNumber =>
    simp only [debt, looked, bne_self_eq_false, bne_iff_ne.mpr pending, Bool.toNat_false, Bool.toNat_true]
    omega
  | latestPatchset =>
    simp only [debt, looked, bne_self_eq_false, bne_iff_ne.mpr pending, Bool.or_self, Bool.true_or, Bool.toNat_false,
      Bool.toNat_true]
    omega
  | published =>
    -- the latest patchset has been looked at, so that only a patchset that has moved is owed for
    have current : (pipeline.seenLatestPatchset != scene.host.latestPatchset.changes) = false :=
      bne_eq_false_iff_eq.mpr pending
    simp only [debt, looked, current, fires_published, bne_self_eq_false, Bool.or_self, Bool.false_or, Bool.toNat_false]
    omega
  | reload =>
    simp only [debt, looked, pending.1, bne_self_eq_false, bne_iff_ne.mpr pending.2, Bool.and_false, Bool.and_self,
      Bool.toNat_false, Bool.toNat_true]
    omega
  | visibility =>
    simp only [debt, looked, bne_self_eq_false, bne_iff_ne.mpr pending, Bool.toNat_false, Bool.toNat_true]
    omega
  | tick =>
    simp only [debt, looked, fires, decide_true, Bool.toNat_true]
    omega

/-- A step evaluates the trigger no more often than is owed, unless a tick asks for it, and what has been paid is no
longer owed. -/
theorem evaluations_add_owed_step (scene : Scene) (pipeline : Pipeline) :
    (pipeline.step scene).evaluations + (pipeline.step scene).pipeline.owed scene ≤
      pipeline.owed scene + (pipeline.polls scene).toNat := by
  obtain ⟨base, notes, inFlight, phase, same, ends⟩ := notes_step scene pipeline
  refine Nat.le_trans (Nat.add_le_add_left (owed_le_of_fields same ends) _) ?_
  generalize (pipeline.step scene).evaluations = evaluations at notes ⊢
  generalize pipeline.polls scene = polls at notes ⊢
  cases notes with
  | nothing => exact Nat.le_of_eq (Nat.zero_add _)
  | everything new =>
    have nothing : (pipeline.started scene).owed scene = 0 := (owed_of_running rfl).trans debt_started
    rw [nothing, owed, new]
    exact Nat.le_refl _
  | signal branch running signal pending =>
    rw [owed_of_running ((looked_phase ..).trans running), owed_of_running running]
    exact fires_add_debt_looked pending signal

end Pipeline

end ReviewChecks
