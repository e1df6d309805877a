import ReviewChecks.Proofs.Pipeline.Evaluations

/-! # Requests to reload

A pipeline handles requests to reload in steps of their own (`Pipeline.handlesReload`), all that it has not seen in one
step. Whether such a step evaluates the trigger depends on when one last did so, and no other step has a say in that
(`Turn.lastReload_step`). Its first step sees what was requested before without handling it.
-/

namespace ReviewChecks

namespace Pipeline

variable {scene : Scene} {pipeline : Pipeline} {branch : Branch}

/-- Asking the provider has nothing to do with whether a signal evaluates the trigger. -/
theorem fires_request (scene : Scene) (pipeline : Pipeline) (branch : Branch) :
    (pipeline.request scene).1.fires scene branch = pipeline.fires scene branch := by
  rw [request_eq]
  cases branch <;> rfl

/-- Nor has it to do with what is seen of one. -/
theorem looked_request (scene : Scene) (pipeline : Pipeline) (branch : Branch) :
    (pipeline.request scene).1.looked scene branch =
      { pipeline.looked scene branch with inFlight := (pipeline.request scene).1.inFlight } := by
  rw [request_eq]
  cases branch <;> rfl

/-- A step for a signal looks at it. -/
theorem step_of_signal (running : pipeline.phase = .running) (signal : branch.IsSignal)
    (ready : (pipeline.request scene).1.branch? scene = some branch) :
    branch.Pending scene pipeline ∧ (pipeline.step scene).evaluation?.isSome = pipeline.fires scene branch ∧
      ∃ inFlight, (pipeline.step scene).pipeline = { pipeline.looked scene branch with inFlight } := by
  have pending := pending_of_branch? ready
  have course := course_step scene pipeline
  rw [request_eq] at pending
  refine ⟨by cases branch <;> exact pending, ?_⟩
  generalize pipeline.step scene = step at course ⊢
  cases course with
  | rests ended => cases running.symm.trans ended
  | starts new => cases running.symm.trans new
  | cancels _ cancelled =>
    obtain rfl := Option.some.inj ((branch?_of_not_live cancelled).symm.trans ready)
    exact signal.elim
  | waits _ _ idle => cases idle.symm.trans ready
  | settles fetch outcome _ live held came =>
    obtain rfl := Option.some.inj ((branch?_of_outcome live held came).symm.trans ready)
    exact signal.elim
  | looks other _ _ _ given quiet =>
    obtain rfl := Option.some.inj (given.symm.trans ready)
    rw [evaluation?_after_request, ← fires_request, quiet]
    exact ⟨rfl, _, looked_request ..⟩
  | fires other _ _ _ given evaluates =>
    obtain rfl := Option.some.inj (given.symm.trans ready)
    rw [evaluation?_after_request, (fire_effects ..).1, ← fires_request, evaluates]
    refine ⟨rfl, (fire scene ((pipeline.request scene).1.looked scene other)).pipeline.inFlight, ?_⟩
    rw [PipelineStep.after, fire_pipeline, looked_request]

/-- Whether the next step of a pipeline handles requests to reload. -/
def handlesReload (scene : Scene) (pipeline : Pipeline) : Bool :=
  decide (pipeline.phase = .running ∧ (pipeline.request scene).1.branch? scene = some .reload)

/-- A reload is due if it comes late enough after the last one that had an effect. -/
theorem reloadDue_iff (past : ∀ last ∈ pipeline.lastReload, last ≤ scene.now) :
    pipeline.reloadDue scene = true ↔
      ∀ last ∈ pipeline.lastReload, last + scene.reloadThrottle ≤ scene.now := by
  unfold reloadDue
  cases known : pipeline.lastReload with
  | none => simp
  | some last =>
    have passed := past last known
    simp only [decide_eq_true_eq, Option.mem_some_iff, forall_eq']
    omega

/-- Whether there are requests to reload that a pipeline has not seen. -/
def hasUnseenReloads (scene : Scene) (pipeline : Pipeline) : Bool :=
  pipeline.seenReloads != scene.reloads

/-- A step that handles requests to reload sees them all, and evaluates the trigger if a reload is due. -/
theorem step_of_handlesReload (handles : pipeline.handlesReload scene = true) :
    pipeline.hasUnseenReloads scene = true ∧
      (pipeline.step scene).evaluation?.isSome = pipeline.reloadDue scene ∧
      (pipeline.step scene).pipeline.seenReloads = scene.reloads ∧
      (pipeline.step scene).pipeline.lastReload =
        if pipeline.reloadDue scene then some scene.now else pipeline.lastReload := by
  obtain ⟨running, ready⟩ := of_decide_eq_true handles
  have signal : Branch.reload.IsSignal := trivial
  obtain ⟨pending, evaluates, inFlight, looked⟩ := step_of_signal running signal ready
  rw [looked]
  exact ⟨bne_iff_ne.mpr pending.2, evaluates, rfl, rfl⟩

/-- The first step evaluates the trigger, and sees what was requested before without handling it. -/
theorem step_of_created (new : pipeline.phase = .created) :
    pipeline.handlesReload scene = false ∧ (pipeline.step scene).evaluation?.isSome = true ∧
      (pipeline.step scene).pipeline.seenReloads = scene.reloads ∧
      (pipeline.step scene).pipeline.lastReload = pipeline.lastReload := by
  have starts : pipeline.step scene = fire scene (pipeline.started scene) := by
    simp only [step, new]
    rfl
  rw [starts, (fire_effects ..).1, fire_pipeline]
  refine ⟨decide_eq_false ?_, rfl, rfl, rfl⟩
  rintro ⟨running, _⟩
  cases new.symm.trans running

/-- No other step sees a request to reload, or changes when a reload last had an effect. -/
theorem step_of_not_handlesReload (ran : pipeline.phase ≠ .created) (passes : pipeline.handlesReload scene = false) :
    (pipeline.step scene).pipeline.seenReloads = pipeline.seenReloads ∧
      (pipeline.step scene).pipeline.lastReload = pipeline.lastReload := by
  have other (running : pipeline.phase = .running) {branch : Branch} (signal : branch.IsSignal)
      (ready : (pipeline.request scene).1.branch? scene = some branch) :
      (pipeline.step scene).pipeline.seenReloads = pipeline.seenReloads ∧
        (pipeline.step scene).pipeline.lastReload = pipeline.lastReload := by
    obtain ⟨_, _, inFlight, looked⟩ := step_of_signal running signal ready
    rw [looked]
    cases branch with
    | reload => exact absurd ⟨running, ready⟩ (of_decide_eq_false passes)
    | cancelled | settled | changeNumber | latestPatchset | published | visibility | tick => exact ⟨rfl, rfl⟩
  have asked := request_eq scene pipeline
  have course := course_step scene pipeline
  generalize pipeline.step scene = step at course other ⊢
  cases course with
  | rests _ => exact ⟨rfl, rfl⟩
  | starts new => exact absurd new ran
  | cancels _ _ => exact ⟨rfl, rfl⟩
  | waits _ _ _ =>
    rw [PipelineStep.after, asked]
    exact ⟨rfl, rfl⟩
  | settles fetch outcome =>
    rw [PipelineStep.after, asked]
    cases outcome <;> exact ⟨rfl, rfl⟩
  | looks branch running _ signal ready _ => exact other running signal ready
  | fires branch running _ signal ready _ => exact other running signal ready

/-- Once a pipeline has run, a step handles requests to reload or leaves unseen what is unseen. -/
theorem handles_add_unseen_step (scene : Scene) (ran : pipeline.phase ≠ .created) :
    (pipeline.handlesReload scene).toNat + ((pipeline.step scene).pipeline.hasUnseenReloads scene).toNat =
      (pipeline.hasUnseenReloads scene).toNat := by
  unfold hasUnseenReloads
  cases handles : pipeline.handlesReload scene with
  | true =>
    obtain ⟨unseen, _, seen, _⟩ := step_of_handlesReload handles
    rw [hasUnseenReloads] at unseen
    rw [seen, unseen, bne_self_eq_false]
    rfl
  | false =>
    rw [(step_of_not_handlesReload ran handles).1]
    exact Nat.zero_add _

/-- A step does not take a pipeline back to where it had not run. -/
theorem phase_step_ne_created (scene : Scene) (pipeline : Pipeline) :
    (pipeline.step scene).pipeline.phase ≠ .created := by
  obtain ⟨base, notes, inFlight, phase, same, ends⟩ := notes_step scene pipeline
  rw [same]
  generalize (pipeline.step scene).evaluations = evaluations at notes
  generalize pipeline.polls scene = polls at notes
  have ran : base.phase ≠ .created := by
    cases notes with
    | nothing ran => exact ran
    | everything _ => exact Phase.noConfusion
    | signal branch running _ _ =>
      rw [looked_phase, running]
      exact Phase.noConfusion
  rcases ends with rfl | rfl
  · exact ran
  · exact Phase.noConfusion

end Pipeline

namespace Turn

/-- Whether the turn handles requests to reload. -/
def handlesReload (turn : Turn) : Bool :=
  turn.pipeline.handlesReload turn.scene

/-- Whether the turn evaluates the trigger. -/
def evaluates (turn : Turn) : Bool :=
  turn.step.evaluation?.isSome

/-- A reload last had an effect in the turn, if it handles one and evaluates the trigger, or else when it did before. -/
theorem lastReload_step (turn : Turn) :
    turn.step.pipeline.lastReload =
      if turn.handlesReload && turn.evaluates then some turn.scene.now else turn.pipeline.lastReload := by
  cases handles : turn.handlesReload with
  | true =>
    obtain ⟨_, evaluates, _, last⟩ := Pipeline.step_of_handlesReload handles
    have due : turn.evaluates = turn.pipeline.reloadDue turn.scene := evaluates
    rw [due, Bool.true_and]
    exact last
  | false =>
    by_cases new : turn.pipeline.phase = .created
    · exact (Pipeline.step_of_created new).2.2.2
    · exact (Pipeline.step_of_not_handlesReload new handles).2

/-- No more requests have been seen after the turn than there are, if that was so before. -/
theorem seenReloads_step_le (turn : Turn)
    (before : turn.pipeline.phase ≠ .created → turn.pipeline.seenReloads ≤ turn.scene.reloads) :
    turn.step.pipeline.seenReloads ≤ turn.scene.reloads := by
  by_cases new : turn.pipeline.phase = .created
  · exact Nat.le_of_eq (Pipeline.step_of_created new).2.2.1
  · cases handles : turn.handlesReload with
    | true => exact Nat.le_of_eq (Pipeline.step_of_handlesReload handles).2.2.1
    | false => exact Nat.le_trans (Nat.le_of_eq (Pipeline.step_of_not_handlesReload new handles).1) (before new)

end Turn

end ReviewChecks
