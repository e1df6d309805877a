import ReviewChecks.Proofs.Pipeline.Evaluations

/-! # What a pipeline asks its provider for

A fetch is handed to the provider once, in the step after the one that created it
(`Pipeline.requests_add_hasNewFetch_step`). So a pipeline asks its provider no more often than it evaluates its trigger.
What it still has to evaluate the trigger for, when nothing else happens, can be read off what it has seen and what it
remembers (`Pipeline.unmet`): other than in what it owes, a patchset signal only counts here if the patchset of the
context is not the remembered one.
-/

namespace ReviewChecks

/-- Whether a fetch was handed to a provider. -/
def Effect.isRequest : Effect → Bool
  | .requested .. => true
  | .evaluated .. | .abandoned .. | .settled .. | .reported _ | .invoked _ | .noticed _ => false

/-- How often a step asks the provider. -/
def PipelineStep.requests (step : PipelineStep) : Nat :=
  step.effects.countP Effect.isRequest

namespace Pipeline

variable {scene : Scene} {pipeline : Pipeline}

theorem hasNewFetch_of_inFlight_eq_none (nothing : pipeline.inFlight = none) : pipeline.hasNewFetch = false := by
  rw [hasNewFetch, nothing]
  rfl

/-- The provider is asked for a new fetch, which is not new any more then. -/
theorem request_hasNewFetch (scene : Scene) (pipeline : Pipeline) :
    (pipeline.request scene).2.countP Effect.isRequest = pipeline.hasNewFetch.toNat ∧
      (pipeline.request scene).1.hasNewFetch = false := by
  unfold request hasNewFetch
  cases held : pipeline.inFlight with
  | none => simp [held]
  | some fetch =>
    by_cases new : fetch.stage = .created
    · simp only [new, ↓reduceIte, Option.any_some, decide_true, Bool.toNat_true]
      refine ⟨rfl, ?_⟩
      cases pipeline.provider pipeline.key.context (scene.calls pipeline.key) fetch.request <;> rfl
    · simp [new, held]

theorem requests_after_request (scene : Scene) (pipeline : Pipeline) (step : PipelineStep) :
    (step.after (pipeline.request scene).2).requests = pipeline.hasNewFetch.toNat + step.requests := by
  rw [PipelineStep.requests, PipelineStep.after, List.countP_append, (request_hasNewFetch scene pipeline).1]
  rfl

/-- An evaluation of the trigger asks for nothing yet: it leaves a new fetch behind if it creates one. -/
theorem fire_hasNewFetch (scene : Scene) (pipeline : Pipeline) :
    (fire scene pipeline).requests = 0 ∧
      (fire scene pipeline).pipeline.hasNewFetch.toNat ≤
        pipeline.hasNewFetch.toNat + (fire scene pipeline).created := by
  constructor
  · refine List.countP_eq_zero.mpr fun effect member => ?_
    rcases of_mem_effects_fire member with ⟨_, _, rfl⟩ | ⟨_, rfl⟩ <;> exact Bool.false_ne_true
  · unfold fire
    dsimp only
    split
    · exact Nat.le_refl _
    · exact Nat.zero_le _
    · exact Nat.le_add_left ..

theorem requests_settle (pipeline : Pipeline) (fetch : Nat) (outcome : Outcome) :
    (pipeline.settle fetch outcome).requests = 0 := by
  refine List.countP_eq_zero.mpr fun effect member => ?_
  rcases of_mem_effects_settle member with rfl | ⟨_, rfl⟩ <;> exact Bool.false_ne_true

/-- Whatever a step asks the provider for was new before it, and what is new after it was new before or is created in
the step. -/
theorem requests_add_hasNewFetch_step (scene : Scene) (pipeline : Pipeline) :
    (pipeline.step scene).requests + (pipeline.step scene).pipeline.hasNewFetch.toNat ≤
      pipeline.hasNewFetch.toNat + (pipeline.step scene).created := by
  have old := (request_hasNewFetch scene pipeline).2
  have course := pipeline.course_step scene
  generalize pipeline.step scene = step at course
  cases course with
  | rests _ => exact Nat.le_of_eq (Nat.zero_add _)
  | starts _ =>
    obtain ⟨silent, new⟩ := fire_hasNewFetch scene (pipeline.started scene)
    rw [silent, Nat.zero_add]
    exact new
  | cancels _ _ =>
    have silent : (pipeline.take scene .cancelled).requests = 0 := by
      refine List.countP_eq_zero.mpr fun effect member => ?_
      obtain ⟨_, rfl⟩ := exists_of_mem_abandonment member
      exact Bool.false_ne_true
    rw [silent]
    exact Nat.zero_le _
  | waits _ _ _ =>
    rw [requests_after_request]
    simp only [PipelineStep.after, old]
    exact Nat.le_refl _
  | settles fetch outcome =>
    rw [requests_after_request, requests_settle]
    simp only [PipelineStep.after, hasNewFetch_of_inFlight_eq_none (settle_effects ..).2.2.1]
    exact Nat.le_add_right ..
  | looks branch =>
    have kept : ((pipeline.request scene).1.looked scene branch).hasNewFetch = false := by
      rw [hasNewFetch, looked_inFlight]
      exact old
    rw [requests_after_request]
    simp only [PipelineStep.after, kept]
    exact Nat.le_refl _
  | fires branch =>
    have kept : ((pipeline.request scene).1.looked scene branch).hasNewFetch = false := by
      rw [hasNewFetch, looked_inFlight]
      exact old
    obtain ⟨silent, new⟩ := fire_hasNewFetch scene ((pipeline.request scene).1.looked scene branch)
    rw [kept, Bool.toNat_false, Nat.zero_add] at new
    rw [requests_after_request, silent]
    exact Nat.add_le_add_left new _

/-- A step creates a fetch only by an evaluation of the trigger. -/
theorem created_le_evaluations_step (scene : Scene) (pipeline : Pipeline) :
    (pipeline.step scene).created ≤ (pipeline.step scene).evaluations := by
  have one : ∀ looked, (fire scene looked).created ≤ 1 := by
    intro looked
    unfold fire
    dsimp only
    split
    · exact Nat.zero_le _
    · exact Nat.zero_le _
    · exact Nat.le_refl _
  have course := pipeline.course_step scene
  generalize pipeline.step scene = step at course
  cases course with
  | rests _ | cancels _ _ | waits _ _ _ | looks _ => exact Nat.zero_le _
  | settles fetch outcome =>
    refine Nat.le_trans (Nat.le_of_eq ?_) (Nat.zero_le _)
    exact (settle_effects ..).2.2.2
  | starts _ =>
    rw [evaluations_fire]
    exact one _
  | fires branch =>
    rw [evaluations_after_request, evaluations_fire]
    exact one _

/-- Without anything to ask for, a step creates no fetch. -/
theorem created_step_eq_zero (nothing : ∀ request, scene.trigger pipeline.key.context ≠ .fetch request) :
    (pipeline.step scene).created = 0 := by
  have uncreated : Turn.created? ⟨scene, pipeline⟩ = none := by
    refine Option.eq_none_iff_forall_ne_some.mpr fun number created => ?_
    obtain ⟨_, ⟨request, comes⟩, _⟩ := Turn.created?_eq_some_iff.mp created
    exact nothing request comes
  by_contra creates
  have created : Turn.created? ⟨scene, pipeline⟩ = some scene.nextFetch := if_neg creates
  cases uncreated.symm.trans created

/-- How often a pipeline that has run evaluates its trigger if nothing else happens: once for each signal but that of
the patchset and the publications, which have it do so if the context resolves to another patchset than the remembered
one. -/
def unmet (scene : Scene) (pipeline : Pipeline) : Nat :=
  (pipeline.seenChangeNumber != scene.host.changeNumber.changes).toNat +
    (pipeline.patchset != scene.patchset? pipeline.key.context).toNat +
    (pipeline.seenVisibility != scene.host.visibility.changes).toNat +
    (scene.live && pipeline.seenReloads != scene.reloads).toNat

/-- What is unmet is read off the signals, the patchset and the requests to reload. -/
theorem unmet_congr {later : Scene} (host : later.host = scene.host)
    (patchset : later.patchset? pipeline.key.context = scene.patchset? pipeline.key.context)
    (live : later.live = scene.live) (reloads : later.reloads = scene.reloads) :
    pipeline.unmet later = pipeline.unmet scene := by
  simp only [unmet, host, patchset, live, reloads]

/-- Looking at a signal meets what it evaluates the trigger for, and a tick need not be unmet. -/
theorem fires_add_unmet_looked {branch : Branch} (pending : branch.Pending scene pipeline) (signal : branch.IsSignal) :
    (pipeline.fires scene branch).toNat + (pipeline.looked scene branch).unmet scene ≤
      pipeline.unmet scene + (decide (branch = .tick)).toNat := by
  have once := Bool.toNat_le (pipeline.fires scene branch)
  cases branch with
  | cancelled | settled => exact signal.elim
  | changeNumber =>
    simp only [unmet, looked, bne_self_eq_false, bne_iff_ne.mpr pending, Bool.toNat_false, Bool.toNat_true]
    omega
  | latestPatchset | published =>
    change (pipeline.fires scene .published).toNat + _ ≤ _
    simp only [unmet, looked, fires_published, bne_self_eq_false, Bool.toNat_false]
    omega
  | reload =>
    simp only [unmet, looked, pending.1, bne_self_eq_false, bne_iff_ne.mpr pending.2, Bool.and_false, Bool.and_self,
      Bool.toNat_false, Bool.toNat_true]
    omega
  | visibility =>
    simp only [unmet, looked, bne_self_eq_false, bne_iff_ne.mpr pending, Bool.toNat_false, Bool.toNat_true]
    omega
  | tick =>
    simp only [unmet, looked, fires, decide_true, Bool.toNat_true]
    omega

/-- A pipeline that has run evaluates its trigger in a step no more often than is unmet, unless a tick asks for it, and
what remains is unmet afterwards. -/
theorem evaluations_add_unmet_step (scene : Scene) (ran : pipeline.phase ≠ .created) :
    (pipeline.step scene).evaluations + (pipeline.step scene).pipeline.unmet scene ≤
      pipeline.unmet scene + (pipeline.polls scene).toNat := by
  obtain ⟨base, notes, inFlight, phase, same, _⟩ := notes_step scene pipeline
  have kept : (pipeline.step scene).pipeline.unmet scene = base.unmet scene := by rw [same]; rfl
  rw [kept]
  generalize (pipeline.step scene).evaluations = evaluations at notes ⊢
  generalize pipeline.polls scene = polls at notes ⊢
  cases notes with
  | nothing => exact Nat.le_of_eq (Nat.zero_add _)
  | everything new => exact absurd new ran
  | signal branch running signal pending => exact fires_add_unmet_looked pending signal

/-- What a pipeline asks its provider for if nothing else happens, at most: the new fetch, if there is one, and one for
each further evaluation of the trigger. -/
def demand (scene : Scene) (pipeline : Pipeline) : Nat :=
  pipeline.hasNewFetch.toNat + pipeline.unmet scene

theorem requests_add_demand_step (scene : Scene) (ran : pipeline.phase ≠ .created) :
    (pipeline.step scene).requests + (pipeline.step scene).pipeline.demand scene ≤
      pipeline.demand scene + (pipeline.polls scene).toNat := by
  have asked := requests_add_hasNewFetch_step scene pipeline
  have created := created_le_evaluations_step scene pipeline
  have evaluated := evaluations_add_unmet_step scene ran
  unfold demand
  omega

/-- A pipeline whose next tick is not due does not work on one, and goes on to wait for the same tick. -/
theorem nextTick_step (ran : pipeline.phase ≠ .created) (ahead : pipeline.nextTick.any (· ≤ scene.now) = false) :
    pipeline.polls scene = false ∧ (pipeline.step scene).pipeline.nextTick = pipeline.nextTick ∧
      (pipeline.step scene).pipeline.phase ≠ .created := by
  obtain ⟨base, notes, inFlight, phase, same, ends⟩ := notes_step scene pipeline
  have running : base.phase ≠ .created → phase ≠ .created := by
    rcases ends with rfl | rfl
    · exact id
    · exact fun _ => Phase.noConfusion
  rw [same]
  generalize (pipeline.step scene).evaluations = evaluations at notes
  generalize pipeline.polls scene = polls at notes ⊢
  cases notes with
  | nothing => exact ⟨rfl, rfl, running ran⟩
  | everything new => exact absurd new ran
  | signal branch goes signal pending =>
    have still := running (by rw [looked_phase]; exact ran)
    cases branch with
    | tick =>
      obtain ⟨tick, next, due⟩ := pending
      rw [next, Option.any_some, decide_eq_false_iff_not] at ahead
      exact absurd due ahead
    | cancelled | settled | changeNumber | latestPatchset | published | reload | visibility =>
      exact ⟨rfl, rfl, still⟩

end Pipeline

end ReviewChecks
