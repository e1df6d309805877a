import ReviewChecks.Proofs.Pipeline.Course

/-! # Turns

A turn is a step that a pipeline took: what it saw and how it stood before. What can be told of a turn from outside is
the evaluation of the trigger, the fetch that was created, the outcome that was settled, the reports, and what was
written. A turn that settles an outcome does what the outcome asks for and evaluates nothing; any other turn writes
what its trigger asks for, reports nothing and ends the pipeline only when it is cancelled. The fetch in flight after
a turn is the one just created, or the one before unless the turn displaces it (`Turn.holds_step`).
-/

namespace ReviewChecks

namespace Effect

/-- The change number and the patchset that a trigger was evaluated with. -/
def evaluation? : Effect → Option (Option UInt64 × Option UInt32)
  | .evaluated _ changeNumber patchset => some (changeNumber, patchset)
  | _ => none

/-- The fetch whose outcome was handled, with that outcome. -/
def settled? : Effect → Option (Nat × Outcome)
  | .settled _ fetch outcome => some (fetch, outcome)
  | _ => none

/-- The report that was made. -/
def report? : Effect → Option Report
  | .reported report => some report
  | _ => none

end Effect

namespace PipelineStep

/-- The change number and the patchset that a step evaluated its trigger with. -/
def evaluation? (step : PipelineStep) : Option (Option UInt64 × Option UInt32) :=
  step.effects.findSome? Effect.evaluation?

/-- The fetch whose outcome a step handled, with that outcome. -/
def settled? (step : PipelineStep) : Option (Nat × Outcome) :=
  step.effects.findSome? Effect.settled?

/-- The reports of a step. -/
def reports (step : PipelineStep) : List Report :=
  step.effects.filterMap Effect.report?

end PipelineStep

/-- What a trigger writes by itself. -/
def Trigger.writes (key : PipelineKey) : Trigger → List Mutation
  | .suppressed => []
  | .gap => [.load key.plugin key.context [] [] []]
  | .fetch _ => [.startLoading key.plugin key.context]

namespace Pipeline

/-- The fetch in flight is the one of a ticket. -/
def Holds (pipeline : Pipeline) (ticket : Nat × FetchRequest) : Prop :=
  pipeline.inFlight.map Fetch.ticket = some ticket

theorem holds_iff {pipeline : Pipeline} {number : Nat} {request : FetchRequest} :
    pipeline.Holds (number, request) ↔
      ∃ fetch, pipeline.inFlight = some fetch ∧ fetch.number = number ∧ fetch.request = request := by
  simp only [Holds, Fetch.ticket, Option.map_eq_some_iff, Prod.mk.injEq]

/-- Dropping the fetch in flight has no effect but to say so. -/
theorem exists_of_mem_abandonment {pipeline : Pipeline} {effect : Effect} (member : effect ∈ pipeline.abandonment) :
    ∃ number, effect = .abandoned pipeline.key number := by
  unfold abandonment at member
  split at member
  · split at member
    · exact ⟨_, List.mem_singleton.mp member⟩
    · cases member
  · cases member

/-- The effects of an evaluation of the trigger are that evaluation and the loss of the fetch in flight. -/
theorem of_mem_effects_fire {scene : Scene} {pipeline : Pipeline} {effect : Effect}
    (member : effect ∈ (fire scene pipeline).effects) :
    (∃ changeNumber patchset, effect = .evaluated pipeline.key changeNumber patchset) ∨
      ∃ number, effect = .abandoned pipeline.key number := by
  unfold fire at member
  dsimp only at member
  split at member
  · exact .inl ⟨_, _, List.mem_singleton.mp member⟩
  all_goals
    rcases List.mem_cons.mp member with same | member
    · exact .inl ⟨_, _, same⟩
    · exact .inr (exists_of_mem_abandonment member)

/-- The effects of an outcome are that it is settled and the reports of it. -/
theorem of_mem_effects_settle {pipeline : Pipeline} {number : Nat} {outcome : Outcome} {effect : Effect}
    (member : effect ∈ (pipeline.settle number outcome).effects) :
    effect = .settled pipeline.key number outcome ∨ ∃ report, effect = .reported report := by
  cases outcome with
  | failed failure =>
    simp only [settle, List.mem_cons, List.not_mem_nil, or_false] at member
    rcases member with same | same | same
    · exact .inl same
    · exact .inr ⟨_, same⟩
    · exact .inr ⟨_, same⟩
  | response response =>
    cases response with
    | ok => exact .inl (List.mem_singleton.mp member)
    | error | notLoggedIn =>
      simp only [settle, land, List.mem_cons, List.not_mem_nil, or_false] at member
      exact member.imp_right fun same => ⟨_, same⟩

private theorem request_effects (scene : Scene) (pipeline : Pipeline) :
    (pipeline.request scene).2.findSome? Effect.evaluation? = none ∧
    (pipeline.request scene).2.findSome? Effect.settled? = none ∧
    (pipeline.request scene).2.filterMap Effect.report? = [] := by
  unfold request
  split
  · split <;> exact ⟨rfl, rfl, rfl⟩
  · exact ⟨rfl, rfl, rfl⟩

private theorem abandonment_effects (pipeline : Pipeline) :
    pipeline.abandonment.findSome? Effect.evaluation? = none ∧
    pipeline.abandonment.findSome? Effect.settled? = none ∧
    pipeline.abandonment.filterMap Effect.report? = [] := by
  unfold abandonment
  split
  · split <;> exact ⟨rfl, rfl, rfl⟩
  · exact ⟨rfl, rfl, rfl⟩

@[simp] theorem evaluation?_after_request (scene : Scene) (pipeline : Pipeline) (step : PipelineStep) :
    (step.after (pipeline.request scene).2).evaluation? = step.evaluation? := by
  simp only [PipelineStep.evaluation?, PipelineStep.after, List.findSome?_append, (request_effects scene pipeline).1,
    Option.none_or]

@[simp] theorem settled?_after_request (scene : Scene) (pipeline : Pipeline) (step : PipelineStep) :
    (step.after (pipeline.request scene).2).settled? = step.settled? := by
  simp only [PipelineStep.settled?, PipelineStep.after, List.findSome?_append, (request_effects scene pipeline).2.1,
    Option.none_or]

@[simp] theorem reports_after_request (scene : Scene) (pipeline : Pipeline) (step : PipelineStep) :
    (step.after (pipeline.request scene).2).reports = step.reports := by
  simp only [PipelineStep.reports, PipelineStep.after, List.filterMap_append, (request_effects scene pipeline).2.2,
    List.nil_append]

/-- A cancelled pipeline ends without a word. -/
theorem take_cancelled (scene : Scene) (pipeline : Pipeline) :
    (pipeline.take scene .cancelled).evaluation? = none ∧ (pipeline.take scene .cancelled).settled? = none ∧
      (pipeline.take scene .cancelled).reports = [] :=
  abandonment_effects pipeline

/-- Evaluating the trigger changes nothing of a pipeline but the fetch in flight. -/
theorem fire_pipeline (scene : Scene) (pipeline : Pipeline) :
    (fire scene pipeline).pipeline = { pipeline with inFlight := (fire scene pipeline).pipeline.inFlight } := by
  unfold fire
  dsimp only
  split <;> rfl

theorem fire_writes (scene : Scene) (pipeline : Pipeline) :
    (fire scene pipeline).writes = (scene.trigger pipeline.key.context).writes pipeline.key := by
  unfold fire
  dsimp only
  split
  next trigger => simp only [trigger, Trigger.writes]
  next trigger => simp only [trigger, Trigger.writes]
  next request trigger => simp only [trigger, Trigger.writes]

theorem fire_effects (scene : Scene) (pipeline : Pipeline) :
    (fire scene pipeline).evaluation? =
        some (scene.host.changeNumber.value, scene.patchset? pipeline.key.context) ∧
      (fire scene pipeline).settled? = none ∧ (fire scene pipeline).reports = [] := by
  have quiet := abandonment_effects pipeline
  unfold fire
  dsimp only
  split
  · exact ⟨rfl, rfl, rfl⟩
  · exact ⟨rfl, quiet.2.1, quiet.2.2⟩
  · exact ⟨rfl, quiet.2.1, quiet.2.2⟩

/-- The fetch in flight once the trigger was evaluated: a new one, none at a gap, else the one there was. -/
theorem fire_holds (scene : Scene) (pipeline : Pipeline) (ticket : Nat × FetchRequest) :
    (fire scene pipeline).pipeline.Holds ticket ↔
      (∃ request, scene.trigger pipeline.key.context = .fetch request ∧ ticket = (scene.nextFetch, request)) ∨
      (scene.trigger pipeline.key.context = .suppressed ∧ pipeline.Holds ticket) := by
  cases comes : scene.trigger pipeline.key.context with
  | suppressed => simp only [fire, comes, reduceCtorEq, false_and, exists_false, true_and, false_or]
  | gap => simp only [fire, comes, Holds, Option.map_none, reduceCtorEq, false_and, exists_false, or_self]
  | fetch request =>
    simp only [fire, comes, Holds, Option.map_some, Fetch.ticket, Option.some.injEq, Trigger.fetch.injEq,
      exists_eq_left', reduceCtorEq, false_and, or_false, eq_comm]

/-- A fetch is created exactly when the trigger comes to one. -/
theorem fire_created (scene : Scene) (pipeline : Pipeline) :
    (fire scene pipeline).created = 0 ↔ ∀ request, scene.trigger pipeline.key.context ≠ .fetch request := by
  cases comes : scene.trigger pipeline.key.context with
  | suppressed | gap => simp [fire, comes]
  | fetch request => simp [fire, comes]

/-- What a settled outcome leaves behind. -/
theorem settle_effects (pipeline : Pipeline) (fetch : Nat) (outcome : Outcome) :
    (pipeline.settle fetch outcome).evaluation? = none ∧
      (pipeline.settle fetch outcome).settled? = some (fetch, outcome) ∧
      (pipeline.settle fetch outcome).pipeline.inFlight = none ∧
      (pipeline.settle fetch outcome).created = 0 := by
  cases outcome with
  | response response => cases response <;> exact ⟨rfl, rfl, rfl, rfl⟩
  | failed failure => exact ⟨rfl, rfl, rfl, rfl⟩

end Pipeline

namespace Pipeline.Course

variable {scene : Scene} {pipeline : Pipeline} {step : PipelineStep}

private theorem asked_holds (scene : Scene) (pipeline : Pipeline) (ticket : Nat × FetchRequest) :
    (pipeline.request scene).1.Holds ticket ↔ pipeline.Holds ticket := by
  unfold Holds
  rw [request_ticket]

/-- A pipeline keeps its key. -/
theorem key_eq (course : Course scene pipeline step) : step.pipeline.key = pipeline.key := by
  have asked : (pipeline.request scene).1.key = pipeline.key := by rw [request_eq]
  cases course with
  | rests _ => rfl
  | starts _ => rw [fire_pipeline]; rfl
  | cancels _ _ => rfl
  | waits _ _ _ => exact asked
  | settles fetch outcome => cases outcome <;> exact asked
  | looks branch => exact (looked_key ..).trans asked
  | fires branch =>
    simp only [PipelineStep.after]
    rw [fire_pipeline]
    exact (looked_key ..).trans asked

/-- A step that evaluates the trigger has looked at something before, and is otherwise that evaluation. -/
theorem exists_fire (course : Course scene pipeline step) (evaluated : step.evaluation?.isSome) :
    ∃ looked : Pipeline, looked.key = pipeline.key ∧ looked.phase = .running ∧
      (∀ ticket, looked.Holds ticket ↔ pipeline.Holds ticket) ∧
      step.pipeline = (fire scene looked).pipeline ∧ step.writes = (fire scene looked).writes ∧
      step.created = (fire scene looked).created ∧ step.evaluation? = (fire scene looked).evaluation? ∧
      step.settled? = (fire scene looked).settled? ∧ step.reports = (fire scene looked).reports := by
  cases course with
  | rests _ => cases evaluated
  | starts _ => exact ⟨pipeline.started scene, rfl, rfl, fun _ => .rfl, rfl, rfl, rfl, rfl, rfl, rfl⟩
  | cancels _ _ =>
    rw [(take_cancelled scene pipeline).1] at evaluated
    cases evaluated
  | waits _ _ _ => rw [evaluation?_after_request] at evaluated; cases evaluated
  | settles fetch outcome =>
    rw [evaluation?_after_request, (settle_effects ..).1] at evaluated
    cases evaluated
  | looks branch => rw [evaluation?_after_request] at evaluated; cases evaluated
  | fires branch running =>
    refine ⟨(pipeline.request scene).1.looked scene branch, ?_, ?_, ?_, rfl, rfl, rfl, ?_, ?_, ?_⟩
    · rw [looked_key, request_eq]
    · rw [looked_phase, request_eq]
      exact running
    · intro ticket
      rw [Holds, looked_inFlight]
      exact asked_holds scene pipeline ticket
    · exact evaluation?_after_request ..
    · exact settled?_after_request ..
    · exact reports_after_request ..

/-- A step that settles an outcome settles that of the fetch in flight, and does what the outcome asks for. -/
theorem of_settled (course : Course scene pipeline step) {number : Nat} {outcome : Outcome}
    (settled : step.settled? = some (number, outcome)) :
    (∃ request, pipeline.Holds (number, request)) ∧ step.evaluation? = none ∧ step.created = 0 ∧
      step.pipeline.inFlight = none ∧ step.writes = (pipeline.settle number outcome).writes ∧
      step.reports = (pipeline.settle number outcome).reports := by
  cases course with
  | rests _ => cases settled
  | starts _ => rw [(fire_effects ..).2.1] at settled; cases settled
  | cancels _ _ => rw [(take_cancelled scene pipeline).2.1] at settled; cases settled
  | waits _ _ _ => rw [settled?_after_request] at settled; cases settled
  | settles fetch result _ _ held _ =>
    have same := (settle_effects (pipeline.request scene).1 fetch.number result)
    rw [settled?_after_request, same.2.1, Option.some.injEq, Prod.mk.injEq] at settled
    obtain ⟨rfl, rfl⟩ := settled
    have key : (pipeline.request scene).1.key = pipeline.key := by rw [request_eq]
    refine ⟨⟨fetch.request, ?_⟩, ?_, same.2.2.2, same.2.2.1, ?_, ?_⟩
    · rw [← asked_holds scene, Holds, held]
      rfl
    · rw [evaluation?_after_request]
      exact same.1
    · cases result <;> simp only [PipelineStep.after, settle, key]
    · rw [reports_after_request]
      cases result <;> simp only [settle, key, PipelineStep.reports]
  | looks branch => rw [settled?_after_request] at settled; cases settled
  | fires branch => rw [settled?_after_request, (fire_effects ..).2.1] at settled; cases settled

/-- A step that neither evaluates nor settles anything writes and reports nothing. It keeps the fetch in flight, or
ends: at its cancellation, or because it had ended before. -/
theorem of_quiet (course : Course scene pipeline step) (unevaluated : step.evaluation? = none)
    (unsettled : step.settled? = none) :
    step.writes = [] ∧ step.reports = [] ∧ step.created = 0 ∧
      ((∀ ticket, step.pipeline.Holds ticket ↔ pipeline.Holds ticket) ∧ step.pipeline.phase = pipeline.phase ∨
        step.pipeline.inFlight = none ∧ step.pipeline.phase = .ended ∧ scene.live = false) := by
  have phase : (pipeline.request scene).1.phase = pipeline.phase := by rw [request_eq]
  cases course with
  | rests _ => exact ⟨rfl, rfl, rfl, .inl ⟨fun _ => .rfl, rfl⟩⟩
  | starts _ => rw [(fire_effects ..).1] at unevaluated; cases unevaluated
  | cancels _ cancelled => exact ⟨rfl, (take_cancelled scene pipeline).2.2, rfl, .inr ⟨rfl, rfl, cancelled⟩⟩
  | waits _ _ _ =>
    exact ⟨rfl, reports_after_request .., rfl, .inl ⟨asked_holds scene pipeline, phase⟩⟩
  | settles fetch outcome =>
    rw [settled?_after_request, (settle_effects ..).2.1] at unsettled
    cases unsettled
  | looks branch =>
    refine ⟨rfl, reports_after_request .., rfl, .inl ⟨fun ticket => ?_, (looked_phase ..).trans phase⟩⟩
    simp only [PipelineStep.after, Holds, looked_inFlight]
    exact asked_holds scene pipeline ticket
  | fires branch =>
    rw [evaluation?_after_request, (fire_effects ..).1] at unevaluated
    cases unevaluated

/-- A step looks at nothing, or it starts the pipeline, or it looks at one signal. Besides, it only moves the fetch in
flight and the phase. -/
theorem exists_base (course : Course scene pipeline step) :
    ∃ base : Pipeline,
      step.pipeline = { base with inFlight := step.pipeline.inFlight, phase := step.pipeline.phase } ∧
      ((base = pipeline ∧ pipeline.phase ≠ .created ∧ step.evaluation? = none) ∨
        (base = pipeline.started scene ∧ step.evaluation?.isSome) ∨
        ∃ branch : Branch, branch.IsSignal ∧ base = pipeline.looked scene branch ∧ pipeline.phase = .running ∧
          step.evaluation?.isSome = pipeline.fires scene branch) := by
  obtain ⟨inFlight, asked⟩ : ∃ inFlight, (pipeline.request scene).1 = { pipeline with inFlight } :=
    ⟨_, request_eq scene pipeline⟩
  cases course with
  | rests ended => exact ⟨pipeline, rfl, .inl ⟨rfl, by simp [ended], rfl⟩⟩
  | starts _ =>
    refine ⟨pipeline.started scene, ?_, .inr (.inl ⟨rfl, by simp [(fire_effects ..).1]⟩)⟩
    rw [fire_pipeline]
  | cancels running _ =>
    exact ⟨pipeline, rfl, .inl ⟨rfl, by simp [running], (take_cancelled scene pipeline).1⟩⟩
  | waits running _ _ =>
    refine ⟨pipeline, ?_, .inl ⟨rfl, by simp [running], evaluation?_after_request ..⟩⟩
    simp only [PipelineStep.after, asked]
  | settles fetch outcome running _ _ _ =>
    refine ⟨pipeline, ?_, .inl ⟨rfl, by simp [running], ?_⟩⟩
    · simp only [PipelineStep.after, asked]
      cases outcome <;> rfl
    · rw [evaluation?_after_request]
      exact (settle_effects ..).1
  | looks branch running _ signal _ quiet =>
    refine ⟨pipeline.looked scene branch, ?_, .inr (.inr ⟨branch, signal, rfl, running, ?_⟩)⟩
    · simp only [PipelineStep.after, asked]
      cases branch <;> rfl
    · rw [evaluation?_after_request]
      rw [asked] at quiet
      cases branch <;> exact quiet.symm
  | fires branch running _ signal _ evaluates =>
    refine ⟨pipeline.looked scene branch, ?_, .inr (.inr ⟨branch, signal, rfl, running, ?_⟩)⟩
    · simp only [PipelineStep.after]
      rw [fire_pipeline, asked]
      cases branch <;> rfl
    · rw [evaluation?_after_request, (fire_effects ..).1]
      rw [asked] at evaluates
      cases branch <;> exact evaluates.symm

end Pipeline.Course

/-- A step that a pipeline took: what it saw, and how it stood before. -/
structure Turn where
  scene : Scene
  pipeline : Pipeline

namespace Turn

/-- What the turn came to. -/
def step (turn : Turn) : PipelineStep :=
  turn.pipeline.step turn.scene

/-- What the trigger comes to in the turn, were it evaluated. -/
def trigger (turn : Turn) : Trigger :=
  turn.scene.trigger turn.pipeline.key.context

/-- The number of the fetch that the turn created. -/
def created? (turn : Turn) : Option Nat :=
  if turn.step.created = 0 then none else some turn.scene.nextFetch

/-- The turn evaluated its trigger, and not for a hidden host: a new fetch or a gap takes the place of whatever was in
flight. -/
def Replaces (turn : Turn) : Prop :=
  turn.step.evaluation?.isSome ∧ turn.trigger ≠ .suppressed

/-- After the turn the fetch of a number is not in flight, unless the turn itself created it. -/
def Displaces (turn : Turn) (number : Nat) : Prop :=
  turn.Replaces ∨ (∃ outcome, turn.step.settled? = some (number, outcome)) ∨ turn.step.pipeline.phase = .ended

theorem course (turn : Turn) : Pipeline.Course turn.scene turn.pipeline turn.step :=
  Pipeline.course_step turn.scene turn.pipeline

/-- The trigger is evaluated with the change number and the patchset of the scene. -/
theorem evaluation?_eq {turn : Turn} (evaluated : turn.step.evaluation?.isSome) :
    turn.step.evaluation? =
      some (turn.scene.host.changeNumber.value, turn.scene.patchset? turn.pipeline.key.context) := by
  obtain ⟨looked, key, _, _, _, _, _, evaluation, _, _⟩ := turn.course.exists_fire evaluated
  rw [evaluation, (Pipeline.fire_effects ..).1, key]

theorem created?_eq_some_iff {turn : Turn} {number : Nat} :
    turn.created? = some number ↔
      turn.step.evaluation?.isSome ∧ (∃ request, turn.trigger = .fetch request) ∧ number = turn.scene.nextFetch := by
  unfold created?
  cases evaluation : turn.step.evaluation? with
  | none =>
    have none_created : turn.step.created = 0 := by
      cases settled : turn.step.settled? with
      | none => exact (turn.course.of_quiet evaluation settled).2.2.1
      | some result => exact (turn.course.of_settled settled).2.2.1
    simp [none_created]
  | some values =>
    obtain ⟨looked, key, _, _, _, _, created, _, _, _⟩ :=
      turn.course.exists_fire (Option.isSome_iff_exists.mpr ⟨values, evaluation⟩)
    have iff := Pipeline.fire_created turn.scene looked
    rw [← created, key] at iff
    by_cases fetches : ∃ request, turn.trigger = .fetch request
    · have nonzero : turn.step.created ≠ 0 := fun zero => by
        obtain ⟨request, comes⟩ := fetches
        exact iff.mp zero request comes
      simp only [nonzero, ↓reduceIte, Option.some.injEq, Option.isSome_some, fetches, true_and]
      exact eq_comm
    · have zero : turn.step.created = 0 := iff.mpr (fun request comes => fetches ⟨request, comes⟩)
      simp [zero, fetches]

/-- A fetch is created by a turn that replaces whatever was in flight. -/
theorem replaces_of_created {turn : Turn} {number : Nat} (created : turn.created? = some number) : turn.Replaces := by
  obtain ⟨evaluated, ⟨request, comes⟩, _⟩ := created?_eq_some_iff.mp created
  exact ⟨evaluated, by simp [comes]⟩

/-- A turn that evaluates its trigger goes on running and settles and reports nothing. -/
theorem of_evaluated {turn : Turn} (evaluated : turn.step.evaluation?.isSome) :
    turn.step.settled? = none ∧ turn.step.reports = [] ∧ turn.step.pipeline.phase = .running ∧
      turn.step.writes = turn.trigger.writes turn.pipeline.key := by
  obtain ⟨looked, key, running, _, pipeline, writes, _, _, settled, reports⟩ := turn.course.exists_fire evaluated
  have effects := Pipeline.fire_effects turn.scene looked
  refine ⟨settled.trans effects.2.1, reports.trans effects.2.2, ?_, ?_⟩
  · rw [pipeline, Pipeline.fire_pipeline]
    exact running
  · rw [writes, Pipeline.fire_writes, key]
    rfl

/-- The fetch in flight after a turn is the one that it created, or the one before if the turn does not displace it.
An ended pipeline has none, before and after. -/
theorem holds_step (turn : Turn) (released : turn.pipeline.phase = .ended → turn.pipeline.inFlight = none)
    (number : Nat) (request : FetchRequest) :
    turn.step.pipeline.Holds (number, request) ↔
      (turn.created? = some number ∧ turn.trigger = .fetch request) ∨
      (turn.pipeline.Holds (number, request) ∧ ¬ turn.Displaces number) := by
  cases evaluation : turn.step.evaluation? with
  | some values =>
    have evaluated := Option.isSome_iff_exists.mpr ⟨values, evaluation⟩
    obtain ⟨looked, key, _, holds, pipeline, _, _, _, _, _⟩ := turn.course.exists_fire evaluated
    obtain ⟨unsettled, _, running, _⟩ := of_evaluated evaluated
    rw [pipeline, Pipeline.fire_holds, key]
    simp only [created?_eq_some_iff, evaluated, true_and, Displaces, Replaces, unsettled, reduceCtorEq,
      exists_false, running, or_false, ne_eq, Decidable.not_not, holds, Prod.mk.injEq, trigger]
    constructor
    · rintro (⟨asked, comes, same, rfl⟩ | ⟨hidden, held⟩)
      · exact .inl ⟨⟨⟨_, comes⟩, same⟩, comes⟩
      · exact .inr ⟨held, hidden⟩
    · rintro (⟨⟨_, same⟩, comes⟩ | ⟨held, hidden⟩)
      · exact .inl ⟨request, comes, same, rfl⟩
      · exact .inr ⟨hidden, held⟩
  | none =>
    have uncreated : turn.created? ≠ some number := fun created => by
      have evaluated := (created?_eq_some_iff.mp created).1
      rw [evaluation] at evaluated
      cases evaluated
    simp only [uncreated, false_and, false_or]
    cases settled : turn.step.settled? with
    | some result =>
      obtain ⟨settledNumber, outcome⟩ := result
      obtain ⟨⟨settledRequest, held⟩, _, _, dropped, _, _⟩ := turn.course.of_settled settled
      constructor
      · intro holds
        rw [Pipeline.Holds, dropped] at holds
        cases holds
      · rintro ⟨holds, kept⟩
        rw [Pipeline.Holds, held, Option.some.injEq, Prod.mk.injEq] at holds
        obtain ⟨rfl, _⟩ := holds
        exact (kept (.inr (.inl ⟨outcome, settled⟩))).elim
    | none =>
      obtain ⟨_, _, _, ⟨same, phase⟩ | ⟨dropped, ended, _⟩⟩ := turn.course.of_quiet evaluation settled
      · simp only [same, Displaces, Replaces, evaluation, settled, reduceCtorEq, exists_false,
          Option.isSome_none, Bool.false_eq_true, false_and, false_or, phase]
        refine ⟨fun holds => ⟨holds, fun ended => ?_⟩, And.left⟩
        rw [Pipeline.Holds, released ended] at holds
        cases holds
      · constructor
        · intro holds
          rw [Pipeline.Holds, dropped] at holds
          cases holds
        · rintro ⟨_, kept⟩
          exact (kept (.inr (.inr ended))).elim

/-- A pipeline that ends lets go of its fetch. -/
theorem inFlight_of_ended (turn : Turn) (released : turn.pipeline.phase = .ended → turn.pipeline.inFlight = none)
    (ended : turn.step.pipeline.phase = .ended) : turn.step.pipeline.inFlight = none := by
  cases held : turn.step.pipeline.inFlight with
  | none => rfl
  | some fetch =>
    have holds : turn.step.pipeline.Holds fetch.ticket := by rw [Pipeline.Holds, held]; rfl
    rcases (turn.holds_step released _ _).mp holds with ⟨created, _⟩ | ⟨_, kept⟩
    · have running := (of_evaluated (replaces_of_created created).1).2.2.1
      rw [ended] at running
      cases running
    · exact (kept (.inr (.inr ended))).elim

end Turn

end ReviewChecks
