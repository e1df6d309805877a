import ReviewChecks.Proofs.Model.Frame

/-! # What a move adds to the log

Most moves leave the log alone, and with it the settings and the awaited actions (`Model.of_isSilent`); the settings
never change (`Model.config_move`), and only the tasks that follow the host look at it (`Model.sights_move`). The log
only grows, and what a move adds to it can be read off the model before (`Model.log_move`): the effects of the pipeline
that takes its turn, what becomes of an action that is triggered or comes to its end, and nothing in any other move. So
only a pipeline's turn asks a provider for anything, and it does so for itself, and only as long as it runs and its
registration stands (`Turn.of_isRequestOf`).
-/

namespace ReviewChecks

namespace Model

/-- What a move adds to the log, the oldest first. -/
def logged (model : Model) : Move → List Effect
  | .operation (.trigger action run callback) =>
    match model.invocation? action run with
    | none => []
    | some invocation =>
      [.reported (.actionTriggered action.name invocation.checkName), .invoked invocation] ++
        if (callback invocation).isSome then [.noticed (triggerNotice action.name)] else []
  | .task (.pipeline index) =>
    match model.pipelines[index]? with
    | some pipeline => (pipeline.step (model.scene pipeline)).effects
    | none => []
  | .task (.action number) =>
    match model.pending.find? (·.number = number) with
    | some pending =>
      if pending.wakesAt model.clock ≤ model.clock ∧ pending.hasResult model.clock = true ∧ model.life ≠ .dropped then
        [.noticed (resultNotice pending.result)]
      else []
    | none => []
  | _ => []

/-- A request to reload for a check only touches registrations. -/
theorem reloadForCheck_eq {α : Type} (part : Model → α) (model : Model)
    (same : ∀ registry, part { model with registry } = part model) (checkName : Option String) :
    part (model.reloadForCheck checkName) = part model := by
  unfold reloadForCheck
  split
  · exact same _
  · split
    · exact same _
    · rfl

/-- What an accepted operation leaves alone stays in any case. -/
theorem accept_eq {α : Type} (part : Model → α) (model : Model) {result : Except Error Model}
    (same : ∀ next, result = .ok next → part next = part model) : part (model.accept result).2 = part model := by
  cases result with
  | ok next => exact same next rfl
  | error reason => rfl

/-- What an action that is triggered leaves alone. -/
theorem trigger_eq {α : Type} (part : Model → α) (model : Model)
    (same : ∀ log pending triggered, part { model with log, pending, triggered } = part model) (action : Action)
    (run : Option RunInfo) (callback : ActionInvocation → Option Promise) :
    part (model.trigger action run callback).2 = part model := by
  unfold trigger
  split
  · rfl
  · dsimp only
    split
    · exact same _ model.pending model.triggered
    · exact same ..

/-- What the step of an awaited action leaves alone. -/
theorem stepAction_eq {α : Type} (part : Model → α) (model : Model)
    (same : ∀ registry log pending, part { model with registry, log, pending } = part model) (number : Nat) :
    part (model.stepAction number) = part model := by
  unfold stepAction
  split
  · rfl
  · dsimp only
    split
    · split
      · unfold handleResult
        split
        · refine (reloadForCheck_eq part _ (fun registry => ?_) _).trans (same model.registry _ _)
          exact (same registry _ _).trans (same model.registry _ _).symm
        · exact same model.registry _ _
      · exact same model.registry model.log _
    · split
      · exact same model.registry model.log _
      · rfl

/-- The settings, the log, and the awaited actions, which most moves leave alone. -/
private def records (model : Model) : ModelConfig × List Effect × List PendingAction × Nat :=
  (model.config, model.log, model.pending, model.triggered)

end Model

/-- A move that neither triggers an action nor lets a pipeline or an awaited action take a step. -/
def Move.IsSilent : Move → Prop
  | .operation (.trigger ..) | .task (.pipeline _) | .task (.action _) => False
  | _ => True

/-- A case analysis in which the silent moves are one case. -/
@[elab_as_elim]
theorem Move.casesSilent {motive : Move → Prop} (silent : ∀ move, IsSilent move → motive move)
    (trigger : ∀ action run callback, motive (.operation (.trigger action run callback)))
    (pipeline : ∀ index, motive (.task (.pipeline index))) (action : ∀ number, motive (.task (.action number)))
    (move : Move) : motive move := by
  by_cases given : move.IsSilent
  · exact silent move given
  · unfold IsSilent at given
    split at given
    next button run callback => exact trigger button run callback
    next index => exact pipeline index
    next number => exact action number
    next => exact (given trivial).elim

namespace Model

/-- What an operation leaves alone that triggers no action. -/
theorem perform_eq {α : Type} (part : Model → α) (model : Model)
    (same : ∀ store registry registered pipelines life,
      part { model with store, registry, registered, pipelines, life } = part model)
    {operation : Operation} (silent : (Move.operation operation).IsSilent) :
    part (model.perform operation).2 = part model := by
  have reloaded : ∀ registry, part { model with registry } = part model :=
    fun registry => same model.store registry model.registered model.pipelines model.life
  have stored : ∀ store, part { model with store } = part model :=
    fun store => same store model.registry model.registered model.pipelines model.life
  cases operation with
  | register plugin provider settings =>
    refine accept_eq part model fun next accepted => ?_
    cases admitted : model.admits plugin with
    | true =>
      rw [register_of_admits admitted, Except.ok.injEq] at accepted
      rw [← accepted]
      exact same _ _ _ _ model.life
    | false =>
      obtain ⟨error, refused⟩ := register_of_not_admits admitted provider settings
      rw [refused] at accepted
      cases accepted
  | unregister plugin =>
    refine accept_eq part model fun next accepted => ?_
    unfold unregister at accepted
    split at accepted
    · rw [← Except.ok.inj accepted]
      exact same _ _ model.registered model.pipelines model.life
    · cases accepted
  | reload plugin =>
    refine accept_eq part model fun next accepted => ?_
    unfold reload at accepted
    split at accepted
    · rw [← Except.ok.inj accepted]
      exact reloaded _
    · cases accepted
  | reloadAll => exact reloaded _
  | reloadForCheck checkName => exact reloadForCheck_eq part model reloaded checkName
  | updateResult plugin run result =>
    simp only [perform, updateResult]
    split
    · exact stored _
    · rfl
  | setPatchset => exact stored _
  | trigger action run callback => exact silent.elim
  | shutdown =>
    simp only [perform, shutdown]
    split
    · exact same model.store _ model.registered model.pipelines _
    · rfl
  | drop =>
    simp only [perform, drop, shutdown]
    split
    · exact same model.store _ model.registered model.pipelines _
    · exact same model.store model.registry model.registered model.pipelines _

private theorem records_task (model : Model) {task : Task} (silent : (Move.task task).IsSilent) :
    (model.runTask task).records = model.records := by
  cases task with
  | pipeline index => exact silent.elim
  | action number => exact silent.elim
  | followRouter =>
    simp only [runTask, followRouter]
    split
    · split <;> rfl
    · rfl
  | followLatest =>
    simp only [runTask, followLatest]
    split
    · split <;> rfl
    · rfl
  | relayReload =>
    simp only [runTask, relayReload]
    split
    · split
      · rfl
      · split <;> rfl
    · rfl
  | stopFollowing | stopRelaying =>
    simp only [runTask]
    split <;> rfl

/-- Silent moves leave the settings, the log and the awaited actions as they are. -/
theorem of_isSilent (model : Model) {move : Move} (silent : move.IsSilent) :
    (model.move move).config = model.config ∧ (model.move move).log = model.log ∧
      (model.move move).pending = model.pending ∧ (model.move move).triggered = model.triggered := by
  have same : (model.move move).records = model.records := by
    cases move with
    | operation operation => exact perform_eq records model (fun _ _ _ _ _ => rfl) silent
    | task task => exact records_task model silent
    | host | elapse => rfl
    | answer fetch outcome =>
      simp only [Model.move, answer]
      split <;> rfl
  simpa only [records, Prod.mk.injEq] using same

/-- The settings of a model never change. -/
theorem config_move (model : Model) (move : Move) : (model.move move).config = model.config := by
  cases move using Move.casesSilent with
  | silent move silent => exact (model.of_isSilent silent).1
  | trigger action run callback => exact trigger_eq config model (fun _ _ _ => rfl) action run callback
  | pipeline index =>
    simp only [Model.move, runTask, stepPipeline]
    split <;> rfl
  | action number => exact stepAction_eq config model (fun _ _ _ => rfl) number

theorem config_run (model : Model) (moves : List Move) : (model.run moves).config = model.config := by
  induction moves generalizing model with
  | nil => rfl
  | cons move rest ih => exact (ih (model.move move)).trans (model.config_move move)

/-- What the tasks that follow the host have seen of it, and which of them run. -/
def sights (model : Model) : (Bool × Nat × Nat) × Bool × Nat :=
  ((model.followsPatchset, model.seenRouterPatchset, model.seenLatestPatchset),
    (model.followsReloads, model.reloadsRead))

end Model

/-- A step of a task that follows the host. -/
def Move.Looks : Move → Prop
  | .task .followRouter | .task .followLatest | .task .stopFollowing | .task .relayReload | .task .stopRelaying => True
  | _ => False

namespace Model

/-- Only the tasks that follow the host look at it. -/
theorem sights_move (model : Model) {move : Move} (aside : ¬ move.Looks) :
    (model.move move).sights = model.sights := by
  cases move using Move.casesSilent with
  | silent move silent =>
    cases move with
    | operation operation => exact perform_eq sights model (fun _ _ _ _ _ => rfl) silent
    | host | elapse => rfl
    | answer fetch outcome =>
      simp only [Model.move, answer]
      split <;> rfl
    | task task =>
      cases task with
      | pipeline | action => exact silent.elim
      | followRouter | followLatest | stopFollowing | relayReload | stopRelaying => exact (aside trivial).elim
  | trigger action run callback => exact trigger_eq sights model (fun _ _ _ => rfl) action run callback
  | pipeline index =>
    simp only [Model.move, runTask, stepPipeline]
    split <;> rfl
  | action number => exact stepAction_eq sights model (fun _ _ _ => rfl) number

private theorem log_trigger (model : Model) (action : Action) (run : Option RunInfo)
    (callback : ActionInvocation → Option Promise) :
    (model.trigger action run callback).2.log =
      (model.logged (.operation (.trigger action run callback))).reverse ++ model.log := by
  simp only [trigger, logged]
  cases model.invocation? action run with
  | none => rfl
  | some invocation =>
    dsimp only
    cases callback invocation <;> rfl

private theorem log_stepAction (model : Model) (number : Nat) :
    (model.stepAction number).log = (model.logged (.task (.action number))).reverse ++ model.log := by
  simp only [stepAction, logged]
  cases model.pending.find? (·.number = number) with
  | none => rfl
  | some pending =>
    dsimp only
    by_cases awake : pending.wakesAt model.clock ≤ model.clock
    · by_cases there : pending.hasResult model.clock = true ∧ model.life ≠ .dropped
      · have counts : (pending.hasResult model.clock && model.life != .dropped) = true := by simpa using there
        rw [if_pos awake, if_pos counts, if_pos ⟨awake, there⟩, handleResult]
        split
        · exact reloadForCheck_eq log _ (fun _ => rfl) _
        · rfl
      · have counts : ¬ (pending.hasResult model.clock && model.life != .dropped) = true := by simpa using there
        rw [if_pos awake, if_neg counts, if_neg fun both => there both.2]
        rfl
    · have unheard : ¬ (pending.wakesAt model.clock ≤ model.clock ∧ pending.hasResult model.clock = true ∧
          model.life ≠ .dropped) := fun both => awake both.1
      rw [if_neg awake, if_neg unheard]
      split <;> rfl

/-- What a move adds to the log. -/
theorem log_move (model : Model) (move : Move) :
    (model.move move).log = (model.logged move).reverse ++ model.log := by
  cases move using Move.casesSilent with
  | silent move silent =>
    have nothing : model.logged move = [] := by
      unfold logged
      split
      · exact silent.elim
      · exact silent.elim
      · exact silent.elim
      · rfl
    rw [nothing]
    exact (model.of_isSilent silent).2.1
  | trigger action run callback => exact log_trigger model action run callback
  | pipeline index =>
    simp only [Model.move, runTask, stepPipeline, logged]
    cases model.pipelines[index]? <;> rfl
  | action number => exact log_stepAction model number

end Model

namespace Pipeline

variable {key : PipelineKey} {effect : Effect}

private theorem not_isRequestOf_fire (scene : Scene) (pipeline : Pipeline)
    (member : effect ∈ (fire scene pipeline).effects) : effect.isRequestOf key = false := by
  rcases of_mem_effects_fire member with ⟨_, _, rfl⟩ | ⟨_, rfl⟩ <;> rfl

private theorem not_isRequestOf_settle (pipeline : Pipeline) (number : Nat) (outcome : Outcome)
    (member : effect ∈ (pipeline.settle number outcome).effects) : effect.isRequestOf key = false := by
  rcases of_mem_effects_settle member with rfl | ⟨_, rfl⟩ <;> rfl

/-- A pipeline asks for itself. -/
private theorem of_isRequestOf_request (scene : Scene) (pipeline : Pipeline)
    (member : effect ∈ (pipeline.request scene).2) (asks : effect.isRequestOf key = true) :
    pipeline.key.plugin = key.plugin ∧ pipeline.key.context = key.context := by
  unfold request at member
  split at member
  · split at member
    · obtain rfl := List.mem_singleton.mp member
      simpa [Effect.isRequestOf] using asks
    · cases member
  · cases member

end Pipeline

/-- A turn that asks a provider is one of a pipeline that runs under a registration that stands, and asks before it does
anything else. -/
theorem Turn.mem_request_of_isRequestOf (turn : Turn) {key : PipelineKey} {effect : Effect}
    (member : effect ∈ turn.step.effects) (asks : effect.isRequestOf key = true) :
    turn.pipeline.phase = .running ∧ turn.scene.live = true ∧ effect ∈ (turn.pipeline.request turn.scene).2 := by
  have course := turn.course
  generalize turn.step = step at course member
  have asked (running : turn.pipeline.phase = .running) (live : turn.scene.live = true) {other : PipelineStep}
      (within : effect ∈ (other.after (turn.pipeline.request turn.scene).2).effects)
      (silent : effect ∈ other.effects → effect.isRequestOf key = false) :
      turn.pipeline.phase = .running ∧ turn.scene.live = true ∧ effect ∈ (turn.pipeline.request turn.scene).2 := by
    rcases List.mem_append.mp within with within | within
    · exact ⟨running, live, within⟩
    · rw [silent within] at asks
      cases asks
  cases course with
  | rests _ => cases member
  | starts _ =>
    rw [Pipeline.not_isRequestOf_fire _ _ member] at asks
    cases asks
  | cancels _ _ =>
    obtain ⟨_, rfl⟩ := Pipeline.exists_of_mem_abandonment member
    cases asks
  | waits running live _ => exact asked running live member fun nothing => by cases nothing
  | settles _ _ running live _ _ => exact asked running live member (Pipeline.not_isRequestOf_settle _ _ _)
  | looks _ running live _ _ _ => exact asked running live member fun nothing => by cases nothing
  | fires _ running live _ _ _ => exact asked running live member (Pipeline.not_isRequestOf_fire _ _)

/-- A turn that asks a provider is one of a pipeline of that provider and context, which runs under a registration that
stands. -/
theorem Turn.of_isRequestOf (turn : Turn) {key : PipelineKey} {effect : Effect} (member : effect ∈ turn.step.effects)
    (asks : effect.isRequestOf key = true) :
    turn.pipeline.phase = .running ∧ turn.scene.live = true ∧ turn.pipeline.key.plugin = key.plugin ∧
      turn.pipeline.key.context = key.context := by
  obtain ⟨running, live, asked⟩ := turn.mem_request_of_isRequestOf member asks
  exact ⟨running, live, Pipeline.of_isRequestOf_request _ _ asked asks⟩

/-- A move in which a provider is asked is a turn of a pipeline. -/
theorem Model.exists_turn_of_logged_request {model : Model} {move : Move} {key : PipelineKey} {effect : Effect}
    (member : effect ∈ model.logged move) (asks : effect.isRequestOf key = true) :
    ∃ index turn, model.turn? index move = some turn ∧ effect ∈ turn.step.effects := by
  unfold logged at member
  split at member
  next action run callback =>
    split at member
    · cases member
    next invocation =>
      rcases List.mem_append.mp member with member | member
      · simp only [List.mem_cons, List.not_mem_nil, or_false] at member
        rcases member with rfl | rfl <;> cases asks
      · split at member
        · obtain rfl := List.mem_singleton.mp member
          cases asks
        · cases member
  next index =>
    split at member
    next pipeline at_index =>
      exact ⟨index, ⟨model.scene pipeline, pipeline⟩, turn?_eq_some_iff.mpr ⟨rfl, at_index, rfl⟩, member⟩
    next => cases member
  next number =>
    split at member
    · split at member
      · obtain rfl := List.mem_singleton.mp member
        cases asks
      · cases member
    · cases member
  next => cases member

/-- A move in which a provider is asked is the turn of a pipeline of that provider and context. -/
theorem Model.exists_of_logged_request {model : Model} {move : Move} {key : PipelineKey} {effect : Effect}
    (member : effect ∈ model.logged move) (asks : effect.isRequestOf key = true) :
    ∃ index pipeline, move = .task (.pipeline index) ∧ model.pipelines[index]? = some pipeline ∧
      pipeline.phase = .running ∧ model.isLive pipeline.key.registration = true ∧
      pipeline.key.plugin = key.plugin ∧ pipeline.key.context = key.context := by
  obtain ⟨index, turn, taken, within⟩ := exists_turn_of_logged_request member asks
  obtain ⟨task, at_index, scene⟩ := turn?_eq_some_iff.mp taken
  obtain ⟨running, live, own⟩ := turn.of_isRequestOf within asks
  rw [scene] at live
  exact ⟨index, turn.pipeline, task, at_index, running, live, own⟩

end ReviewChecks
