import ReviewChecks.Proofs.Model.Awaiting

/-! # What becomes of an action

An action that is triggered leads to a report, to one call of its callback, and to at most two notices
(`Model.action_effects`). Its result counts if it is there when the action's task first looks for it, which is when the
result has come or the timeout has passed since the task's first step. A task that is kept waiting past both finds the
result there, late as it is (`Model.not_noticed_only_in_time`).
-/

namespace ReviewChecks

/-- Whether an effect is about an action: the report of it, the call of its callback, or a notice. -/
def Effect.isOfAction : Effect → Bool
  | .reported (.actionTriggered ..) | .invoked _ | .noticed _ => true
  | .reported (.execution ..) | .reported (.error ..) => false
  | .evaluated .. | .requested .. | .abandoned .. | .settled .. => false

namespace Pipeline

private theorem isOfAction_request {scene : Scene} {pipeline : Pipeline} {effect : Effect}
    (member : effect ∈ (pipeline.request scene).2) : effect.isOfAction = false := by
  unfold request at member
  split at member
  · split at member
    · rw [List.mem_singleton.mp member]
      rfl
    · cases member
  · cases member

private theorem isOfAction_fire {scene : Scene} {pipeline : Pipeline} {effect : Effect}
    (member : effect ∈ (fire scene pipeline).effects) : effect.isOfAction = false := by
  rcases of_mem_effects_fire member with ⟨_, _, rfl⟩ | ⟨_, rfl⟩ <;> rfl

private theorem isOfAction_settle {pipeline : Pipeline} {number : Nat} {outcome : Outcome} {effect : Effect}
    (member : effect ∈ (pipeline.settle number outcome).effects) : effect.isOfAction = false := by
  cases outcome with
  | failed failure =>
    simp only [settle, List.mem_cons, List.not_mem_nil, or_false] at member
    rcases member with rfl | rfl | rfl <;> rfl
  | response response =>
    cases response with
    | ok =>
      rw [List.mem_singleton.mp member]
      rfl
    | error | notLoggedIn =>
      simp only [settle, land, List.mem_cons, List.not_mem_nil, or_false] at member
      rcases member with rfl | rfl <;> rfl

/-- A pipeline has nothing to do with actions. -/
theorem isOfAction_step (scene : Scene) (pipeline : Pipeline) :
    ∀ effect ∈ (pipeline.step scene).effects, effect.isOfAction = false := by
  intro effect member
  have course := pipeline.course_step scene
  generalize pipeline.step scene = step at course member
  cases course with
  | rests _ => cases member
  | starts _ => exact isOfAction_fire member
  | cancels _ _ =>
    obtain ⟨_, rfl⟩ := exists_of_mem_abandonment member
    rfl
  | waits _ _ _ | looks _ => exact (List.mem_append.mp member).elim isOfAction_request fun nothing => nomatch nothing
  | settles _ _ => exact (List.mem_append.mp member).elim isOfAction_request isOfAction_settle
  | fires _ => exact (List.mem_append.mp member).elim isOfAction_request isOfAction_fire

end Pipeline

namespace Promise

/-- Whether the promised result has come by some time, when it was promised at another. -/
def hasComeBy (promise : Promise) (since now : Nat) : Bool :=
  promise.delay.any (since + · ≤ now)

/-- From when on a result promised at some time is looked for, if the task that waits for it started at another: from
when it comes, but no later than when the timeout has passed since the start. -/
def lookedForAt (promise : Promise) (since start timeout : Nat) : Nat :=
  promise.delay.elim (start + timeout) fun delay => min (since + delay) (start + timeout)

end Promise

namespace Model

variable {model : Model} {number : Nat}

/-- Only a trigger or the task of an action has to do with actions. -/
theorem of_logged_isOfAction {move : Move} {effect : Effect} (member : effect ∈ model.logged move)
    (ofAction : effect.isOfAction = true) :
    (∃ action run callback, move = .operation (.trigger action run callback)) ∨
      ∃ number, move.isStepOf number = true := by
  unfold logged at member
  split at member
  next action run callback => exact .inl ⟨action, run, callback, rfl⟩
  next index =>
    split at member
    next pipeline _ =>
      rw [Pipeline.isOfAction_step _ _ effect member] at ofAction
      cases ofAction
    next => cases member
  next number => exact .inr ⟨number, beq_self_eq_true number⟩
  next => cases member

/-- Whether a promised result counts in a model: it has come by then, and somebody still holds the model. -/
def heeds (now : Model) (promise : Promise) (since : Nat) : Bool :=
  promise.hasComeBy since now.clock && now.life != .dropped

theorem awaiting_wakesAt (model : Model) (invocation : ActionInvocation) (promise : Promise) (now : Nat) :
    (model.awaiting invocation promise).wakesAt now =
      promise.lookedForAt model.clock now model.config.actionTimeout.toNat := by
  cases given : promise.delay <;> simp [awaiting, PendingAction.wakesAt, Promise.lookedForAt, given]

theorem awaiting_hasResult (model : Model) (invocation : ActionInvocation) (promise : Promise) (now : Nat) :
    (model.awaiting invocation promise).hasResult now = promise.hasComeBy model.clock now := by
  cases given : promise.delay <;> simp [awaiting, PendingAction.hasResult, Promise.hasComeBy, given]

/-- What the callback of an action is told. -/
def invocationOf (action : Action) (run : Option RunInfo) (change : UInt64) (patchset : UInt32) : ActionInvocation where
  change := change
  patchset := patchset
  attempt := run.bind (·.attempt)
  externalId := run.bind (·.externalId)
  checkName := run.map (·.checkName)
  actionName := action.name

/-- Without a callback, a change or a patchset there is nothing to trigger. -/
theorem perform_trigger_of_missing {action : Action} {run : Option RunInfo}
    (missing : action.callback = none ∨ model.host.changeNumber.value = none ∨
      run = none ∧ model.host.latestPatchset.value = none) (callback : ActionInvocation → Option Promise) :
    model.perform (.trigger action run callback) = (.flag false, model) := by
  have untold : model.invocation? action run = none := by
    unfold invocation?
    rcases missing with none_given | unloaded | ⟨rfl, unknown⟩
    · simp [none_given]
    · simp [unloaded]
    · simp [unknown]
  simp only [perform, trigger, untold]

theorem invocation?_eq_some {action : Action} {run : Option RunInfo} {change : UInt64} {patchset : UInt32}
    (given : action.callback.isSome) (loaded : model.host.changeNumber.value = some change)
    (known : (run.map (·.patchset)).or model.host.latestPatchset.value = some patchset) :
    model.invocation? action run = some (invocationOf action run change patchset) := by
  obtain ⟨name, given⟩ := Option.isSome_iff_exists.mp given
  simp only [invocation?, given, loaded, known, Option.bind_eq_bind, Option.bind_some, pure]
  rfl

section Invoked

variable {action : Action} {run : Option RunInfo} {callback : ActionInvocation → Option Promise}
  {invocation : ActionInvocation} {promise : Promise}

theorem perform_trigger_of_unpromised (invoked : model.invocation? action run = some invocation)
    (unpromised : callback invocation = none) :
    model.perform (.trigger action run callback) =
      (.flag false, model.record
        [.reported (.actionTriggered action.name invocation.checkName), .invoked invocation]) := by
  simp only [perform, trigger, invoked, unpromised]

theorem perform_trigger_of_promised (invoked : model.invocation? action run = some invocation)
    (promised : callback invocation = some promise) :
    model.perform (.trigger action run callback) =
      (.flag true,
        { model.record [.reported (.actionTriggered action.name invocation.checkName), .invoked invocation,
            .noticed (triggerNotice action.name)] with
          triggered := model.triggered + 1
          pending := model.pending ++ [model.awaiting invocation promise] }) := by
  simp only [perform, trigger, invoked, promised]
  rfl

/-- A promised result is awaited under the next number. -/
theorem awaited?_of_promised (numbers : model.NumbersAwaited) (invoked : model.invocation? action run = some invocation)
    (promised : callback invocation = some promise) :
    model.triggered < (model.perform (.trigger action run callback)).2.triggered ∧
      (model.perform (.trigger action run callback)).2.awaited? model.triggered =
        some (model.awaiting invocation promise) := by
  have unused : model.pending.find? (·.number = model.triggered) = none := by
    refine List.find?_eq_none.mpr fun pending member => ?_
    simpa using Nat.ne_of_lt (numbers pending member)
  rw [perform_trigger_of_promised invoked promised]
  refine ⟨Nat.lt_succ_self _, ?_⟩
  rw [awaited?, List.find?_append, unused]
  simp [awaiting]

end Invoked

/-- What an action comes to, whatever happens before and after it is triggered. Without a callback, a change or a
patchset nothing happens. Otherwise there is one report and one call of the callback, which is told of the change, the
run's patchset or else the latest one, and the run. If the callback promises nothing, that is all. Otherwise there is
the notice that the action is triggered, and the result is looked for once, by the first step that the action's task
takes when the result has come or the timeout has passed, which counts from the task's very first step. If the result is
there, and somebody still holds the model, its notice follows, and a reload for the run's check if the result asks for
one; else nothing follows. A result that comes no later than the timeout is there. Nothing but triggers and the tasks of
actions ever reports an action, calls a callback or gives a notice. -/
theorem action_effects (host : Host) (config : ModelConfig) (earlier : List Move) (action : Action)
    (run : Option RunInfo) (callback : ActionInvocation → Option Promise) :
    let model := (create host config).run earlier
    let trigger : Operation := .trigger action run callback
    (action.callback = none ∨ model.host.changeNumber.value = none ∨
        run = none ∧ model.host.latestPatchset.value = none →
      model.perform trigger = (.flag false, model)) ∧
    (∀ (other : Model) (move : Move), ∀ effect ∈ other.logged move, effect.isOfAction = true →
      (∃ action run callback, move = .operation (.trigger action run callback)) ∨
        ∃ number, move.isStepOf number = true) ∧
    ∀ change patchset, action.callback.isSome → model.host.changeNumber.value = some change →
      (run.map (·.patchset)).or model.host.latestPatchset.value = some patchset →
      let invocation := invocationOf action run change patchset
      let told : List Effect := [.reported (.actionTriggered action.name (run.map (·.checkName))), .invoked invocation]
      (callback invocation = none → model.perform trigger = (.flag false, model.record told)) ∧
      ∀ promise, callback invocation = some promise →
        let triggered := (model.perform trigger).2
        let time := fun (start : Model) => promise.lookedForAt model.clock start.clock config.actionTimeout.toNat
        (model.perform trigger).1 = .flag true ∧
        triggered.log = (told ++ [Effect.noticed (triggerNotice action.name)]).reverse ++ model.log ∧
        triggered.registry = model.registry ∧
        ∀ later,
          let start? := triggered.firstStep? model.triggered 0 later
          let look? := start?.bind fun start => triggered.firstStep? model.triggered (time start) later
          let last := triggered.run later
          triggered.effectsOf model.triggered later =
            (look?.elim [] fun now =>
              if now.heeds promise model.clock then [.noticed (resultNotice promise.result)] else []) ∧
          (last.move (.task (.action model.triggered))).registry =
            (if look?.isNone && decide (time (start?.getD last) ≤ last.clock) &&
                (last.heeds promise model.clock && promise.result.shouldReload) then
              (last.reloadForCheck (run.map (·.checkName))).registry
            else last.registry) ∧
          ∀ start now, start? = some start → look? = some now →
            (∃ delay, promise.delay = some delay ∧
              model.clock + delay ≤ start.clock + config.actionTimeout.toNat) →
            promise.hasComeBy model.clock now.clock = true := by
  intro model trigger
  refine ⟨fun missing => perform_trigger_of_missing missing callback, fun _ _ _ => of_logged_isOfAction, ?_⟩
  intro change patchset given loaded known invocation told
  have invoked : model.invocation? action run = some invocation := invocation?_eq_some given loaded known
  refine ⟨perform_trigger_of_unpromised invoked, ?_⟩
  intro promise promised triggered time
  have settings : model.config = config := config_run ..
  obtain ⟨given, awaits⟩ := awaited?_of_promised (numbersAwaited_run host config earlier) invoked promised
  have wakes (start : Model) : (model.awaiting invocation promise).wakesAt start.clock = time start := by
    rw [awaiting_wakesAt, settings]
  have counted (now : Model) :
      now.counts (model.awaiting invocation promise) = now.heeds promise model.clock := by
    rw [counts, awaiting_hasResult, heeds]
  have result := perform_trigger_of_promised invoked promised
  have after : triggered = _ := congrArg Prod.snd result
  refine ⟨congrArg Prod.fst result, ?_, ?_, ?_⟩
  · rw [after]
    rfl
  · rw [after]
    rfl
  intro later start? look? last
  have ends : triggered.endOfWait? model.triggered (model.awaiting invocation promise) later = look? :=
    congrArg start?.bind (funext fun start => by rw [wakes])
  have effects := effectsOf_of_awaited given awaits later
  have registry := registry_of_awaited given awaits later
  rw [ends] at effects
  rw [ends, wakes, counted] at registry
  refine ⟨effects.trans (congrArg (look?.elim []) (funext fun now => ?_)), registry, ?_⟩
  · rw [counted]
    rfl
  rintro start now started looked ⟨delay, promises, in_time⟩
  have passed : time start ≤ now.clock := by
    simp only [look?, started, Option.bind_some] at looked
    exact le_clock_of_firstStep? looked
  have first : time start = model.clock + delay := by
    simp only [time, Promise.lookedForAt, promises, Option.elim_some]
    omega
  simp only [Promise.hasComeBy, promises, Option.any_some, decide_eq_true_eq]
  omega

/-- A change is shown, and a provider is registered. -/
def shownMoves : List Move :=
  [.host (.loadChange ((ChangeInfo.ofNumber 42 "tools").addRevision "first" 1 "")),
    .operation (.register "ci" (fun _ _ _ => .never) none)]

/-- A button with a callback. -/
def rerun : Action :=
  { name := "Rerun", callback := some "rerun" }

/-- A result that comes in time and asks for a reload. -/
def rerunPromise : Promise :=
  ⟨some 2000, { message := some "scheduled", shouldReload := true }⟩

/-- A result that comes after the timeout. -/
def latePromise : Promise :=
  ⟨some 6000, { message := some "late" }⟩

/-- The model once the button has been pressed. -/
def rerunning (promise : Promise) : Model :=
  (((create {} {}).run shownMoves).perform (.trigger rerun none fun _ => some promise)).2

/-- A result that comes in time is noticed, and the reload is requested. A late one is noticed if the action's task
starts late, and not if it starts at once and looks in between. A callback that promises nothing is called, and without
a change there is nothing to trigger. -/
theorem action_effects_rerun :
    (rerunning rerunPromise).effectsOf 0 [.task (.action 0), .elapse 2000, .task (.action 0)] =
      [.noticed (.alert "scheduled")] ∧
    (((rerunning rerunPromise).run [.task (.action 0), .elapse 2000]).move (.task (.action 0))).registry =
      ((rerunning rerunPromise).run [.task (.action 0), .elapse 2000]).reloadAll.registry ∧
    (rerunning latePromise).effectsOf 0 [.elapse 5500, .task (.action 0), .elapse 500, .task (.action 0)] =
      [.noticed (.alert "late")] ∧
    (rerunning latePromise).effectsOf 0
      [.task (.action 0), .elapse 5000, .task (.action 0), .elapse 1000, .task (.action 0)] = [] ∧
    (((create {} {}).run shownMoves).perform (.trigger rerun none fun _ => none)).1 = .flag false ∧
    ((create {} {}).perform (.trigger rerun none fun _ => some rerunPromise)).1 = .flag false := by
  obtain ⟨_, _, awaited⟩ := action_effects {} {} shownMoves rerun none fun _ => some rerunPromise
  obtain ⟨_, _, awaitedLate⟩ := action_effects {} {} shownMoves rerun none fun _ => some latePromise
  obtain ⟨_, _, unpromised⟩ := action_effects {} {} shownMoves rerun none fun _ => none
  obtain ⟨missing, _, _⟩ := action_effects {} {} [] rerun none fun _ => some rerunPromise
  obtain ⟨_, _, _, looks⟩ := (awaited 42 1 rfl rfl rfl).2 rerunPromise rfl
  obtain ⟨_, _, _, looksLate⟩ := (awaitedLate 42 1 rfl rfl rfl).2 latePromise rfl
  refine ⟨?_, ?_, ?_, ?_, ?_, ?_⟩
  · exact (looks _).1.trans (by decide)
  · exact (looks [.task (.action 0), .elapse 2000]).2.1.trans (by decide)
  · exact (looksLate _).1.trans (by decide)
  · exact (looksLate _).1.trans (by decide)
  · rw [(unpromised 42 1 rfl rfl rfl).1 rfl]
  · exact congrArg Prod.fst (missing (.inr (.inl rfl)))

/-- The task of the action starts at once, and takes its next step when both the timeout and the result have come. -/
def lateMoves : List Move :=
  shownMoves ++ [.operation (.trigger rerun none fun _ => some latePromise), .task (.action 0), .elapse 7000,
    .task (.action 0)]

/-- The notice of a result does not follow only if the result comes before the timeout. -/
theorem not_noticed_only_in_time :
    ¬ (Effect.noticed (.alert "late") ∈ ((create {} {}).run lateMoves).log ↔
      latePromise.delay.any (· < ((create {} {}).run lateMoves).config.actionTimeout.toNat) = true ∧
        ((create {} {}).run lateMoves).life ≠ .dropped) := by
  decide

end Model

end ReviewChecks
