import ReviewChecks.Proofs.Model.Journal
import ReviewChecks.Proofs.Pipeline.History

/-! # Awaited actions

An action whose result is awaited has a number of its own, and a timeout that counts from the first step of its task. It
stays awaited until that task takes a step when the result has come or the timeout has passed, and then not any more
(`Model.awaited?_run`). So of all the steps of the task only this one has consequences: it may give a notice
(`Model.effectsOf_of_awaited`) and request a reload (`Model.registry_of_awaited`).
-/

namespace ReviewChecks

/-- Whether a move is a step of the task of the awaited action of a number. -/
def Move.isStepOf (number : Nat) : Move → Bool
  | .task (.action other) => other == number
  | _ => false

theorem Move.eq_of_isStepOf {number : Nat} {move : Move} (own : move.isStepOf number = true) :
    move = .task (.action number) := by
  unfold isStepOf at own
  split at own
  next other => rw [beq_iff_eq.mp own]
  next => cases own

namespace Model

variable {model : Model} {number : Nat}

/-- The awaited action of a number. -/
def awaited? (model : Model) (number : Nat) : Option PendingAction :=
  model.pending.find? (·.number = number)

/-- The action that is awaited once its callback has promised a result. -/
def awaiting (model : Model) (invocation : ActionInvocation) (promise : Promise) : PendingAction where
  number := model.triggered
  checkName := invocation.checkName
  due := promise.delay.map (model.clock + ·)
  timeout := model.config.actionTimeout.toNat
  result := promise.result

/-- Whether the result of an awaited action counts: it has come, and somebody still holds the model. -/
def counts (model : Model) (pending : PendingAction) : Bool :=
  pending.hasResult model.clock && model.life != .dropped

/-- The task of an action that is not awaited, or is waited for already and not due yet, has nothing to do. -/
theorem stepAction_of_idle (idle : ∀ pending ∈ model.awaited? number, pending.isReady model.clock = false) :
    model.stepAction number = model := by
  unfold stepAction
  split
  · rfl
  next pending found =>
    obtain ⟨started, undue⟩ := Bool.or_eq_false_iff.mp (idle pending found)
    rw [if_neg (of_decide_eq_false undue), started]
    rfl

private theorem registry_reloadForCheck_record (model : Model) (pending : List PendingAction) (effects : List Effect)
    (checkName : Option String) :
    ((record { model with pending } effects).reloadForCheck checkName).registry =
      (model.reloadForCheck checkName).registry := by
  unfold reloadForCheck
  cases checkName with
  | none => rfl
  | some name =>
    dsimp only [record]
    split <;> rfl

/-- Once it is due, the task ends the wait, and requests a reload if a result that counts asks for one. -/
theorem stepAction_of_due {pending : PendingAction} (awaits : model.awaited? number = some pending)
    (due : pending.wakesAt model.clock ≤ model.clock) :
    (model.stepAction number).pending = model.pending.filter (·.number ≠ number) ∧
      (model.stepAction number).triggered = model.triggered ∧
      (model.stepAction number).registry =
        if model.counts pending && pending.result.shouldReload then
          (model.reloadForCheck pending.checkName).registry
        else model.registry := by
  have step : model.stepAction number =
      if model.counts pending then
        { model with pending := model.pending.filter (·.number ≠ number) }.handleResult pending
      else { model with pending := model.pending.filter (·.number ≠ number) } := by
    rw [awaited?] at awaits
    simp only [stepAction, awaits, due, ↓reduceIte]
    rfl
  rw [step]
  cases model.counts pending with
  | false => exact ⟨rfl, rfl, rfl⟩
  | true =>
    rw [if_pos rfl, handleResult]
    cases pending.result.shouldReload with
    | false => exact ⟨rfl, rfl, rfl⟩
    | true =>
      exact ⟨reloadForCheck_eq Model.pending _ (fun _ => rfl) _, reloadForCheck_eq Model.triggered _ (fun _ => rfl) _,
        registry_reloadForCheck_record ..⟩

/-- Before it is due, the task is started by its first step. -/
theorem stepAction_of_undue {pending : PendingAction} (awaits : model.awaited? number = some pending)
    (undue : ¬ pending.wakesAt model.clock ≤ model.clock) :
    model.stepAction number = if pending.startedAt.isNone then model.startAction number else model := by
  rw [awaited?] at awaits
  simp only [stepAction, awaits, undue, ↓reduceIte]

theorem awaited?_startAction (model : Model) (starting number : Nat) :
    (model.startAction starting).awaited? number =
      (model.awaited? number).map fun pending => if starting = number then pending.start model.clock else pending := by
  have numbered (held : PendingAction) :
      (if held.number = starting then held.start model.clock else held).number = held.number := by
    split <;> rfl
  simp only [awaited?, startAction, List.find?_map, Function.comp_def, numbered]
  cases found : model.pending.find? (·.number = number) with
  | none => rfl
  | some pending =>
    have own : pending.number = number := by simpa using List.find?_some found
    simp only [Option.map_some, own, eq_comm]

/-- Whether a move ends the wait for the result of the action of a number. -/
def concludes (model : Model) (number : Nat) (move : Move) : Bool :=
  move.isStepOf number && (model.awaited? number).any fun pending => pending.wakesAt model.clock ≤ model.clock

theorem concludes_of_not_isStepOf {move : Move} (other : move.isStepOf number = false) :
    model.concludes number move = false := by
  rw [concludes, other, Bool.false_and]

/-- What a move makes of the awaited actions, and of how many there have been. -/
inductive Awaits (model : Model) (move : Move) : List PendingAction → Nat → Prop
  | kept (unconcluded : ∀ number, model.concludes number move = false)
      (started : ∀ number, move.isStepOf number → ∀ pending ∈ model.awaited? number, pending.startedAt.isSome) :
      Awaits model move model.pending model.triggered
  | added (invocation : ActionInvocation) (promise : Promise) (aside : ∀ number, move.isStepOf number = false) :
      Awaits model move (model.pending ++ [model.awaiting invocation promise]) (model.triggered + 1)
  | started (number : Nat) (own : move.isStepOf number) (unconcluded : model.concludes number move = false) :
      Awaits model move (model.startAction number).pending model.triggered
  | ended (number : Nat) (concludes : model.concludes number move = true) :
      Awaits model move (model.pending.filter (·.number ≠ number)) model.triggered

theorem Awaits.of_aside {move : Move} (aside : ∀ number, move.isStepOf number = false) :
    Awaits model move model.pending model.triggered :=
  .kept (fun number => concludes_of_not_isStepOf (aside number))
    fun number own => absurd own (Bool.eq_false_iff.mp (aside number))

private theorem awaits_trigger (model : Model) (action : Action) (run : Option RunInfo)
    (callback : ActionInvocation → Option Promise) :
    Awaits model (.operation (.trigger action run callback)) (model.trigger action run callback).2.pending
      (model.trigger action run callback).2.triggered := by
  unfold trigger
  split
  · exact .of_aside fun _ => rfl
  next invocation _ =>
    dsimp only
    split
    · exact .of_aside fun _ => rfl
    next promise _ => exact .added invocation promise fun _ => rfl

private theorem awaits_of_idle (idle : ∀ pending ∈ model.awaited? number, pending.isReady model.clock = false) :
    Awaits model (.task (.action number)) model.pending model.triggered := by
  refine .kept (fun other => Bool.eq_false_iff.mpr fun concluded => ?_) fun other own pending awaits => ?_
  · obtain ⟨own, due⟩ := Bool.and_eq_true_iff.mp concluded
    obtain rfl : number = other := beq_iff_eq.mp own
    obtain ⟨pending, awaits, due⟩ := (Option.any_eq_true ..).mp due
    exact of_decide_eq_false (Bool.or_eq_false_iff.mp (idle pending awaits)).2 (of_decide_eq_true due)
  · obtain rfl : number = other := beq_iff_eq.mp own
    exact Option.isNone_eq_false_iff.mp (Bool.or_eq_false_iff.mp (idle pending awaits)).1

private theorem awaits_stepAction (model : Model) (number : Nat) :
    Awaits model (.task (.action number)) (model.stepAction number).pending (model.stepAction number).triggered := by
  by_cases idle : ∀ pending ∈ model.awaited? number, pending.isReady model.clock = false
  · rw [stepAction_of_idle idle]
    exact awaits_of_idle idle
  simp only [not_forall, Bool.not_eq_false] at idle
  obtain ⟨pending, awaits, ready⟩ := idle
  by_cases due : pending.wakesAt model.clock ≤ model.clock
  · obtain ⟨rest, same, _⟩ := stepAction_of_due awaits due
    rw [rest, same]
    exact .ended number (by simpa [concludes, Move.isStepOf, Option.mem_def.mp awaits] using due)
  · have unstarted : pending.startedAt.isNone = true :=
      (Bool.or_eq_true_iff.mp ready).resolve_right (by simpa using due)
    rw [stepAction_of_undue awaits due, if_pos unstarted]
    exact .started number (beq_self_eq_true number)
      (by simpa [concludes, Move.isStepOf, Option.mem_def.mp awaits] using due)

/-- Awaited actions come by triggers; the steps of their tasks start them, and make them go. -/
theorem awaits_move (model : Model) (move : Move) :
    Awaits model move (model.move move).pending (model.move move).triggered := by
  cases move using Move.casesSilent with
  | silent move silent =>
    obtain ⟨_, _, pending, triggered⟩ := model.of_isSilent silent
    rw [pending, triggered]
    refine .of_aside fun number => Bool.eq_false_iff.mpr fun own => ?_
    rw [Move.eq_of_isStepOf own] at silent
    exact silent
  | trigger action run callback => exact awaits_trigger model action run callback
  | pipeline index =>
    have same : (model.stepPipeline index).pending = model.pending ∧
        (model.stepPipeline index).triggered = model.triggered := by
      unfold stepPipeline
      split <;> exact ⟨rfl, rfl⟩
    simp only [Model.move, runTask, same]
    exact .of_aside fun _ => rfl
  | action number => exact awaits_stepAction model number

/-- Awaited actions have the numbers that have been given. -/
def NumbersAwaited (model : Model) : Prop :=
  ∀ pending ∈ model.pending, pending.number < model.triggered

theorem NumbersAwaited.move (numbers : model.NumbersAwaited) (move : Move) : (model.move move).NumbersAwaited := by
  have awaits := model.awaits_move move
  unfold NumbersAwaited
  generalize (model.move move).pending = pending at awaits ⊢
  generalize (model.move move).triggered = triggered at awaits ⊢
  cases awaits with
  | kept _ _ => exact numbers
  | added invocation promise _ =>
    intro pending member
    rcases List.mem_append.mp member with old | new
    · exact Nat.lt_succ_of_lt (numbers pending old)
    · rw [List.mem_singleton.mp new]
      exact Nat.lt_succ_self _
  | started starting _ _ =>
    intro pending member
    obtain ⟨held, old, rfl⟩ := List.mem_map.mp member
    split <;> exact numbers held old
  | ended _ _ => exact fun pending member => numbers pending (List.mem_of_mem_filter member)

theorem numbersAwaited_run (host : Host) (config : ModelConfig) (moves : List Move) :
    ((create host config).run moves).NumbersAwaited := by
  induction moves using List.reverseRecOn with
  | nil => exact fun _ member => nomatch member
  | append_singleton moves move ih =>
    rw [run_concat]
    exact ih.move move

private theorem find?_filter_self (pending : List PendingAction) (number : Nat) :
    (pending.filter (·.number ≠ number)).find? (·.number = number) = none := by
  simp [List.find?_eq_none]

private theorem find?_filter_ne (pending : List PendingAction) {ending number : Nat} (other : ending ≠ number) :
    (pending.filter (·.number ≠ ending)).find? (·.number = number) = pending.find? (·.number = number) := by
  rw [List.find?_filter]
  refine congrArg (List.find? · pending) (funext fun one => decide_eq_decide.mpr ?_)
  simp only [decide_eq_true_eq, and_iff_right_iff_imp]
  rintro rfl
  exact other.symm

/-- What is awaited under a number that has been given stays awaited until its wait ends, and does not come back. The
steps of its task do nothing to it but start it. -/
theorem awaited?_move (given : number < model.triggered) (move : Move) :
    number < (model.move move).triggered ∧
      (model.move move).awaited? number =
        if model.concludes number move then none
        else (model.awaited? number).map fun pending =>
          if move.isStepOf number then pending.start model.clock else pending := by
  have awaits := model.awaits_move move
  unfold awaited?
  generalize (model.move move).pending = pending at awaits ⊢
  generalize (model.move move).triggered = triggered at awaits ⊢
  cases awaits with
  | kept unconcluded started =>
    rw [unconcluded, if_neg Bool.false_ne_true]
    refine ⟨given, ?_⟩
    cases found : model.pending.find? (·.number = number) with
    | none => rfl
    | some held =>
      rw [Option.map_some]
      split
      next own => rw [PendingAction.start_of_isSome (started number own held found)]
      next => rfl
  | added invocation promise aside =>
    have other : model.triggered ≠ number := Nat.ne_of_gt given
    rw [concludes_of_not_isStepOf (aside number), aside, List.find?_append]
    refine ⟨Nat.lt_succ_of_lt given, ?_⟩
    simp [awaiting, other]
  | started starting own unconcluded =>
    obtain rfl := Move.eq_of_isStepOf own
    refine ⟨given, (model.awaited?_startAction starting number).trans ?_⟩
    by_cases same : starting = number
    · rw [← same, unconcluded, own]
      simp only [↓reduceIte, Bool.false_eq_true]
      rfl
    · have aside : Move.isStepOf number (.task (.action starting)) = false := beq_false_of_ne same
      rw [concludes_of_not_isStepOf aside, aside]
      simp only [same, ↓reduceIte, Bool.false_eq_true]
      rfl
  | ended ending concluded =>
    obtain rfl := Move.eq_of_isStepOf (Bool.and_eq_true_iff.mp concluded).1
    refine ⟨given, ?_⟩
    by_cases same : ending = number
    · rw [← same, concluded, if_pos rfl, find?_filter_self]
    · have aside : Move.isStepOf number (.task (.action ending)) = false := beq_false_of_ne same
      rw [concludes_of_not_isStepOf aside, aside, find?_filter_ne _ same]
      simp only [Bool.false_eq_true, ↓reduceIte, Option.map_id_fun', id_eq]

/-- What the task of the action of a number adds to the log in a run, the oldest first. -/
def effectsOf (number : Nat) : Model → List Move → List Effect
  | _, [] => []
  | model, move :: rest =>
    (if move.isStepOf number then model.logged move else []) ++ effectsOf number (model.move move) rest

/-- The model in which the task of the action of a number takes its first step from some time on. -/
def firstStep? (number time : Nat) : Model → List Move → Option Model
  | _, [] => none
  | model, move :: rest =>
    if move.isStepOf number && decide (time ≤ model.clock) then some model
    else firstStep? number time (model.move move) rest

/-- The model in which the wait for the result of an action ends in a run. When it does is settled by the first step of
the action's task, from which the timeout counts. -/
def endOfWait? (number : Nat) (pending : PendingAction) (model : Model) (moves : List Move) : Option Model :=
  (model.firstStep? number 0 moves).bind fun start => model.firstStep? number (pending.wakesAt start.clock) moves

theorem le_clock_of_firstStep? {time : Nat} {moves : List Move} {now : Model}
    (stepped : model.firstStep? number time moves = some now) : time ≤ now.clock := by
  induction moves generalizing model with
  | nil => cases stepped
  | cons move rest ih =>
    rw [firstStep?] at stepped
    split at stepped
    next first =>
      rw [← Option.some.inj stepped]
      exact of_decide_eq_true (Bool.and_eq_true_iff.mp first).2
    next => exact ih stepped

/-- A step from some time on is a step. -/
theorem firstStep?_zero_bind (model : Model) (number time : Nat) (moves : List Move) :
    ((model.firstStep? number 0 moves).bind fun _ => model.firstStep? number time moves) =
      model.firstStep? number time moves := by
  induction moves generalizing model with
  | nil => rfl
  | cons move rest ih =>
    simp only [firstStep?, Nat.zero_le, decide_true, Bool.and_true]
    cases move.isStepOf number with
    | true => rfl
    | false => exact ih (model.move move)

/-- A step of the task ends the wait or settles when it ends. -/
theorem endOfWait?_cons (model : Model) (pending : PendingAction) (move : Move) (rest : List Move) :
    model.endOfWait? number pending (move :: rest) =
      if move.isStepOf number then
        if pending.wakesAt model.clock ≤ model.clock then some model
        else (model.move move).endOfWait? number (pending.start model.clock) rest
      else (model.move move).endOfWait? number pending rest := by
  simp only [endOfWait?, firstStep?, Nat.zero_le, decide_true, Bool.and_true]
  cases move.isStepOf number with
  | false => rfl
  | true =>
    simp only [↓reduceIte, Option.bind_some, Bool.true_and, decide_eq_true_eq, PendingAction.wakesAt_start,
      firstStep?_zero_bind]

theorem logged_of_awaited {pending : PendingAction} (awaits : model.awaited? number = some pending) :
    model.logged (.task (.action number)) =
      if decide (pending.wakesAt model.clock ≤ model.clock) && model.counts pending then
        [.noticed (resultNotice pending.result)]
      else [] := by
  rw [awaited?] at awaits
  simp only [logged, awaits, counts, Bool.and_eq_true, decide_eq_true_eq, bne_iff_ne]

theorem concludes_iff {pending : PendingAction} (awaits : model.awaited? number = some pending) :
    model.concludes number (.task (.action number)) = true ↔ pending.wakesAt model.clock ≤ model.clock := by
  simp [concludes, Move.isStepOf, awaits]

/-- What a step of the task makes of an awaited action. -/
theorem awaited?_step {pending : PendingAction} (given : number < model.triggered)
    (awaits : model.awaited? number = some pending) :
    (model.move (.task (.action number))).awaited? number =
      if pending.wakesAt model.clock ≤ model.clock then none else some (pending.start model.clock) := by
  have own : Move.isStepOf number (.task (.action number)) = true := beq_self_eq_true number
  rw [(awaited?_move given _).2, awaits, own]
  simp only [concludes_iff awaits, Option.map_some, ↓reduceIte]

theorem awaited?_aside {pending : PendingAction} (given : number < model.triggered)
    (awaits : model.awaited? number = some pending) {move : Move} (aside : move.isStepOf number = false) :
    (model.move move).awaited? number = some pending := by
  rw [(awaited?_move given move).2, concludes_of_not_isStepOf aside, awaits, aside]
  rfl

theorem awaited?_move_of_absent (given : number < model.triggered) (absent : model.awaited? number = none)
    (move : Move) : (model.move move).awaited? number = none := by
  rw [(awaited?_move given move).2, absent, Option.map_none, ite_self]

/-- The task of an action that is not awaited any more adds nothing to the log. -/
theorem effectsOf_of_absent (given : number < model.triggered) (absent : model.awaited? number = none)
    (moves : List Move) : model.effectsOf number moves = [] := by
  induction moves generalizing model with
  | nil => rfl
  | cons move rest ih =>
    rw [effectsOf, ih (awaited?_move given move).1 (awaited?_move_of_absent given absent move), List.append_nil]
    split
    next own => rw [Move.eq_of_isStepOf own, logged, ← awaited?, absent]
    next => rfl

/-- The task of an awaited action adds one notice to the log: when the wait ends, and if the result counts then. -/
theorem effectsOf_of_awaited {pending : PendingAction} (given : number < model.triggered)
    (awaits : model.awaited? number = some pending) (moves : List Move) :
    model.effectsOf number moves =
      (model.endOfWait? number pending moves).elim [] fun now =>
        if now.counts pending then [.noticed (resultNotice pending.result)] else [] := by
  induction moves generalizing model pending with
  | nil => rfl
  | cons move rest ih =>
    have later := (awaited?_move given move).1
    rw [effectsOf, endOfWait?_cons]
    cases own : move.isStepOf number with
    | false => exact ih later (awaited?_aside given awaits own)
    | true =>
      obtain rfl := Move.eq_of_isStepOf own
      have still := awaited?_step given awaits
      by_cases due : pending.wakesAt model.clock ≤ model.clock
      · rw [if_pos due] at still
        rw [effectsOf_of_absent later still, logged_of_awaited awaits]
        simp [due]
      · rw [if_neg due] at still
        rw [ih later still, logged_of_awaited awaits]
        simp only [due, decide_false, Bool.false_and, Bool.false_eq_true, ↓reduceIte, List.nil_append]
        rfl

theorem awaited?_run_of_absent (given : number < model.triggered) (absent : model.awaited? number = none)
    (moves : List Move) : (model.run moves).awaited? number = none := by
  induction moves generalizing model with
  | nil => exact absent
  | cons move rest ih => exact ih (awaited?_move given move).1 (awaited?_move_of_absent given absent move)

/-- An action is awaited until its wait ends; the first step of its task starts it. -/
theorem awaited?_run {pending : PendingAction} (given : number < model.triggered)
    (awaits : model.awaited? number = some pending) (moves : List Move) :
    (model.run moves).awaited? number =
      if (model.endOfWait? number pending moves).isSome then none
      else some ((model.firstStep? number 0 moves).elim pending fun start => pending.start start.clock) := by
  induction moves generalizing model pending with
  | nil => exact awaits
  | cons move rest ih =>
    have later := (awaited?_move given move).1
    change ((model.move move).run rest).awaited? number = _
    rw [endOfWait?_cons, firstStep?]
    cases own : move.isStepOf number with
    | false => exact ih later (awaited?_aside given awaits own)
    | true =>
      obtain rfl := Move.eq_of_isStepOf own
      have still := awaited?_step given awaits
      by_cases due : pending.wakesAt model.clock ≤ model.clock
      · rw [if_pos due] at still
        simp only [awaited?_run_of_absent later still rest, due, ↓reduceIte, Option.isSome_some]
      · rw [if_neg due] at still
        rw [ih later still]
        have started (next : Option Model) :
            (next.elim (pending.start model.clock) fun _ => pending.start model.clock) = pending.start model.clock := by
          cases next <;> rfl
        simp only [due, ↓reduceIte, PendingAction.start_start, started, Nat.zero_le, decide_true, Bool.and_true,
          Option.elim_some]

/-- A step of the task requests a reload if it ends the wait, and the result counts then and asks for one. -/
theorem registry_stepAction {pending : PendingAction} (awaits : model.awaited? number = some pending) :
    (model.stepAction number).registry =
      if decide (pending.wakesAt model.clock ≤ model.clock) &&
          (model.counts pending && pending.result.shouldReload) then
        (model.reloadForCheck pending.checkName).registry
      else model.registry := by
  by_cases due : pending.wakesAt model.clock ≤ model.clock
  · rw [(stepAction_of_due awaits due).2.2, decide_eq_true due, Bool.true_and]
  · rw [stepAction_of_undue awaits due, decide_eq_false due]
    split <;> rfl

/-- The task of an awaited action requests a reload when the wait ends, if the result counts then and asks for one. -/
theorem registry_of_awaited {pending : PendingAction} (given : number < model.triggered)
    (awaits : model.awaited? number = some pending) (moves : List Move) :
    ((model.run moves).stepAction number).registry =
      if (model.endOfWait? number pending moves).isNone &&
          decide (pending.wakesAt ((model.firstStep? number 0 moves).getD (model.run moves)).clock ≤
            (model.run moves).clock) &&
          ((model.run moves).counts pending && pending.result.shouldReload) then
        ((model.run moves).reloadForCheck pending.checkName).registry
      else (model.run moves).registry := by
  have still := awaited?_run given awaits moves
  cases ended : model.endOfWait? number pending moves with
  | some _ =>
    rw [ended] at still
    rw [stepAction_of_idle (by rw [still]; exact fun _ absent => nomatch absent)]
    rfl
  | none =>
    rw [ended] at still
    rw [registry_stepAction still]
    cases model.firstStep? number 0 moves <;> rfl

end Model

end ReviewChecks
