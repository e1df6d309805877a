import ReviewChecks.Proofs.Model.Precedence
import ReviewChecks.Proofs.Pipeline.Succession

/-! # The pin

The latest patchset is followed, not pinned. Two parties keep the pin in line with it: whoever sets a pin compares it
with the patchset that is the latest just then, and the following task looks at the pin again once the latest patchset
has changed. The task may come late, so that the pin can be the latest patchset for a while; but only as long as there
is a change that the task has not looked at (`Model.PinReconciled`). Nothing else touches the pin
(`Model.pin_move`).
-/

namespace ReviewChecks

/-- What a mutation makes of the pin. -/
def Mutation.pinAfter (pin : Option UInt32) : Mutation → Option UInt32
  | .setPin patchset => patchset
  | .normalizePin latest => if latest = none ∨ latest = pin then none else pin
  | _ => pin

theorem Mutation.pinAfter_of_target? {mutation : Mutation} {target : String × PatchsetContext}
    (aimed : mutation.target? = some target) (pin : Option UInt32) : mutation.pinAfter pin = pin := by
  cases mutation with
  | setPin | normalizePin => cases aimed
  | register | remove | startLoading | fail | requireLogin | load | push => rfl

namespace Store

private theorem pin_ofBoth? (board : Board) (stamp : Nat) (latest selected : Option Entries)
    {replacement : Replacement} (comes : Replacement.ofBoth? latest selected = some replacement) :
    (replacement.applyTo stamp board).pin = board.pin := by
  unfold Replacement.ofBoth? at comes
  split at comes
  · obtain rfl := Option.some.inj comes
    rfl
  · cases comes

private theorem pin_replaceEntry (board : Board) (stamp : Nat) (plugin : String) (context : PatchsetContext)
    (change : Entry → Entry) :
    ((Mutation.replaceEntry board plugin context change).applyTo stamp board).pin = board.pin := by
  cases context <;> rfl

theorem pin_apply (store : Store) (mutation : Mutation) :
    (store.apply mutation).board.pin = mutation.pinAfter store.board.pin := by
  unfold apply publish?
  cases mutation with
  | register | startLoading | fail | requireLogin | load => exact pin_replaceEntry ..
  | remove | push =>
    dsimp only [Mutation.replacement?]
    cases comes : Replacement.ofBoth? _ _ with
    | none => rfl
    | some replacement => exact pin_ofBoth? _ _ _ _ comes
  | setPin patchset =>
    by_cases same : store.board.pin = patchset
    · simp [Mutation.replacement?, Mutation.pinAfter, same]
    · simp [Mutation.replacement?, Mutation.pinAfter, same, Replacement.applyTo]
  | normalizePin latest =>
    cases pinned : store.board.pin with
    | none => simp [Mutation.replacement?, Mutation.pinAfter, pinned]
    | some patchset =>
      cases latest with
      | none => simp [Mutation.replacement?, Mutation.pinAfter, pinned, Replacement.applyTo]
      | some latest =>
        by_cases same : patchset = latest
        · simp [Mutation.replacement?, Mutation.pinAfter, pinned, same, Replacement.applyTo]
        · simp [Mutation.replacement?, Mutation.pinAfter, pinned, same, Ne.symm same]

/-- Mutations that are about single entries leave the pin alone. -/
theorem pin_applyAll_of_target? (store : Store) {mutations : List Mutation}
    (aimed : ∀ mutation ∈ mutations, ∃ target, mutation.target? = some target) :
    (store.applyAll mutations).board.pin = store.board.pin := by
  induction mutations generalizing store with
  | nil => rfl
  | cons mutation rest ih =>
    obtain ⟨target, own⟩ := aimed mutation (List.mem_cons_self ..)
    have others := ih (store.apply mutation) fun other member => aimed other (List.mem_cons_of_mem _ member)
    rw [pin_apply, Mutation.pinAfter_of_target? own] at others
    exact others

end Store

namespace Model

/-- The latest patchset is not pinned. -/
theorem normalized_ne {patchset latest : Option UInt32} {pinned : UInt32}
    (pins : normalized patchset latest = some pinned) : latest ≠ some pinned := by
  intro same
  unfold normalized at pins
  split at pins
  next => cases pins
  next other =>
    rw [pins, same] at other
    exact other ⟨rfl, rfl⟩

/-- The pin after a move: it is set by request and after the router's patchset, and dropped if the latest patchset has
changed to it or has gone. -/
def pinAfter (model : Model) : Move → Option UInt32
  | .operation (.setPatchset patchset) => normalized patchset model.host.latestPatchset.value
  | .task .followRouter =>
    if model.routerChanged = true ∧ model.life ≠ .dropped then
      normalized model.host.routerPatchset.value model.host.latestPatchset.value
    else model.store.board.pin
  | .task .followLatest =>
    if model.latestChanged = true ∧ model.life ≠ .dropped then
      Mutation.pinAfter model.store.board.pin (.normalizePin model.host.latestPatchset.value)
    else model.store.board.pin
  | _ => model.store.board.pin

theorem target?_of_mem_written_pipeline {model : Model} {index : Nat} {mutation : Mutation}
    (member : mutation ∈ model.written (.task (.pipeline index))) : ∃ target, mutation.target? = some target := by
  cases at_index : model.pipelines[index]? with
  | none =>
    simp only [written, at_index] at member
    cases member
  | some pipeline =>
    simp only [written, at_index] at member
    split at member
    · exact ⟨_, Turn.target?_of_mem_writes ⟨model.scene pipeline, pipeline⟩ member⟩
    · cases member

/-- The pin changes only where it is set and where the latest patchset makes it needless. -/
theorem pin_move (model : Model) (move : Move) : (model.move move).store.board.pin = model.pinAfter move := by
  rw [(model.moved move).store]
  cases move with
  | operation operation =>
    cases operation with
    | register plugin provider settings =>
      refine model.store.pin_applyAll_of_target? fun mutation member => ?_
      simp only [written] at member
      split at member
      · obtain ⟨context, _, rfl⟩ := List.mem_map.mp member
        exact ⟨_, rfl⟩
      · cases member
    | unregister plugin =>
      simp only [written, pinAfter]
      split
      · exact Store.pin_apply ..
      · rfl
    | updateResult | setPatchset => exact Store.pin_apply ..
    | reload | reloadAll | reloadForCheck | trigger | shutdown | drop => rfl
  | task task =>
    cases task with
    | pipeline index =>
      exact model.store.pin_applyAll_of_target? fun mutation member => target?_of_mem_written_pipeline member
    | followRouter =>
      simp only [written, pinAfter, Bool.and_eq_true, decide_eq_true_eq]
      split
      · exact Store.pin_apply ..
      · rfl
    | followLatest =>
      simp only [written, pinAfter, Bool.and_eq_true, decide_eq_true_eq]
      split
      · exact Store.pin_apply ..
      · rfl
    | stopFollowing | relayReload | stopRelaying | action => rfl
  | host | answer | elapse => rfl

/-- A move other than that of the following task about the latest patchset leaves the pin alone or sets one that has
been compared with the latest patchset. -/
theorem pinAfter_eq_or (model : Model) {move : Move} (other : move ≠ .task .followLatest) :
    model.pinAfter move = model.store.board.pin ∨
      ∃ patchset, model.pinAfter move = normalized patchset model.host.latestPatchset.value := by
  unfold pinAfter
  split
  next patchset => exact .inr ⟨patchset, rfl⟩
  next =>
    split
    · exact .inr ⟨_, rfl⟩
    · exact .inl rfl
  next => exact (other rfl).elim
  next => exact .inl rfl

/-- The pin, if there is one, is not the latest patchset. -/
def PinIsNormal (model : Model) : Prop :=
  ∀ patchset, model.store.board.pin = some patchset → model.host.latestPatchset.value ≠ some patchset

/-- Whoever still holds a model sees a pin that is the latest patchset only while the following task has yet to look
at a change of the latest patchset. -/
structure PinReconciled (model : Model) : Prop where
  seen : model.seenLatestPatchset ≤ model.host.latestPatchset.changes
  normal : model.life ≠ .dropped → model.seenLatestPatchset = model.host.latestPatchset.changes → model.PinIsNormal

theorem pinReconciled_create (host : Host) (config : ModelConfig) : (create host config).PinReconciled where
  seen := Nat.le_refl _
  normal _ _ patchset pinned := by
    simp only [create, setPatchset, Store.pin_apply, Mutation.pinAfter] at pinned
    exact normalized_ne pinned

/-- Nobody gets hold of a model again that was let go of. -/
theorem life_ne_dropped_of_move {model : Model} {move : Move} (held : (model.move move).life ≠ .dropped) :
    model.life ≠ .dropped := by
  rw [(model.moved move).life] at held
  intro dropped
  unfold lifeAfter at held
  split at held
  · simp [dropped] at held
  · exact held rfl
  · exact held dropped

theorem seenLatestAfter_of_ne {model : Model} {move : Move} (other : move ≠ .task .followLatest) :
    model.seenLatestAfter move = model.seenLatestPatchset := by
  unfold seenLatestAfter
  split
  · exact (other rfl).elim
  · rfl

/-- Any move but the look at the latest patchset: without a further change of that, the pin stays or is compared
anew. -/
theorem PinReconciled.move_of_ne {model : Model} (reconciled : model.PinReconciled) {move : Move}
    (other : move ≠ .task .followLatest) : (model.move move).PinReconciled := by
  have moved := model.moved move
  have grown := (model.host_precedes_move move).latestPatchset
  have seen : (model.move move).seenLatestPatchset = model.seenLatestPatchset :=
    moved.seenLatest.trans (seenLatestAfter_of_ne other)
  constructor
  · rw [seen]
    exact Nat.le_trans reconciled.seen grown.changes
  · intro held current
    rw [seen] at current
    have same := grown.eq_of_seen reconciled.seen current
    have before := reconciled.normal (life_ne_dropped_of_move held) (by rw [current, same])
    intro patchset pinned
    rw [pin_move] at pinned
    rw [← same]
    rcases model.pinAfter_eq_or other with stays | ⟨asked, set⟩
    · exact before patchset (stays ▸ pinned)
    · exact normalized_ne (set ▸ pinned)

/-- A look at the latest patchset drops the pin if the two agree. -/
theorem PinReconciled.followLatest {model : Model} (reconciled : model.PinReconciled) :
    (model.move (.task .followLatest)).PinReconciled := by
  cases changed : model.latestChanged with
  | false =>
    have idle : model.move (.task .followLatest) = model := by
      simp only [Model.move, runTask, Model.followLatest, changed, Bool.false_eq_true, ↓reduceIte]
    rw [idle]
    exact reconciled
  | true =>
    have moved := model.moved (.task .followLatest)
    have host : (model.move (.task .followLatest)).host = model.host := moved.host
    constructor
    · have seen : (model.move (.task .followLatest)).seenLatestPatchset = model.host.latestPatchset.changes :=
        moved.seenLatest.trans (if_pos changed)
      exact Nat.le_of_eq (seen.trans (congrArg (·.latestPatchset.changes) host.symm))
    · intro held _ patchset pinned
      rw [pin_move, pinAfter, if_pos ⟨changed, life_ne_dropped_of_move held⟩, Mutation.pinAfter] at pinned
      rw [host]
      split at pinned
      next => cases pinned
      next differs =>
        rw [not_or] at differs
        intro same
        exact differs.2 (same.trans pinned.symm)

theorem PinReconciled.move {model : Model} (reconciled : model.PinReconciled) (move : Move) :
    (model.move move).PinReconciled := by
  by_cases follows : move = .task .followLatest
  · rw [follows]
    exact reconciled.followLatest
  · exact reconciled.move_of_ne follows

theorem PinReconciled.run {model : Model} (reconciled : model.PinReconciled) (moves : List Move) :
    (model.run moves).PinReconciled := by
  induction moves generalizing model with
  | nil => exact reconciled
  | cons move rest ih => exact ih (reconciled.move move)

/-- At every point of a run at which the following task has looked at every change of the latest patchset, the pin is
not the latest patchset. The pin changes only by being set, after a change of the router's patchset, and after a change
of the latest patchset to the pin or to nothing. -/
theorem pin_normal (host : Host) (config : ModelConfig) (moves : List Move) :
    let model := (create host config).run moves
    (model.life ≠ .dropped → model.seenLatestPatchset = model.host.latestPatchset.changes → model.PinIsNormal) ∧
    ∀ move, (model.move move).store.board.pin ≠ model.store.board.pin →
      (∃ patchset, move = .operation (.setPatchset patchset)) ∨
      (move = .task .followRouter ∧ model.routerChanged = true) ∨
      (move = .task .followLatest ∧ model.latestChanged = true ∧
        (model.host.latestPatchset.value = none ∨ model.host.latestPatchset.value = model.store.board.pin)) := by
  intro model
  refine ⟨((pinReconciled_create host config).run moves).normal, fun move changes => ?_⟩
  rw [pin_move] at changes
  unfold pinAfter at changes
  split at changes
  next patchset => exact .inl ⟨patchset, rfl⟩
  next =>
    split at changes
    next handled => exact .inr (.inl ⟨rfl, handled.1⟩)
    next => exact (changes rfl).elim
  next =>
    split at changes
    next handled =>
      rw [Mutation.pinAfter] at changes
      split at changes
      next needless => exact .inr (.inr ⟨rfl, handled.1, needless⟩)
      next => exact (changes rfl).elim
    next => exact (changes rfl).elim
  next => exact (changes rfl).elim

/-- The address asks for a patchset before the change has loaded. -/
def earlyPinHost : Host where
  routerPatchset := ⟨some 3, 1⟩

/-- The change loads, and the patchset that was asked for turns out to be the latest one; until the following task
comes, it stays pinned. Then another patchset is pinned. -/
theorem pin_normal_loaded :
    let pinned := (create earlyPinHost {}).run [.host (.setLatestPatchset (some 3))]
    let settled := pinned.run [.task .followLatest, .operation (.setPatchset (some 2))]
    pinned.store.board.pin = some 3 ∧
      (pinned.host.latestPatchset.value = none ∨ pinned.host.latestPatchset.value = pinned.store.board.pin) ∧
      settled.store.board.pin = some 2 ∧ settled.PinIsNormal := by
  intro pinned settled
  refine ⟨by decide, ?_, by decide, ?_⟩
  · have changes : (pinned.move (.task .followLatest)).store.board.pin ≠ pinned.store.board.pin := by decide
    rcases (pin_normal earlyPinHost {} [.host (.setLatestPatchset (some 3))]).2 _ changes with
      ⟨_, other⟩ | ⟨other, _⟩ | ⟨_, _, needless⟩
    · cases other
    · cases other
    · exact needless
  · exact (pin_normal earlyPinHost {} [.host (.setLatestPatchset (some 3)), .task .followLatest,
      .operation (.setPatchset (some 2))]).1 (by decide) (by decide)

end Model

end ReviewChecks
