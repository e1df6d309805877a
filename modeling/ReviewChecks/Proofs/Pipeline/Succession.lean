import ReviewChecks.Proofs.Board.Locality
import ReviewChecks.Proofs.Pipeline.History

/-! # Fetches succeed each other

Only the newest fetch of a pipeline counts. What a run makes of older ones is read off its turns: once a turn has
displaced a fetch, the fetch is not under way again, so no later turn settles it and an answer to it reaches nobody.
Since everything that a turn writes and reports comes from a settled outcome or from its own trigger
(`Turn.accounts`), a displaced fetch leaves no trace, and a pipeline writes to its own entry only
(`Turn.target?_of_mem_writes`).
-/

namespace ReviewChecks

/-- The fetch that is under way is the one created last. -/
theorem UnderWay.getLast?_createdBy {turns : List Turn} {ticket : Nat × FetchRequest}
    (underWay : UnderWay turns ticket) : (createdBy turns).getLast? = some ticket.1 := by
  obtain ⟨earlier, turn, later, rfl, created, _, kept⟩ := underWay
  have none_later : later.filterMap Turn.created? = [] := by
    refine List.filterMap_eq_nil_iff.mpr fun other member => ?_
    cases comes : other.created? with
    | none => rfl
    | some number => exact (kept other member (.inl (Turn.replaces_of_created comes))).elim
  simp only [createdBy, List.filterMap_append, List.filterMap_cons, created, none_later, List.getLast?_append,
    List.getLast?_singleton, Option.some_or]

/-- Once a turn has displaced a fetch, it is not under way again. Numbers are given once, so that no later turn
creates it anew. -/
theorem not_underWay_of_displaced {earlier later : List Turn} {turn : Turn} {number : Nat}
    (nodup : (createdBy (earlier ++ turn :: later)).Nodup) (member : number ∈ createdBy earlier)
    (displaced : turn.Displaces number) (request : FetchRequest) :
    ¬ UnderWay (earlier ++ turn :: later) (number, request) := by
  induction later using List.reverseRecOn with
  | nil =>
    intro underWay
    rcases (underWay_concat earlier turn number request).mp underWay with ⟨created, _⟩ | ⟨_, kept⟩
    · rw [createdBy, List.filterMap_append, List.nodup_append] at nodup
      exact nodup.2.2 number member number (by simp [created]) rfl
    · exact kept displaced
  | append_singleton later last ih =>
    intro underWay
    rw [← List.cons_append, ← List.append_assoc] at underWay nodup
    rw [createdBy, List.filterMap_append, List.nodup_append] at nodup
    rcases (underWay_concat _ last number request).mp underWay with ⟨created, _⟩ | ⟨before, _⟩
    · refine nodup.2.2 number ?_ number (by simp [created]) rfl
      rw [List.filterMap_append]
      exact List.mem_append_left _ member
    · exact ih nodup.1 before

/-- What a turn writes and reports, and how it can end its pipeline: an outcome that is settled accounts for all of
it, else the trigger for the writes and a cancellation for the end. -/
theorem Turn.accounts (turn : Turn) :
    (∃ number outcome, turn.step.settled? = some (number, outcome) ∧
      turn.step.writes = (turn.pipeline.settle number outcome).writes ∧
      turn.step.reports = (turn.pipeline.settle number outcome).reports) ∨
    (turn.step.settled? = none ∧ turn.step.reports = [] ∧
      turn.step.writes =
        (if turn.step.evaluation?.isSome then turn.trigger.writes turn.pipeline.key else []) ∧
      (turn.step.pipeline.phase = .ended → turn.pipeline.phase = .ended ∨ turn.scene.live = false)) := by
  cases settled : turn.step.settled? with
  | some result =>
    obtain ⟨number, outcome⟩ := result
    obtain ⟨_, _, _, _, writes, reports⟩ := turn.course.of_settled settled
    exact .inl ⟨number, outcome, rfl, writes, reports⟩
  | none =>
    refine .inr ⟨rfl, ?_⟩
    cases evaluation : turn.step.evaluation? with
    | some values =>
      obtain ⟨_, reports, running, writes⟩ :=
        Turn.of_evaluated (Option.isSome_iff_exists.mpr ⟨values, evaluation⟩)
      refine ⟨reports, writes, fun ended => ?_⟩
      rw [running] at ended
      cases ended
    | none =>
      obtain ⟨writes, reports, _, ⟨_, phase⟩ | ⟨_, _, cancelled⟩⟩ := turn.course.of_quiet evaluation settled
      · exact ⟨reports, writes, fun ended => .inl (phase ▸ ended)⟩
      · exact ⟨reports, writes, fun _ => .inr cancelled⟩

/-- What a pipeline writes is about its own entry. -/
theorem Turn.target?_of_mem_writes (turn : Turn) {mutation : Mutation} (member : mutation ∈ turn.step.writes) :
    mutation.target? = some (turn.pipeline.key.plugin, turn.pipeline.key.context) := by
  rcases turn.accounts with ⟨number, outcome, _, writes, _⟩ | ⟨_, _, writes, _⟩
  · rw [writes] at member
    cases outcome with
    | failed failure =>
      obtain rfl := List.mem_singleton.mp member
      rfl
    | response response =>
      obtain rfl := List.mem_singleton.mp member
      cases response <;> rfl
  · rw [writes] at member
    split at member
    · cases comes : turn.trigger with
      | suppressed => rw [comes] at member; cases member
      | gap =>
        rw [comes] at member
        obtain rfl := List.mem_singleton.mp member
        rfl
      | fetch request =>
        rw [comes] at member
        obtain rfl := List.mem_singleton.mp member
        rfl
    · cases member

namespace Model

/-- An answer to a fetch that no pipeline holds reaches nobody and changes nothing. -/
theorem answer_eq_of_not_held {model : Model} {number : Nat}
    (free : ∀ pipeline ∈ model.pipelines, ∀ request, ¬ pipeline.Holds (number, request)) (outcome : Outcome) :
    model.answer number outcome = (false, model) := by
  have nobody_waits : (model.pipelines.any fun pipeline =>
      pipeline.inFlight.any fun held => decide (held.number = number ∧ held.stage = .handedOut)) = false := by
    refine List.any_eq_false.mpr fun pipeline member waits => ?_
    obtain ⟨held, inFlight, same, _⟩ := by
      simpa only [Option.any_eq_true, decide_eq_true_eq] using waits
    exact free pipeline member held.request (Pipeline.holds_iff.mpr ⟨held, inFlight, same, rfl⟩)
  simp only [answer, nobody_waits, Bool.false_eq_true, ↓reduceIte]

end Model

namespace Ledger

variable {origin : Model} {moves : List Move} {index : Nat}

/-- What is in flight is what is under way, also where there is no pipeline yet. -/
theorem inFlight_iff (ledger : Ledger origin moves) (number : Nat) (request : FetchRequest) :
    (∃ pipeline, (origin.run moves).pipelines[index]? = some pipeline ∧ pipeline.Holds (number, request)) ↔
      UnderWay (origin.turns index moves) (number, request) := by
  cases place : (origin.run moves).pipelines[index]? with
  | some pipeline => simp only [Option.some.injEq, exists_eq_left', ledger.holds index pipeline place]
  | none => simp only [reduceCtorEq, false_and, exists_false, ledger.absent index place, not_underWay_nil]

theorem underWay_unique (ledger : Ledger origin moves) {ticket other : Nat × FetchRequest}
    (underWay : UnderWay (origin.turns index moves) ticket) (also : UnderWay (origin.turns index moves) other) :
    ticket = other := by
  obtain ⟨pipeline, at_index, holds⟩ := (ledger.inFlight_iff ..).mpr underWay
  obtain ⟨same, at_same, holdsOther⟩ := (ledger.inFlight_iff ..).mpr also
  rw [at_index, Option.some.injEq] at at_same
  subst at_same
  exact Option.some.inj (holds.symm.trans holdsOther)

/-- A fetch is in flight in one pipeline only, so that an answer to a fetch that is not under way in the pipeline that
created it reaches nobody. -/
theorem answer_eq (ledger : Ledger origin moves) {number : Nat}
    (member : number ∈ createdBy (origin.turns index moves))
    (displaced : ∀ request, ¬ UnderWay (origin.turns index moves) (number, request)) (outcome : Outcome) :
    (origin.run moves).answer number outcome = (false, origin.run moves) := by
  refine Model.answer_eq_of_not_held (fun pipeline held request holds => ?_) outcome
  obtain ⟨place, at_place⟩ := List.getElem?_of_mem held
  have underWay := (ledger.holds place pipeline at_place number request).mp holds
  obtain rfl := ledger.distinct index place number member underWay.mem_createdBy
  exact displaced request underWay

end Ledger

namespace Model

variable (host : Host) (config : ModelConfig) (moves : List Move) (index : Nat)

/-- The fetch that a turn settles was under way before it. -/
theorem underWay_of_settled {earlier later : List Turn} {turn : Turn} {number : Nat} {outcome : Outcome}
    (split : (create host config).turns index moves = earlier ++ turn :: later)
    (settled : turn.step.settled? = some (number, outcome)) : ∃ request, UnderWay earlier (number, request) := by
  obtain ⟨before, move, after, _, rfl, taken, _⟩ := exists_move_of_turn split
  obtain ⟨request, holds⟩ := (turn.course.of_settled settled).1
  have at_index := (turn?_eq_some_iff.mp taken).2.1
  exact ⟨request, ((ledger host config before).holds index _ at_index number request).mp holds⟩

/-- No turn settles a fetch that an earlier turn has displaced. -/
theorem not_settled_of_displaced {earlier later : List Turn} {turn : Turn} {number : Nat}
    (split : (create host config).turns index moves = earlier ++ turn :: later)
    (member : number ∈ createdBy earlier) (displaced : turn.Displaces number) :
    ∀ other ∈ later, ∀ outcome, other.step.settled? ≠ some (number, outcome) := by
  intro other within outcome settled
  obtain ⟨between, rest, rfl⟩ := List.append_of_mem within
  rw [← List.cons_append, ← List.append_assoc] at split
  obtain ⟨request, underWay⟩ := underWay_of_settled host config moves index split settled
  obtain ⟨before, _, _, _, same, _⟩ := exists_move_of_turn split
  have nodup := (ledger host config before).nodup index
  rw [same] at nodup
  exact not_underWay_of_displaced nodup member displaced request underWay

end Model

/-- After a history of turns, the pipeline at a place of a model has switched to its latest fetch whenever there was a
newer one. -/
structure SwitchesToLatest (model : Model) (index : Nat) (turns : List Turn) : Prop where
  /-- The fetch in flight is one that was created and that no later turn has displaced. -/
  inFlight_iff : ∀ number request,
    (∃ pipeline, model.pipelines[index]? = some pipeline ∧ pipeline.Holds (number, request)) ↔
      UnderWay turns (number, request)
  /-- There is at most one. -/
  unique : ∀ ticket other, UnderWay turns ticket → UnderWay turns other → ticket = other
  /-- An outcome that is handled is that of the newest fetch there was, which was in flight, and no other turn handles
  an outcome of the same fetch. -/
  handled : ∀ earlier turn later, turns = earlier ++ turn :: later →
    ∀ number outcome, turn.step.settled? = some (number, outcome) →
      (createdBy earlier).getLast? = some number ∧ (∃ request, UnderWay earlier (number, request)) ∧
      ∀ other ∈ earlier ++ later, ∀ result, other.step.settled? ≠ some (number, result)
  /-- A fetch that a later trigger has replaced, by a newer one or by a gap, is not handled, and whatever is answered
  to it reaches nobody. -/
  replaced : ∀ earlier turn later, turns = earlier ++ turn :: later →
    ∀ number ∈ createdBy earlier, turn.Replaces →
      (∀ other ∈ turn :: later, ∀ outcome, other.step.settled? ≠ some (number, outcome)) ∧
      ∀ outcome, model.answer number outcome = (false, model)
  /-- A turn that handles an outcome writes and reports what that outcome asks for. Any other turn reports nothing,
  writes what its own trigger asks for and ends the pipeline only at its cancellation. -/
  accounted : ∀ turn ∈ turns,
    (∃ number outcome, turn.step.settled? = some (number, outcome) ∧
      turn.step.writes = (turn.pipeline.settle number outcome).writes ∧
      turn.step.reports = (turn.pipeline.settle number outcome).reports) ∨
    (turn.step.settled? = none ∧ turn.step.reports = [] ∧
      turn.step.writes =
        (if turn.step.evaluation?.isSome then turn.trigger.writes turn.pipeline.key else []) ∧
      (turn.step.pipeline.phase = .ended → turn.pipeline.phase = .ended ∨ turn.scene.live = false))

/-- In every run every pipeline switches to the latest fetch. -/
theorem switchesToLatest (host : Host) (config : ModelConfig) (moves : List Move) (index : Nat) :
    SwitchesToLatest ((Model.create host config).run moves) index ((Model.create host config).turns index moves) where
  inFlight_iff := (Model.ledger host config moves).inFlight_iff
  unique _ _ := (Model.ledger host config moves).underWay_unique
  handled := by
    intro earlier turn later split number outcome settled
    obtain ⟨request, underWay⟩ := Model.underWay_of_settled host config moves index split settled
    refine ⟨underWay.getLast?_createdBy, ⟨request, underWay⟩, fun other within result again => ?_⟩
    rcases List.mem_append.mp within with within | within
    · obtain ⟨first, between, rfl⟩ := List.append_of_mem within
      rw [List.append_assoc, List.cons_append] at split
      obtain ⟨_, earlierUnderWay⟩ := Model.underWay_of_settled host config moves index split again
      exact Model.not_settled_of_displaced host config moves index split earlierUnderWay.mem_createdBy
        (.inr (.inl ⟨result, again⟩)) turn (by simp) outcome settled
    · exact Model.not_settled_of_displaced host config moves index split underWay.mem_createdBy
        (.inr (.inl ⟨outcome, settled⟩)) other within result again
  replaced := by
    intro earlier turn later split number member replaces
    have displaced : turn.Displaces number := .inl replaces
    refine ⟨fun other within outcome settled => ?_, fun outcome => ?_⟩
    · rcases List.mem_cons.mp within with rfl | within
      · rw [(Turn.of_evaluated replaces.1).1] at settled
        cases settled
      · exact Model.not_settled_of_displaced host config moves index split member displaced other within outcome
          settled
    · have ledger := Model.ledger host config moves
      have nodup := ledger.nodup index
      have created : number ∈ createdBy ((Model.create host config).turns index moves) := by
        rw [split, createdBy, List.filterMap_append]
        exact List.mem_append_left _ member
      refine ledger.answer_eq created (fun request => ?_) outcome
      rw [split] at nodup ⊢
      exact not_underWay_of_displaced nodup member displaced request
  accounted turn _ := turn.accounts

end ReviewChecks
