import Mathlib.Data.List.Induction
import Mathlib.Data.List.Nodup
import ReviewChecks.Proofs.Model.Frame

/-! # The turns of a run

A run of a model gives each pipeline a history: the list of its turns. From the history alone it can be told which
fetch is under way, namely one that was created and that no later turn displaced. `Model.ledger` is the invariant of
all runs: the fetch in flight is the one under way, and no number is given to two fetches of any pipelines.
-/

namespace ReviewChecks

namespace Model

/-- The turns of the pipeline at a place in a run. -/
def turns (index : Nat) : Model → List Move → List Turn
  | _, [] => []
  | model, move :: rest => (model.turn? index move).toList ++ turns index (model.move move) rest

theorem run_cons (model : Model) (move : Move) (rest : List Move) :
    model.run (move :: rest) = (model.move move).run rest :=
  rfl

theorem run_append (model : Model) (first second : List Move) :
    model.run (first ++ second) = (model.run first).run second :=
  List.foldl_append

theorem run_concat (model : Model) (moves : List Move) (move : Move) :
    model.run (moves ++ [move]) = (model.run moves).move move :=
  run_append model moves [move]

theorem turns_append (index : Nat) (model : Model) (first second : List Move) :
    model.turns index (first ++ second) = model.turns index first ++ (model.run first).turns index second := by
  induction first generalizing model with
  | nil => rfl
  | cons move rest ih => simp only [List.cons_append, turns, ih, List.append_assoc, run, List.foldl_cons]

theorem turns_concat (index : Nat) (model : Model) (moves : List Move) (move : Move) :
    model.turns index (moves ++ [move]) = model.turns index moves ++ ((model.run moves).turn? index move).toList := by
  simp only [turns_append, turns, List.append_nil]

/-- A turn in a history is taken by some move, after which the rest of the history follows. -/
theorem exists_move_of_turn {index : Nat} {model : Model} {moves : List Move} {earlier later : List Turn}
    {turn : Turn} (split : model.turns index moves = earlier ++ turn :: later) :
    ∃ before move after, moves = before ++ move :: after ∧ model.turns index before = earlier ∧
      (model.run before).turn? index move = some turn ∧
      (model.run (before ++ [move])).turns index after = later := by
  induction moves generalizing model earlier with
  | nil =>
    have sizes := congrArg List.length split
    simp [turns] at sizes
  | cons move rest ih =>
    cases taken : model.turn? index move with
    | none =>
      simp only [turns, taken, Option.toList_none, List.nil_append] at split
      obtain ⟨before, next, after, rfl, same, turned, following⟩ := ih split
      refine ⟨move :: before, next, after, rfl, ?_, turned, following⟩
      simp only [turns, taken, Option.toList_none, List.nil_append, same]
    | some first =>
      simp only [turns, taken, Option.toList_some, List.singleton_append] at split
      cases earlier with
      | nil =>
        obtain ⟨rfl, rfl⟩ := List.cons.inj split
        exact ⟨[], move, rest, rfl, rfl, taken, rfl⟩
      | cons head earlier =>
        obtain ⟨rfl, remaining⟩ := List.cons.inj split
        obtain ⟨before, next, after, rfl, same, turned, following⟩ := ih remaining
        refine ⟨move :: before, next, after, rfl, ?_, turned, following⟩
        simp only [turns, taken, Option.toList_some, List.singleton_append, same]

end Model

/-- The numbers of the fetches that some turns created. -/
def createdBy (turns : List Turn) : List Nat :=
  turns.filterMap Turn.created?

/-- After some turns the fetch of a ticket is under way: it was created, and no later turn has displaced it. -/
def UnderWay (turns : List Turn) (ticket : Nat × FetchRequest) : Prop :=
  ∃ earlier turn later, turns = earlier ++ turn :: later ∧ turn.created? = some ticket.1 ∧
    turn.trigger = .fetch ticket.2 ∧ ∀ other ∈ later, ¬ other.Displaces ticket.1

theorem not_underWay_nil (ticket : Nat × FetchRequest) : ¬ UnderWay [] ticket := by
  rintro ⟨earlier, turn, later, split, _⟩
  have sizes := congrArg List.length split
  simp at sizes

theorem underWay_concat (turns : List Turn) (turn : Turn) (number : Nat) (request : FetchRequest) :
    UnderWay (turns ++ [turn]) (number, request) ↔
      (turn.created? = some number ∧ turn.trigger = .fetch request) ∨
      (UnderWay turns (number, request) ∧ ¬ turn.Displaces number) := by
  constructor
  · rintro ⟨earlier, creator, later, split, created, comes, kept⟩
    rcases List.eq_nil_or_concat' later with rfl | ⟨later, last, rfl⟩
    · obtain ⟨_, same⟩ := List.append_inj' split rfl
      obtain ⟨rfl, _⟩ := List.cons.inj same
      exact .inl ⟨created, comes⟩
    · rw [← List.cons_append, ← List.append_assoc] at split
      obtain ⟨same, last_same⟩ := List.append_inj' split rfl
      obtain ⟨rfl, _⟩ := List.cons.inj last_same
      refine .inr ⟨⟨earlier, creator, later, same, created, comes, ?_⟩, kept turn (by simp)⟩
      exact fun other member => kept other (List.mem_append_left _ member)
  · rintro (⟨created, comes⟩ | ⟨⟨earlier, creator, later, rfl, created, comes, kept⟩, stays⟩)
    · exact ⟨turns, turn, [], rfl, created, comes, by simp⟩
    · refine ⟨earlier, creator, later ++ [turn], by simp, created, comes, ?_⟩
      intro other member
      rcases List.mem_append.mp member with member | member
      · exact kept other member
      · rw [List.mem_singleton.mp member]
        exact stays

theorem UnderWay.mem_createdBy {turns : List Turn} {ticket : Nat × FetchRequest} (underWay : UnderWay turns ticket) :
    ticket.1 ∈ createdBy turns := by
  obtain ⟨earlier, turn, later, rfl, created, _⟩ := underWay
  exact List.mem_filterMap.mpr ⟨turn, by simp, created⟩

/-- What holds of the fetches of all pipelines after any run. -/
structure Ledger (origin : Model) (moves : List Move) : Prop where
  /-- An ended pipeline has no fetch in flight. -/
  released : ∀ (index : Nat) pipeline, (origin.run moves).pipelines[index]? = some pipeline →
    pipeline.phase = .ended → pipeline.inFlight = none
  /-- The fetch in flight is the one under way. -/
  holds : ∀ (index : Nat) pipeline, (origin.run moves).pipelines[index]? = some pipeline → ∀ number request,
    pipeline.Holds (number, request) ↔ UnderWay (origin.turns index moves) (number, request)
  /-- Where there is no pipeline there were no turns. -/
  absent : ∀ index : Nat, (origin.run moves).pipelines[index]? = none → origin.turns index moves = []
  /-- Numbers are given in ascending order. -/
  bound : ∀ index, ∀ number ∈ createdBy (origin.turns index moves), number < (origin.run moves).fetches
  nodup : ∀ index, (createdBy (origin.turns index moves)).Nodup
  /-- A number belongs to one pipeline. -/
  distinct : ∀ index other, ∀ number ∈ createdBy (origin.turns index moves),
    number ∈ createdBy (origin.turns other moves) → index = other

namespace Ledger

variable {origin : Model} {moves : List Move} {index : Nat}

/-- Where there are only pipelines that have not run, nothing is in flight yet. -/
theorem initial (origin : Model) (none_yet : origin.pipelines = []) : Ledger origin [] := by
  have nowhere : ∀ index : Nat, (origin.run []).pipelines[index]? = none := by
    intro index
    show origin.pipelines[index]? = none
    rw [none_yet]
    rfl
  refine ⟨?_, ?_, fun _ _ => rfl, ?_, fun _ => List.nodup_nil, ?_⟩
  · intro index pipeline at_index
    rw [nowhere] at at_index
    cases at_index
  · intro index pipeline at_index
    rw [nowhere] at at_index
    cases at_index
  · intro index number member
    cases member
  · intro index other number member
    cases member

/-- The fetch that a turn creates gets a number that has not been given yet. -/
theorem created_fresh (ledger : Ledger origin moves) {move : Move} {turn : Turn} {number : Nat}
    (taken : (origin.run moves).turn? index move = some turn) (created : turn.created? = some number) :
    number = (origin.run moves).fetches ∧ ∀ other, number ∉ createdBy (origin.turns other moves) := by
  have same : number = (origin.run moves).fetches := by
    rw [(Turn.created?_eq_some_iff.mp created).2.2, (Model.turn?_eq_some_iff.mp taken).2.2]
    rfl
  refine ⟨same, fun other member => ?_⟩
  have below := ledger.bound other number member
  omega

/-- A number in a history that is one move longer was in it before, or the move gave it. -/
private theorem mem_createdBy_concat {move : Move} {number : Nat}
    (member : number ∈ createdBy (origin.turns index (moves ++ [move]))) :
    number ∈ createdBy (origin.turns index moves) ∨
      ∃ turn, (origin.run moves).turn? index move = some turn ∧ turn.created? = some number := by
  rw [Model.turns_concat, createdBy, List.filterMap_append, List.mem_append] at member
  refine member.imp_right fun new => ?_
  obtain ⟨turn, taken, created⟩ := List.mem_filterMap.mp new
  exact ⟨turn, Option.mem_toList.mp taken, created⟩

/-- Every move keeps the ledger. -/
theorem concat (ledger : Ledger origin moves) (move : Move) : Ledger origin (moves ++ [move]) where
  released := by
    intro index after at_index ended
    rw [Model.run_concat] at at_index
    cases Model.comesFrom at_index with
    | turned turn taken =>
      exact turn.inFlight_of_ended (ledger.released index _ (Model.turn?_eq_some_iff.mp taken).2.1) ended
    | kept _ _ _ place resembles =>
      have was_released := ledger.released index _ place (by rw [resembles.fields] at ended; exact ended)
      simpa only [was_released, Option.map_none, Option.map_eq_none_iff] using resembles.ticket
    | added _ _ _ _ empty => exact empty
  holds := by
    intro index after at_index number request
    rw [Model.run_concat] at at_index
    rw [Model.turns_concat]
    cases Model.comesFrom at_index with
    | turned turn taken =>
      have before := (Model.turn?_eq_some_iff.mp taken).2.1
      rw [taken, Option.toList_some, underWay_concat, turn.holds_step (ledger.released index _ before),
        ledger.holds index _ before]
    | kept _ _ untaken place resembles =>
      rw [untaken, Option.toList_none, List.append_nil]
      rw [Pipeline.Holds, resembles.ticket, ← ledger.holds index _ place, Pipeline.Holds]
    | added _ untaken nowhere _ empty =>
      rw [untaken, Option.toList_none, List.append_nil, ledger.absent index nowhere]
      simp only [Pipeline.Holds, empty, Option.map_none, reduceCtorEq, not_underWay_nil]
  absent := by
    intro index nowhere
    rw [Model.run_concat] at nowhere
    rw [Model.turns_concat]
    cases taken : (origin.run moves).turn? index move with
    | some turn =>
      rw [(Model.getElem?_of_turn taken).1] at nowhere
      cases nowhere
    | none =>
      rw [Option.toList_none, List.append_nil]
      have persists := Model.persists_of_no_turn taken
      rw [nowhere] at persists
      generalize place : (origin.run moves).pipelines[index]? = before at persists
      cases persists with
      | absent => exact ledger.absent index place
  bound := by
    intro index number member
    rw [Model.run_concat]
    rcases mem_createdBy_concat member with old | ⟨turn, taken, created⟩
    · exact Nat.lt_of_lt_of_le (ledger.bound index number old) (Model.moved _ move).fetches
    · rw [(Model.getElem?_of_turn taken).2, (ledger.created_fresh taken created).1]
      have nonzero : turn.step.created ≠ 0 := fun zero => by simp [Turn.created?, zero] at created
      omega
  nodup := by
    intro index
    rw [Model.turns_concat, createdBy, List.filterMap_append]
    refine List.Nodup.append (ledger.nodup index) ?_ ?_
    · cases (origin.run moves).turn? index move with
      | none => exact List.nodup_nil
      | some turn =>
        cases created : turn.created? <;> simp [created]
    · intro number old new
      obtain ⟨turn, taken, created⟩ := List.mem_filterMap.mp new
      exact (ledger.created_fresh (Option.mem_toList.mp taken) created).2 index old
  distinct := by
    intro index other number member same
    rcases mem_createdBy_concat member with old | ⟨turn, taken, created⟩
    · rcases mem_createdBy_concat same with otherOld | ⟨turn, taken, created⟩
      · exact ledger.distinct index other number old otherOld
      · exact ((ledger.created_fresh taken created).2 index old).elim
    · rcases mem_createdBy_concat same with otherOld | ⟨otherTurn, otherTaken, _⟩
      · exact ((ledger.created_fresh taken created).2 other otherOld).elim
      · have left := (Model.turn?_eq_some_iff.mp taken).1
        have right := (Model.turn?_eq_some_iff.mp otherTaken).1
        rw [left] at right
        simpa using right

end Ledger

/-- The ledger of every run. -/
theorem Model.ledger (host : Host) (config : ModelConfig) (moves : List Move) :
    Ledger (Model.create host config) moves := by
  induction moves using List.reverseRecOn with
  | nil => exact .initial _ rfl
  | append_singleton moves move ih => exact ih.concat move

end ReviewChecks
