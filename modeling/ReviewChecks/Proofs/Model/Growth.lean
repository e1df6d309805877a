import ReviewChecks.Proofs.Model.Enrolment

/-! # What only grows

Time does not go back, and as long as a registration stands its requests to reload only become more
(`Model.clock_le_move`, `Model.reloadsOf_le_move`). A registration that has ended does not return.
-/

namespace ReviewChecks

namespace Model

/-- A later model in which nobody is registered anew: who is registered was so before, with no more requests to
reload. -/
structure Advances (model later : Model) : Prop where
  clock : model.clock ≤ later.clock
  registry : ∀ registration ∈ later.registry, ∃ earlier ∈ model.registry,
    earlier.number = registration.number ∧ earlier.reloads ≤ registration.reloads

theorem advances_of_sublist {model later : Model} (clock : model.clock = later.clock)
    (registry : later.registry.Sublist model.registry) : Advances model later where
  clock := Nat.le_of_eq clock
  registry registration member := ⟨registration, registry.subset member, rfl, Nat.le_refl _⟩

theorem Advances.refl (model : Model) : Advances model model :=
  advances_of_sublist rfl (.refl _)

theorem Advances.trans {first second third : Model} (left : Advances first second) (right : Advances second third) :
    Advances first third where
  clock := Nat.le_trans left.clock right.clock
  registry registration member := by
    obtain ⟨between, held, same, fewer⟩ := right.registry registration member
    obtain ⟨earlier, first, number, reloads⟩ := left.registry between held
    exact ⟨earlier, first, number.trans same, Nat.le_trans reloads fewer⟩

theorem advances_reloadWhere (model : Model) (condition : Registration → Bool) :
    Advances model (model.reloadWhere condition) where
  clock := Nat.le_refl _
  registry registration member := by
    obtain ⟨earlier, held, rfl⟩ := List.mem_map.mp member
    refine ⟨earlier, held, ?_⟩
    split
    · exact ⟨rfl, Nat.le_succ _⟩
    · exact ⟨rfl, Nat.le_refl _⟩

theorem advances_reloadForCheck (model : Model) (checkName : Option String) :
    Advances model (model.reloadForCheck checkName) := by
  unfold reloadForCheck
  split
  · exact advances_reloadWhere ..
  · split
    · exact advances_reloadWhere ..
    · exact .refl model

theorem advances_trigger (model : Model) (action : Action) (run : Option RunInfo)
    (callback : ActionInvocation → Option Promise) : Advances model (model.trigger action run callback).2 := by
  unfold trigger
  split
  · exact .refl model
  · dsimp only
    split <;> exact advances_of_sublist rfl (.refl _)

theorem advances_relayReload (model : Model) : Advances model model.relayReload := by
  unfold relayReload
  split
  · split
    · exact .refl model
    next delivery read received =>
      have looked : Advances model { model with reloadsRead := read } := advances_of_sublist rfl (.refl _)
      dsimp only
      split
      · exact advances_of_sublist rfl (.refl _)
      · exact looked.trans (advances_reloadWhere ..)
  · exact .refl model

theorem advances_stepAction (model : Model) (number : Nat) : Advances model (model.stepAction number) := by
  have done : ∀ pending log, Advances model { model with pending, log } :=
    fun _ _ => advances_of_sublist rfl (.refl _)
  unfold stepAction
  split
  · exact .refl model
  · split
    · dsimp only
      split
      · unfold handleResult
        dsimp only
        split
        · exact (done _ _).trans (advances_reloadForCheck ..)
        · exact done _ _
      · exact done _ model.log
    · split
      · exact done _ model.log
      · exact .refl model

theorem advances_shutdown (model : Model) : Advances model model.shutdown := by
  unfold shutdown
  split
  · exact advances_of_sublist rfl (List.nil_sublist _)
  · exact .refl model

theorem advances_followRouter (model : Model) : Advances model model.followRouter := by
  unfold followRouter
  split
  · dsimp only
    split <;> exact advances_of_sublist rfl (.refl _)
  · exact .refl model

theorem advances_followLatest (model : Model) : Advances model model.followLatest := by
  unfold followLatest
  split
  · dsimp only
    split <;> exact advances_of_sublist rfl (.refl _)
  · exact .refl model

theorem advances_runTask (model : Model) (task : Task) : Advances model (model.runTask task) := by
  cases task with
  | pipeline index =>
    simp only [runTask, stepPipeline]
    split
    · exact .refl model
    · exact advances_of_sublist rfl (.refl _)
  | followRouter => exact advances_followRouter model
  | followLatest => exact advances_followLatest model
  | stopFollowing | stopRelaying =>
    simp only [runTask]
    split
    · exact .refl model
    · exact advances_of_sublist rfl (.refl _)
  | relayReload => exact advances_relayReload model
  | action number => exact advances_stepAction model number

/-- Every move either registers nobody anew or adds one registration with the next number. -/
theorem advances_move (model : Model) (move : Move) :
    Advances model (model.move move) ∨
      (model.move move).clock = model.clock ∧ ∃ plugin,
        (model.move move).registry = model.registry ++ [{ plugin, number := model.registered }] := by
  cases move with
  | operation operation =>
    cases operation with
    | register plugin provider settings =>
      cases admitted : model.admits plugin with
      | true =>
        refine .inr ?_
        simp only [Model.move, perform, register_of_admits admitted, accept]
        exact ⟨trivial, plugin, rfl⟩
      | false =>
        obtain ⟨error, refused⟩ := register_of_not_admits admitted provider settings
        simp only [Model.move, perform, refused, accept]
        exact .inl (.refl model)
    | unregister plugin =>
      simp only [Model.move, perform, unregister]
      split
      · exact .inl (advances_of_sublist rfl List.filter_sublist)
      · exact .inl (.refl model)
    | reload plugin =>
      simp only [Model.move, perform, reload]
      split
      · exact .inl (advances_reloadWhere ..)
      · exact .inl (.refl model)
    | reloadAll => exact .inl (advances_reloadWhere ..)
    | reloadForCheck checkName => exact .inl (advances_reloadForCheck model checkName)
    | updateResult plugin run result =>
      simp only [Model.move, perform, updateResult]
      split <;> exact .inl (advances_of_sublist rfl (.refl _))
    | setPatchset patchset => exact .inl (advances_of_sublist rfl (.refl _))
    | trigger action run callback => exact .inl (advances_trigger model action run callback)
    | shutdown => exact .inl (advances_shutdown model)
    | drop => exact .inl ((advances_shutdown model).trans (advances_of_sublist rfl (.refl _)))
  | host action => exact .inl (advances_of_sublist rfl (.refl _))
  | answer fetch outcome =>
    simp only [Model.move, answer]
    split <;> exact .inl (advances_of_sublist rfl (.refl _))
  | task task => exact .inl (advances_runTask model task)
  | elapse duration => exact .inl ⟨Nat.le_add_right .., (Advances.refl model).registry⟩

theorem clock_le_move (model : Model) (move : Move) : model.clock ≤ (model.move move).clock := by
  rcases model.advances_move move with advances | ⟨same, _⟩
  · exact advances.clock
  · exact Nat.le_of_eq same.symm

/-- A registration that stands after a move and was made before it stood before, with no more requests to reload. -/
theorem exists_earlier_of_move {model : Model} {move : Move} {number : Nat} (made : number < model.registered)
    (live : (model.move move).isLive number = true) :
    ∃ registration ∈ (model.move move).registry, registration.number = number ∧
      ∃ earlier ∈ model.registry, earlier.number = number ∧ earlier.reloads ≤ registration.reloads := by
  obtain ⟨registration, member, same⟩ := List.any_eq_true.mp live
  obtain rfl := of_decide_eq_true same
  refine ⟨registration, member, rfl, ?_⟩
  rcases model.advances_move move with advances | ⟨_, plugin, added⟩
  · exact advances.registry registration member
  · rw [added] at member
    rcases List.mem_append.mp member with old | new
    · exact ⟨registration, old, rfl, Nat.le_refl _⟩
    · obtain rfl := List.mem_singleton.mp new
      exact absurd made (Nat.lt_irrefl _)

/-- A registration that has ended does not return. -/
theorem isLive_of_move {model : Model} {move : Move} {number : Nat} (made : number < model.registered)
    (live : (model.move move).isLive number = true) : model.isLive number = true := by
  obtain ⟨_, _, _, earlier, held, same, _⟩ := exists_earlier_of_move made live
  exact List.any_eq_true.mpr ⟨earlier, held, decide_eq_true same⟩

/-- The number of a registration that stands tells how many requests to reload it there have been. -/
theorem Enrolment.reloadsOf_eq {model : Model} (enrolment : model.Enrolment) {registration : Registration}
    (member : registration ∈ model.registry) : model.reloadsOf registration.number = registration.reloads := by
  have nodup : (model.registry.map (·.number)).Nodup := by
    have ascending := enrolment.ordered
    rw [registrants, List.map_map] at ascending
    exact ascending.imp Nat.ne_of_lt
  obtain ⟨first, found⟩ : ∃ first, model.registry.find? (·.number = registration.number) = some first :=
    Option.isSome_iff_exists.mp (List.find?_isSome.mpr ⟨registration, member, decide_eq_true rfl⟩)
  have same : first.number = registration.number := by simpa using List.find?_some found
  have unique := List.inj_on_of_nodup_map nodup (List.mem_of_find?_eq_some found) member same
  rw [reloadsOf, found, unique]
  rfl

/-- As long as a registration stands, its requests to reload only become more. -/
theorem reloadsOf_le_move {model : Model} (roster : model.Roster) (enrolment : model.Enrolment) {move : Move}
    {number : Nat} (made : number < model.registered) (live : (model.move move).isLive number = true) :
    model.reloadsOf number ≤ (model.move move).reloadsOf number := by
  obtain ⟨registration, member, rfl, earlier, held, same, fewer⟩ := exists_earlier_of_move made live
  rw [(enrolment.move roster move).reloadsOf_eq member, ← same, enrolment.reloadsOf_eq held]
  exact fewer

theorem registered_le_run (model : Model) (moves : List Move) : model.registered ≤ (model.run moves).registered := by
  induction moves generalizing model with
  | nil => exact Nat.le_refl _
  | cons move rest ih =>
    have first : model.registered ≤ (model.move move).registered :=
      (model.moved move).registered ▸ model.registered_le_after move
    exact Nat.le_trans first (ih (model.move move))

/-- A registration that stands after some moves and was made before them stood all along, and its requests to reload
only became more. -/
theorem stands_of_run {model : Model} (roster : model.Roster) (enrolment : model.Enrolment) {moves : List Move}
    {number : Nat} (made : number < model.registered) (live : (model.run moves).isLive number = true) :
    model.isLive number = true ∧ model.reloadsOf number ≤ (model.run moves).reloadsOf number := by
  induction moves generalizing model with
  | nil => exact ⟨live, Nat.le_refl _⟩
  | cons move rest ih =>
    have still : number < (model.move move).registered := Nat.lt_of_lt_of_le made (model.registered_le_run [move])
    obtain ⟨stood, fewer⟩ := ih (roster.move move) (enrolment.move roster move) still live
    exact ⟨isLive_of_move made stood, Nat.le_trans (reloadsOf_le_move roster enrolment made stood) fewer⟩

end Model

end ReviewChecks
