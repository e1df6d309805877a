import ReviewChecks.Proofs.Model.Frame

/-! # Registrations and their pipelines

Registrations are numbered, and the numbers do not return. `Model.Roster` is what follows in every run: a pipeline whose
registration stands belongs to the provider that is registered under that number. The pipelines of a registration come
into being with it, one for each context, and keep their keys (`Model.keys_move`).
-/

namespace ReviewChecks

namespace Model

theorem isRegistered_iff {model : Model} {plugin : String} :
    model.isRegistered plugin = true ↔ ∃ registrant ∈ model.registrants, registrant.1 = plugin := by
  simp only [isRegistered, List.any_eq_true, decide_eq_true_eq, registrants, List.mem_map]
  constructor
  · rintro ⟨registration, member, same⟩
    exact ⟨registration.identity, ⟨registration, member, rfl⟩, same⟩
  · rintro ⟨_, ⟨registration, member, rfl⟩, same⟩
    exact ⟨registration, member, same⟩

theorem isLive_iff {model : Model} {number : Nat} :
    model.isLive number = true ↔ ∃ registrant ∈ model.registrants, registrant.2 = number := by
  simp only [isLive, List.any_eq_true, decide_eq_true_eq, registrants, List.mem_map]
  constructor
  · rintro ⟨registration, member, same⟩
    exact ⟨registration.identity, ⟨registration, member, rfl⟩, same⟩
  · rintro ⟨_, ⟨registration, member, rfl⟩, same⟩
    exact ⟨registration, member, same⟩

/-- A registration succeeds exactly where it is admitted. -/
theorem perform_register_eq_done {model : Model} {plugin : String} {provider : Provider}
    {settings : Option ProviderConfig} :
    (model.perform (.register plugin provider settings)).1 = .done ↔ model.admits plugin = true := by
  cases admitted : model.admits plugin with
  | true => simp only [perform, register_of_admits admitted, accept]
  | false =>
    obtain ⟨error, refused⟩ := register_of_not_admits admitted provider settings
    simp only [perform, refused, accept, reduceCtorEq, Bool.false_eq_true]

theorem perform_unregister_eq_done {model : Model} {plugin : String} :
    (model.perform (.unregister plugin)).1 = .done ↔ model.isRegistered plugin = true := by
  cases registered : model.isRegistered plugin with
  | true => simp only [perform, unregister_of_isRegistered registered, accept]
  | false =>
    simp only [perform, unregister_of_not_isRegistered registered, accept, reduceCtorEq, Bool.false_eq_true]

/-- The keys of all pipelines there have been. -/
def keys (model : Model) : List PipelineKey :=
  model.pipelines.map (·.key)

theorem getElem?_keys {model : Model} {index : Nat} {pipeline : Pipeline}
    (place : model.pipelines[index]? = some pipeline) : model.keys[index]? = some pipeline.key := by
  rw [keys, List.getElem?_map, place, Option.map_some]

/-- The keys of the pipelines that a move sets up. -/
def newKeys (model : Model) : Move → List PipelineKey
  | .operation (.register plugin _ _) =>
    if model.admits plugin then
      PatchsetContext.all.map fun context => { plugin, context, registration := model.registered }
    else []
  | _ => []

private theorem keys_answer (model : Model) (fetch : Nat) (outcome : Outcome) :
    (model.answer fetch outcome).2.keys = model.keys := by
  unfold answer
  dsimp only
  split
  · simp only [keys, List.map_map]
    refine List.map_congr_left fun pipeline _ => ?_
    simp only [Function.comp_apply]
    split
    · split <;> rfl
    · rfl
  · rfl

private theorem keys_stepPipeline (model : Model) (index : Nat) : (model.stepPipeline index).keys = model.keys := by
  unfold stepPipeline
  cases found : model.pipelines[index]? with
  | none => rfl
  | some pipeline =>
    obtain ⟨inside, rfl⟩ := List.getElem?_eq_some_iff.mp found
    have same := (Pipeline.course_step (model.scene model.pipelines[index]) model.pipelines[index]).key_eq
    simp only [keys, List.map_set, same]
    rw [← List.getElem_map (fun pipeline : Pipeline => pipeline.key) (h := by simpa using inside)]
    exact List.set_getElem_self _

/-- Pipelines keep their keys; a registration adds those of its own pipelines. -/
theorem keys_move (model : Model) (move : Move) : (model.move move).keys = model.keys ++ model.newKeys move := by
  rw [keys, (model.moved move).pipelines]
  unfold pipelinesAfter
  split
  next plugin provider settings =>
    simp only [newKeys]
    split
    · rw [List.map_append]
      rfl
    · exact (List.append_nil _).symm
  next fetch outcome => exact (keys_answer model fetch outcome).trans (List.append_nil _).symm
  next index => exact (keys_stepPipeline model index).trans (List.append_nil _).symm
  next other _ _ =>
    have none_new : model.newKeys move = [] := by
      cases move with
      | operation operation =>
        cases operation with
        | register plugin provider settings => exact (other plugin provider settings rfl).elim
        | unregister | reload | reloadAll | reloadForCheck | updateResult | setPatchset | trigger | shutdown | drop =>
          rfl
      | host | answer | task | elapse => rfl
    rw [none_new, List.append_nil]
    rfl

/-- Numbers tell registrations apart. -/
structure Roster (model : Model) : Prop where
  keys : ∀ key ∈ model.keys, key.registration < model.registered
  registrants : ∀ registrant ∈ model.registrants, registrant.2 < model.registered
  /-- A pipeline whose registration stands belongs to the provider that is registered. -/
  agree : ∀ key ∈ model.keys, ∀ registrant ∈ model.registrants, registrant.2 = key.registration →
    registrant.1 = key.plugin

/-- A pipeline whose registration stands has its provider registered under that number. -/
theorem enrolled_of_isLive {model : Model} (roster : model.Roster) {index : Nat} {pipeline : Pipeline}
    (at_index : model.pipelines[index]? = some pipeline) (live : model.isLive pipeline.key.registration = true) :
    (pipeline.key.plugin, pipeline.key.registration) ∈ model.registrants := by
  obtain ⟨⟨plugin, number⟩, enrolled, same⟩ := isLive_iff.mp live
  have key : pipeline.key ∈ model.keys := List.mem_map_of_mem (List.mem_of_getElem? at_index)
  have agreed : plugin = pipeline.key.plugin := roster.agree _ key _ enrolled same
  rw [← agreed, ← same]
  exact enrolled

/-- Who is registered after a move was so before, or the move has registered him. -/
theorem mem_registrantsAfter {model : Model} {move : Move} {registrant : String × Nat}
    (member : registrant ∈ model.registrantsAfter move) :
    registrant ∈ model.registrants ∨
      ∃ plugin provider settings, move = .operation (.register plugin provider settings) ∧
        model.admits plugin = true ∧ registrant = (plugin, model.registered) := by
  unfold registrantsAfter at member
  split at member
  next plugin provider settings =>
    split at member
    next admitted =>
      rcases List.mem_append.mp member with old | new
      · exact .inl old
      · exact .inr ⟨plugin, provider, settings, rfl, admitted, List.mem_singleton.mp new⟩
    next => exact .inl member
  next => exact .inl ((List.mem_filter.mp member).1)
  next =>
    split at member
    · cases member
    · exact .inl member
  next =>
    split at member
    · cases member
    · exact .inl member
  next => exact .inl member

theorem mem_newKeys {model : Model} {move : Move} {key : PipelineKey} (member : key ∈ model.newKeys move) :
    ∃ plugin provider settings, move = .operation (.register plugin provider settings) ∧
      model.admits plugin = true ∧ key.plugin = plugin ∧ key.registration = model.registered := by
  unfold newKeys at member
  split at member
  next plugin provider settings =>
    split at member
    next admitted =>
      obtain ⟨context, _, rfl⟩ := List.mem_map.mp member
      exact ⟨plugin, provider, settings, rfl, admitted, rfl, rfl⟩
    next => cases member
  next => cases member

theorem registered_le_after (model : Model) (move : Move) : model.registered ≤ model.registeredAfter move := by
  unfold registeredAfter
  split
  · split
    · exact Nat.le_succ _
    · exact Nat.le_refl _
  · exact Nat.le_refl _

theorem registeredAfter_register {model : Model} {plugin : String} (admitted : model.admits plugin = true)
    (provider : Provider) (settings : Option ProviderConfig) :
    model.registeredAfter (.operation (.register plugin provider settings)) = model.registered + 1 := by
  simp only [registeredAfter, admitted, ↓reduceIte]

/-- Every move keeps the roster. -/
theorem Roster.move {model : Model} (roster : model.Roster) (move : Move) : (model.move move).Roster := by
  have moved := model.moved move
  have grown := model.registered_le_after move
  constructor
  · intro key member
    rw [moved.registered]
    rcases List.mem_append.mp (keys_move model move ▸ member) with old | new
    · exact Nat.lt_of_lt_of_le (roster.keys key old) grown
    · obtain ⟨plugin, provider, settings, rfl, admitted, _, number⟩ := mem_newKeys new
      rw [registeredAfter_register admitted]
      omega
  · intro registrant member
    rw [moved.registered]
    rw [moved.registrants] at member
    rcases mem_registrantsAfter member with old | ⟨plugin, provider, settings, rfl, admitted, rfl⟩
    · exact Nat.lt_of_lt_of_le (roster.registrants registrant old) grown
    · rw [registeredAfter_register admitted]
      exact Nat.lt_succ_self _
  · intro key member registrant enrolled same
    rw [moved.registrants] at enrolled
    rcases List.mem_append.mp (keys_move model move ▸ member) with old | new
    · have below := roster.keys key old
      rcases mem_registrantsAfter enrolled with before | ⟨_, _, _, _, _, rfl⟩
      · exact roster.agree key old registrant before same
      · dsimp only at same
        omega
    · obtain ⟨plugin, provider, settings, rfl, _, own, number⟩ := mem_newKeys new
      rcases mem_registrantsAfter enrolled with before | ⟨_, _, _, again, _, rfl⟩
      · have below := roster.registrants registrant before
        omega
      · cases again
        exact own.symm

theorem Roster.run {model : Model} (roster : model.Roster) (moves : List Move) : (model.run moves).Roster := by
  induction moves generalizing model with
  | nil => exact roster
  | cons move rest ih => exact ih (roster.move move)

theorem roster_create (host : Host) (config : ModelConfig) : (create host config).Roster := by
  constructor
  · intro key member
    cases member
  · intro registrant member
    cases member
  · intro key member
    cases member

end Model

end ReviewChecks
