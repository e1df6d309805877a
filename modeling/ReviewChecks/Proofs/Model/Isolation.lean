import ReviewChecks.Proofs.Model.Registrations
import ReviewChecks.Proofs.Pipeline.Succession

/-! # Isolation of registrations

The entries of a provider belong to its present registration. While a provider is not registered it has no entries.
Once it is registered, its entries are the fresh ones and what its own pipelines and pushed results make of them: a
pipeline of an older registration may still run and settle fetches, but its registration does not stand any more, and
so what it writes does not count.
-/

namespace ReviewChecks

/-- The operation registers a provider. -/
def Operation.IsRegister (plugin : String) : Operation → Prop
  | .register registered _ _ => registered = plugin
  | _ => False

/-- The operation ends a provider's registration. -/
def Operation.IsUnregister (plugin : String) : Operation → Prop
  | .unregister registered => registered = plugin
  | _ => False

namespace Model

/-- In some moves no operation of a kind succeeds. -/
def NoneSucceeds (kind : Operation → Prop) (model : Model) (moves : List Move) : Prop :=
  ∀ earlier operation later, moves = earlier ++ .operation operation :: later → kind operation →
    ((model.run earlier).perform operation).1 ≠ .done

theorem NoneSucceeds.head {kind : Operation → Prop} {model : Model} {operation : Operation} {rest : List Move}
    (none : NoneSucceeds kind model (.operation operation :: rest)) (concerns : kind operation) :
    (model.perform operation).1 ≠ .done :=
  none [] operation rest rfl concerns

theorem NoneSucceeds.of_append {kind : Operation → Prop} {model : Model} {first second : List Move}
    (none : NoneSucceeds kind model (first ++ second)) : NoneSucceeds kind model first := by
  intro earlier operation later split concerns
  exact none earlier operation (later ++ second) (by rw [split]; simp) concerns

theorem NoneSucceeds.after {kind : Operation → Prop} {model : Model} {first second : List Move}
    (none : NoneSucceeds kind model (first ++ second)) : NoneSucceeds kind (model.run first) second := by
  intro earlier operation later split concerns
  rw [← run_append]
  exact none (first ++ earlier) operation later (by rw [split, List.append_assoc]) concerns

theorem noneSucceeds_of_forall {kind : Operation → Prop} {model : Model} {moves : List Move}
    (others : ∀ operation, .operation operation ∈ moves → ¬ kind operation) : NoneSucceeds kind model moves := by
  rintro earlier operation later rfl concerns
  exact (others operation (by simp) concerns).elim

theorem NoneSucceeds.tail {kind : Operation → Prop} {model : Model} {move : Move} {rest : List Move}
    (none : NoneSucceeds kind model (move :: rest)) : NoneSucceeds kind (model.move move) rest := by
  intro earlier operation later split concerns
  exact none (move :: earlier) operation later (congrArg (move :: ·) split) concerns

/-- What a pipeline writes counts only while its registration stands. -/
theorem written_pipeline {model : Model} {index : Nat} {pipeline : Pipeline}
    (at_index : model.pipelines[index]? = some pipeline) {mutation : Mutation}
    (member : mutation ∈ model.written (.task (.pipeline index))) :
    model.isLive pipeline.key.registration = true ∧ mutation ∈ (pipeline.step (model.scene pipeline)).writes := by
  simp only [written, at_index] at member
  split at member
  next live => exact ⟨live, member⟩
  next => cases member

/-- What a pipeline writes about a provider counts only under the number of the provider's registration. -/
theorem registrant_of_written (model : Model) (roster : model.Roster) {index : Nat} {pipeline : Pipeline}
    (at_index : model.pipelines[index]? = some pipeline) {mutation : Mutation} {context : PatchsetContext}
    {plugin : String} (member : mutation ∈ model.written (.task (.pipeline index)))
    (addresses : mutation.Addresses context plugin) :
    (plugin, pipeline.key.registration) ∈ model.registrants := by
  obtain ⟨live, written⟩ := written_pipeline at_index member
  have aimed := Turn.target?_of_mem_writes ⟨model.scene pipeline, pipeline⟩ written
  obtain ⟨own, _⟩ := Mutation.target?_of_addresses addresses aimed
  exact own ▸ enrolled_of_isLive roster at_index live

/-- The moves that write to the entry of a provider: its registration, the end of that, a pushed result, and the steps
of the pipelines of its registration. -/
theorem exists_of_written_addresses {model : Model} (roster : model.Roster) {move : Move} {mutation : Mutation}
    {context : PatchsetContext} {plugin : String} (member : mutation ∈ model.written move)
    (addresses : mutation.Addresses context plugin) :
    (∃ provider settings, move = .operation (.register plugin provider settings) ∧ model.admits plugin = true) ∨
    (move = .operation (.unregister plugin) ∧ model.isRegistered plugin = true) ∨
    (∃ run result, move = .operation (.updateResult plugin run result) ∧ mutation = .push plugin run result) ∨
    (∃ index pipeline, move = .task (.pipeline index) ∧ model.pipelines[index]? = some pipeline ∧
      (plugin, pipeline.key.registration) ∈ model.registrants) := by
  cases move with
  | operation operation =>
    cases operation with
    | register registered provider settings =>
      simp only [written] at member
      split at member
      next admitted =>
        obtain ⟨within, _, rfl⟩ := List.mem_map.mp member
        obtain ⟨rfl, _⟩ := addresses
        exact .inl ⟨provider, settings, rfl, admitted⟩
      next => cases member
    | unregister registered =>
      simp only [written] at member
      split at member
      next present =>
        obtain rfl := List.mem_singleton.mp member
        obtain rfl : registered = plugin := addresses
        exact .inr (.inl ⟨rfl, present⟩)
      next => cases member
    | updateResult pushed run result =>
      obtain rfl := List.mem_singleton.mp member
      obtain rfl : pushed = plugin := addresses
      exact .inr (.inr (.inl ⟨run, result, rfl, rfl⟩))
    | setPatchset patchset =>
      obtain rfl := List.mem_singleton.mp member
      exact addresses.elim
    | reload | reloadAll | reloadForCheck | trigger | shutdown | drop => cases member
  | task task =>
    cases task with
    | pipeline index =>
      cases at_index : model.pipelines[index]? with
      | none =>
        simp only [written, at_index] at member
        cases member
      | some pipeline =>
        have enrolled := registrant_of_written model roster at_index member addresses
        exact .inr (.inr (.inr ⟨index, pipeline, rfl, at_index, enrolled⟩))
    | followRouter =>
      simp only [written] at member
      split at member
      · obtain rfl := List.mem_singleton.mp member
        exact addresses.elim
      · cases member
    | followLatest =>
      simp only [written] at member
      split at member
      · obtain rfl := List.mem_singleton.mp member
        exact addresses.elim
      · cases member
    | stopFollowing | relayReload | stopRelaying | action => cases member
  | host | answer | elapse => cases member

/-- A provider is registered under certain numbers only, if at all. -/
def RegisteredOnly (model : Model) (plugin : String) (allowed : Nat → Prop) : Prop :=
  ∀ registrant ∈ model.registrants, registrant.1 = plugin → allowed registrant.2

/-- While a provider is not registered anew, it gets no further numbers. -/
theorem RegisteredOnly.move {model : Model} {plugin : String} {allowed : Nat → Prop}
    (only : model.RegisteredOnly plugin allowed) {move : Move} {rest : List Move}
    (unregistered : NoneSucceeds (Operation.IsRegister plugin) model (move :: rest)) :
    (model.move move).RegisteredOnly plugin allowed := by
  intro registrant member same
  rw [(model.moved move).registrants] at member
  rcases mem_registrantsAfter member with old | ⟨registered, provider, settings, rfl, admitted, rfl⟩
  · exact only registrant old same
  · exact (unregistered.head same (perform_register_eq_done.mpr admitted)).elim

/-- Without a registration, nothing makes an entry. -/
theorem entry?_move_of_absent {model : Model} {plugin : String} {context : PatchsetContext} (roster : model.Roster)
    (absent : model.RegisteredOnly plugin fun _ => False) {move : Move} {rest : List Move}
    (unregistered : NoneSucceeds (Operation.IsRegister plugin) model (move :: rest))
    (none_before : model.store.board.entry? context plugin = none) :
    (model.move move).store.board.entry? context plugin = none := by
  have stays : ∀ mutation ∈ model.written move, mutation.entryAfter context plugin none = none := by
    intro mutation member
    by_cases addresses : mutation.Addresses context plugin
    · rcases exists_of_written_addresses roster member addresses with
        ⟨provider, settings, rfl, admitted⟩ | ⟨rfl, present⟩ | ⟨run, result, _, rfl⟩ | ⟨_, _, _, _, enrolled⟩
      · exact (unregistered.head rfl (perform_register_eq_done.mpr admitted)).elim
      · obtain ⟨registrant, enrolled, same⟩ := isRegistered_iff.mp present
        exact (absent registrant enrolled same).elim
      · exact if_pos rfl
      · exact (absent _ enrolled rfl).elim
    · exact Mutation.entryAfter_of_not_addresses addresses none
  rw [(model.moved move).store, Store.entry?_applyAll, none_before]
  generalize model.written move = mutations at stays
  induction mutations with
  | nil => rfl
  | cons mutation others ih =>
    rw [List.foldl_cons, stays mutation (by simp)]
    exact ih fun other member => stays other (List.mem_cons_of_mem _ member)

theorem entry?_run_of_absent {model : Model} {plugin : String} {context : PatchsetContext} (roster : model.Roster)
    (absent : model.RegisteredOnly plugin fun _ => False) {moves : List Move}
    (unregistered : NoneSucceeds (Operation.IsRegister plugin) model moves)
    (none_before : model.store.board.entry? context plugin = none) :
    (model.run moves).store.board.entry? context plugin = none := by
  induction moves generalizing model with
  | nil => exact none_before
  | cons move rest ih =>
    exact ih (roster.move move) (absent.move unregistered) unregistered.tail
      (entry?_move_of_absent roster absent unregistered none_before)

/-- What a move writes for one registration of a provider: what a step of its own pipelines writes, or a result that is
pushed to the provider. -/
def contribution (plugin : String) (number : Nat) (model : Model) : Move → List Mutation
  | .operation (.updateResult pushed run result) => if pushed = plugin then [.push pushed run result] else []
  | .task (.pipeline index) =>
    match model.pipelines[index]? with
    | some pipeline =>
      if pipeline.key.registration = number then model.written (.task (.pipeline index)) else []
    | none => []
  | _ => []

/-- What some moves write for one registration of a provider. -/
def contributions (plugin : String) (number : Nat) : Model → List Move → List Mutation
  | _, [] => []
  | model, move :: rest =>
    model.contribution plugin number move ++ contributions plugin number (model.move move) rest

/-- Nothing else that a move writes addresses the entries of the provider. -/
theorem contribution_eq {model : Model} {plugin : String} {number : Nat} (roster : model.Roster)
    (only : model.RegisteredOnly plugin (· = number)) {move : Move} {rest : List Move}
    (unregistered : NoneSucceeds (Operation.IsRegister plugin) model (move :: rest))
    (stays : NoneSucceeds (Operation.IsUnregister plugin) model (move :: rest)) (context : PatchsetContext) :
    model.contribution plugin number move = model.written move ∨
      (model.contribution plugin number move = [] ∧
        ∀ mutation ∈ model.written move, ¬ mutation.Addresses context plugin) := by
  by_cases own : model.contribution plugin number move = model.written move
  · exact .inl own
  · have nothing : model.contribution plugin number move = [] := by
      unfold contribution at own ⊢
      split at own
      next pushed run result =>
        split
        next same => exact (own (if_pos same)).elim
        next => rfl
      next index =>
        cases at_index : model.pipelines[index]? with
        | none => rfl
        | some pipeline =>
          simp only [at_index] at own ⊢
          split
          next same => exact (own (if_pos same)).elim
          next => rfl
      next => rfl
    refine .inr ⟨nothing, fun mutation member addresses => own ?_⟩
    rcases exists_of_written_addresses roster member addresses with
      ⟨provider, settings, rfl, admitted⟩ | ⟨rfl, present⟩ | ⟨run, result, rfl, _⟩ |
      ⟨index, pipeline, rfl, at_index, enrolled⟩
    · exact (unregistered.head rfl (perform_register_eq_done.mpr admitted)).elim
    · exact (stays.head rfl (perform_unregister_eq_done.mpr present)).elim
    · exact if_pos rfl
    · simp only [contribution, at_index]
      exact if_pos (only _ enrolled rfl)

/-- A move makes of an entry of the provider what it writes for the registration. -/
theorem entry?_move {model : Model} {plugin : String} {number : Nat} (roster : model.Roster)
    (only : model.RegisteredOnly plugin (· = number)) {move : Move} {rest : List Move}
    (unregistered : NoneSucceeds (Operation.IsRegister plugin) model (move :: rest))
    (stays : NoneSucceeds (Operation.IsUnregister plugin) model (move :: rest)) (context : PatchsetContext) :
    (model.move move).store.board.entry? context plugin =
      (model.contribution plugin number move).foldl (Mutation.entryAfter context plugin)
        (model.store.board.entry? context plugin) := by
  rw [(model.moved move).store]
  rcases contribution_eq roster only unregistered stays context with own | ⟨nothing, elsewhere⟩
  · rw [own, Store.entry?_applyAll]
  · rw [nothing, Store.entry?_applyAll_of_not_addresses _ elsewhere]
    rfl

theorem entry?_run {model : Model} {plugin : String} {number : Nat} (roster : model.Roster)
    (only : model.RegisteredOnly plugin (· = number)) {moves : List Move}
    (unregistered : NoneSucceeds (Operation.IsRegister plugin) model moves)
    (stays : NoneSucceeds (Operation.IsUnregister plugin) model moves) (context : PatchsetContext) :
    (model.run moves).store.board.entry? context plugin =
      (model.contributions plugin number moves).foldl (Mutation.entryAfter context plugin)
        (model.store.board.entry? context plugin) := by
  induction moves generalizing model with
  | nil => rfl
  | cons move rest ih =>
    rw [contributions, List.foldl_append, ← entry?_move roster only unregistered stays]
    exact ih (roster.move move) (only.move unregistered) unregistered.tail stays.tail

theorem RegisteredOnly.run {model : Model} {plugin : String} {allowed : Nat → Prop}
    (only : model.RegisteredOnly plugin allowed) {moves : List Move}
    (unregistered : NoneSucceeds (Operation.IsRegister plugin) model moves) :
    (model.run moves).RegisteredOnly plugin allowed := by
  induction moves generalizing model with
  | nil => exact only
  | cons move rest ih => exact ih (only.move unregistered) unregistered.tail

/-- No move adds pipelines to a registration that has been made before. -/
theorem keys_run_filter {model : Model} {number : Nat} (made : number < model.registered) (moves : List Move) :
    (model.run moves).keys.filter (·.registration = number) = model.keys.filter (·.registration = number) := by
  induction moves generalizing model with
  | nil => rfl
  | cons move rest ih =>
    have still : number < (model.move move).registered := by
      rw [(model.moved move).registered]
      exact Nat.lt_of_lt_of_le made (model.registered_le_after move)
    have others : (model.newKeys move).filter (·.registration = number) = [] := by
      refine List.filter_eq_nil_iff.mpr fun key member => ?_
      obtain ⟨_, _, _, _, _, _, same⟩ := mem_newKeys member
      simp only [same, decide_eq_true_eq]
      omega
    refine (ih still).trans ?_
    rw [keys_move, List.filter_append, others, List.append_nil]

/-- The model right after a registration that succeeds: the provider is registered under its number only, its entries
are fresh, and the pipelines of that number are its own. -/
theorem registered_fresh {model : Model} (roster : model.Roster) {plugin : String}
    (admitted : model.admits plugin = true) (provider : Provider) (settings : Option ProviderConfig) :
    let next := model.move (.operation (.register plugin provider settings))
    next.RegisteredOnly plugin (· = model.registered) ∧ model.registered < next.registered ∧
      (∀ context, next.store.board.entry? context plugin = some (.fresh plugin)) ∧
      next.keys.filter (·.registration = model.registered) =
        PatchsetContext.all.map fun context => { plugin, context, registration := model.registered } := by
  intro next
  have moved := model.moved (.operation (.register plugin provider settings))
  refine ⟨?_, ?_, ?_, ?_⟩
  · intro registrant member same
    rw [moved.registrants] at member
    rcases mem_registrantsAfter member with old | ⟨_, _, _, _, _, rfl⟩
    · have absent : model.isRegistered plugin = false := by
        simp only [admits, Bool.and_eq_true, Bool.not_eq_true'] at admitted
        exact admitted.2
      have present := isRegistered_iff.mpr ⟨registrant, old, same⟩
      rw [absent] at present
      cases present
    · rfl
  · rw [moved.registered, registeredAfter_register admitted]
    exact Nat.lt_succ_self _
  · intro context
    rw [moved.store, Store.entry?_applyAll]
    simp only [written, admitted, ↓reduceIte, PatchsetContext.all, List.map_cons, List.map_nil, List.foldl_cons,
      List.foldl_nil, Mutation.entryAfter, true_and]
    cases context <;> rfl
  · have older : model.keys.filter (·.registration = model.registered) = [] := by
      refine List.filter_eq_nil_iff.mpr fun key member => ?_
      have below := roster.keys key member
      simp only [decide_eq_true_eq]
      omega
    rw [keys_move, List.filter_append, older, List.nil_append]
    simp only [newKeys, admitted, ↓reduceIte, List.filter_map]
    exact congrArg (List.map _) (List.filter_eq_self.mpr fun _ _ => by simp)

/-- After some moves the entries of a provider belong to one of its registrations. -/
structure Owned (plugin : String) (number : Nat) (model : Model) (moves : List Move) : Prop where
  /-- The registration has one pipeline for each context. -/
  keys : (model.run moves).keys.filter (·.registration = number) =
    PatchsetContext.all.map fun context => { plugin, context, registration := number }
  /-- The entries are those of a store in which nothing was ever written but fresh entries, what those pipelines wrote,
  and the results that were pushed to the provider. -/
  entries : ∀ context, (model.run moves).store.board.entry? context plugin =
    (Store.applyAll {} (PatchsetContext.all.map (.register plugin) ++
      model.contributions plugin number moves)).board.entry? context plugin
  /-- A step of a pipeline of another registration, an earlier one of the provider included, leaves the entries as they
  are, whatever outcome it handles. -/
  foreign : ∀ earlier index later, moves = earlier ++ .task (.pipeline index) :: later →
    ∀ pipeline, (model.run earlier).pipelines[index]? = some pipeline → pipeline.key.registration ≠ number →
      ∀ context, (model.run (earlier ++ [.task (.pipeline index)])).store.board.entry? context plugin =
        (model.run earlier).store.board.entry? context plugin

/-- From the end of a provider's registration until its next one there is no entry of the provider. From a registration
on, as long as it is neither ended nor followed by another, the entries are its own. -/
theorem registrations_isolated (host : Host) (config : ModelConfig) (before after : List Move) (plugin : String) :
    ((((create host config).run before).perform (.unregister plugin)).1 = .done →
      NoneSucceeds (Operation.IsRegister plugin)
        (((create host config).run before).move (.operation (.unregister plugin))) after →
      ∀ context, ((create host config).run
        (before ++ .operation (.unregister plugin) :: after)).store.board.entry? context plugin = none) ∧
    ∀ provider settings,
      (((create host config).run before).perform (.register plugin provider settings)).1 = .done →
      NoneSucceeds (Operation.IsRegister plugin)
        (((create host config).run before).move (.operation (.register plugin provider settings))) after →
      NoneSucceeds (Operation.IsUnregister plugin)
        (((create host config).run before).move (.operation (.register plugin provider settings))) after →
      Owned plugin ((create host config).run before).registered
        (((create host config).run before).move (.operation (.register plugin provider settings))) after := by
  have roster := (roster_create host config).run before
  generalize present : (create host config).run before = model at roster
  constructor
  · intro succeeds unregistered context
    have registered := perform_unregister_eq_done.mp succeeds
    have moved := model.moved (.operation (.unregister plugin))
    rw [run_append, present]
    refine entry?_run_of_absent (roster.move _) ?_ unregistered ?_
    · intro registrant member same
      rw [moved.registrants] at member
      have other := (List.mem_filter.mp member).2
      simp only [same, ne_eq, not_true_eq_false, decide_false, Bool.false_eq_true] at other
    · rw [moved.store, Store.entry?_applyAll]
      simp only [written, registered, ↓reduceIte, List.foldl_cons, List.foldl_nil, Mutation.entryAfter]
  · intro provider settings succeeds unregistered stays
    obtain ⟨only, made, fresh, own⟩ :=
      registered_fresh roster (perform_register_eq_done.mp succeeds) provider settings
    have next := roster.move (.operation (.register plugin provider settings))
    refine ⟨?_, ?_, ?_⟩
    · rw [keys_run_filter made, own]
    · intro context
      rw [entry?_run next only unregistered stays, fresh, Store.entry?_applyAll, List.foldl_append]
      congr 1
      cases context <;> simp [PatchsetContext.all, Mutation.entryAfter]
    · intro earlier index later split pipeline at_index foreign context
      rw [split] at unregistered stays
      rw [run_concat, entry?_move (next.run earlier) (only.run unregistered.of_append) unregistered.after
        stays.after context]
      simp only [contribution, at_index, foreign, ↓reduceIte, List.foldl_nil]

/-- A provider is registered and has been asked for the checks of a change; its answer is there but not handled. -/
def answeredMoves : List Move :=
  [.host (.loadChange ((ChangeInfo.ofNumber 42 "tools").addRevision "first" 1 "")),
    .operation (.register "ci" (fun _ _ _ => .handedOut) none), .task (.pipeline 0), .task (.pipeline 0),
    .answer 0 (.response .empty)]

/-- The provider that has answered is taken away and registered anew; the old pipeline runs once more, then a new
one. -/
theorem registrations_isolated_answered :
    (∀ context, ((create {} {}).run (answeredMoves ++ [.operation (.unregister "ci"),
      .task (.pipeline 0)])).store.board.entry? context "ci" = none) ∧
    Owned "ci" 1 ((create {} {}).run (answeredMoves ++ [.operation (.unregister "ci"),
      .operation (.register "ci" (fun _ _ _ => .handedOut) none)])) [.task (.pipeline 0), .task (.pipeline 2)] := by
  have quiet : ∀ kind model, NoneSucceeds kind model [.task (.pipeline 0), .task (.pipeline 2)] := fun kind model =>
    noneSucceeds_of_forall (by simp)
  constructor
  · refine (registrations_isolated {} {} answeredMoves [.task (.pipeline 0)] "ci").1 (by decide) ?_
    exact noneSucceeds_of_forall (by simp)
  · exact (registrations_isolated {} {} (answeredMoves ++ [.operation (.unregister "ci")])
      [.task (.pipeline 0), .task (.pipeline 2)] "ci").2 (fun _ _ _ => .handedOut) none (by decide) (quiet _ _)
      (quiet _ _)

end Model

end ReviewChecks
