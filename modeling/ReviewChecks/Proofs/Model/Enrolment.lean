import ReviewChecks.Proofs.Board.Names
import ReviewChecks.Proofs.Model.Isolation

/-! # Who is enrolled

Before a model is shut down its registry, in the order of the registrations, and the entries of both contexts name the
same providers in the same order (`Model.entries_mirror_registry`). Pipelines keep that up because they only write
about their own provider while it is registered, so that they never add an entry (`Mutation.namesAfter_of_target?`).
`Model.Enrolment` is what else follows of registrations in every run: each has its own pipeline in each context, and no
two pipelines have the same key. So only results that are pushed can reach the entry of a pipeline behind its back
(`Model.exists_push_of_addresses`).
-/

namespace ReviewChecks

/-- A write about an entry of a provider that has one in every context adds no name. -/
theorem Mutation.namesAfter_of_target? {mutation : Mutation} {place : String × PatchsetContext}
    (aimed : mutation.target? = some place) {names : List String} (held : place.1 ∈ names)
    (context : PatchsetContext) : mutation.namesAfter context names = names := by
  cases mutation with
  | register | startLoading | fail | requireLogin | load =>
    obtain rfl := Option.some.inj aimed
    simp only [namesAfter, held, not_true_eq_false, and_false, ↓reduceIte]
  | remove | push | setPin | normalizePin => cases aimed

/-- Mutations that keep the names of a context keep them together. -/
theorem Store.names_applyAll_of_kept (store : Store) {mutations : List Mutation} {context : PatchsetContext}
    (kept : ∀ mutation ∈ mutations, mutation.namesAfter context (store.board.map context).entries.names =
      (store.board.map context).entries.names) :
    ((store.applyAll mutations).board.map context).entries.names = (store.board.map context).entries.names := by
  induction mutations generalizing store with
  | nil => rfl
  | cons mutation rest ih =>
    have same : ((store.apply mutation).board.map context).entries.names =
        (store.board.map context).entries.names :=
      (names_apply ..).trans (kept mutation (List.mem_cons_self ..))
    refine (ih (store.apply mutation) fun other member => ?_).trans same
    rw [same]
    exact kept other (List.mem_cons_of_mem _ member)

/-- Where only pushed results reach an entry, what they keep of it stays. -/
theorem Store.exists_entry_of_pushed (store : Store) {mutations : List Mutation} {context : PatchsetContext}
    {plugin : String} (pushed : ∀ mutation ∈ mutations, mutation.Addresses context plugin →
      ∃ run result, mutation = .push plugin run result) (keeps : Entry → Prop)
    (stays : ∀ entry run result, keeps entry → keeps ((entry.push? run result).getD entry)) {entry : Entry}
    (found : store.board.entry? context plugin = some entry) (kept : keeps entry) :
    ∃ after, (store.applyAll mutations).board.entry? context plugin = some after ∧ keeps after := by
  induction mutations generalizing store entry with
  | nil => exact ⟨entry, found, kept⟩
  | cons mutation rest ih =>
    have others : ∀ other ∈ rest, other.Addresses context plugin → ∃ run result, other = .push plugin run result :=
      fun other member => pushed other (List.mem_cons_of_mem _ member)
    have first := store.entry?_apply mutation context plugin
    rw [found] at first
    by_cases addresses : mutation.Addresses context plugin
    · obtain ⟨run, result, rfl⟩ := pushed mutation (List.mem_cons_self ..) addresses
      simp only [Mutation.entryAfter, ↓reduceIte, Option.map_some] at first
      exact ih (store.apply _) others first (stays entry run result kept)
    · rw [Mutation.entryAfter_of_not_addresses addresses] at first
      exact ih (store.apply mutation) others first kept

namespace Model

/-- A move keeps registrations and ends some, or adds one at the end. -/
theorem registrantsAfter_sublist (model : Model) (move : Move) :
    (model.registrantsAfter move).Sublist model.registrants ∨
      ∃ plugin provider settings, move = .operation (.register plugin provider settings) ∧
        model.admits plugin = true ∧
        model.registrantsAfter move = model.registrants ++ [(plugin, model.registered)] := by
  unfold registrantsAfter
  split
  next plugin provider settings =>
    split
    next admitted => exact .inr ⟨plugin, provider, settings, rfl, admitted, rfl⟩
    next => exact .inl (.refl _)
  next => exact .inl List.filter_sublist
  next =>
    split
    · exact .inl (List.nil_sublist _)
    · exact .inl (.refl _)
  next =>
    split
    · exact .inl (List.nil_sublist _)
    · exact .inl (.refl _)
  next => exact .inl (.refl _)

/-- Registrations stand in their order, of different providers, and have their pipelines. -/
structure Enrolment (model : Model) : Prop where
  /-- The numbers of the registrations that stand ascend. -/
  ordered : (model.registrants.map Prod.snd).Pairwise (· < ·)
  /-- No provider is registered twice. -/
  distinct : (model.registrants.map Prod.fst).Nodup
  /-- No two pipelines have the same key. -/
  keys : model.keys.Nodup
  /-- Each registration has a pipeline in each context. -/
  staffed : ∀ registrant ∈ model.registrants, ∀ context,
    { plugin := registrant.1, context, registration := registrant.2 : PipelineKey } ∈ model.keys

theorem not_mem_registrants_of_admits {model : Model} {plugin : String} (admitted : model.admits plugin = true) :
    plugin ∉ model.registrants.map Prod.fst := by
  intro named
  obtain ⟨registrant, enrolled, same⟩ := List.mem_map.mp named
  have present := isRegistered_iff.mpr ⟨registrant, enrolled, same⟩
  simp [admits, present] at admitted

theorem nodup_newKeys (model : Model) (move : Move) : (model.newKeys move).Nodup := by
  unfold newKeys
  split
  · split
    · simp [PatchsetContext.all]
    · exact List.nodup_nil
  · exact List.nodup_nil

theorem Enrolment.move {model : Model} (enrolment : model.Enrolment) (roster : model.Roster) (move : Move) :
    (model.move move).Enrolment := by
  have moved := model.moved move
  have keys := keys_move model move
  constructor
  · rw [moved.registrants]
    rcases model.registrantsAfter_sublist move with kept | ⟨_, _, _, rfl, _, added⟩
    · exact enrolment.ordered.sublist (kept.map _)
    · rw [added, List.map_append]
      refine List.pairwise_append.mpr ⟨enrolment.ordered, by simp, ?_⟩
      intro number member newest same
      obtain ⟨registrant, enrolled, rfl⟩ := List.mem_map.mp member
      obtain rfl := List.mem_singleton.mp same
      exact roster.registrants registrant enrolled
  · rw [moved.registrants]
    rcases model.registrantsAfter_sublist move with kept | ⟨_, _, _, rfl, admitted, added⟩
    · exact enrolment.distinct.sublist (kept.map _)
    · rw [added, List.map_append]
      refine List.nodup_append.mpr ⟨enrolment.distinct, by simp, ?_⟩
      intro plugin member newest same
      obtain rfl := List.mem_singleton.mp same
      exact ne_of_mem_of_not_mem member (not_mem_registrants_of_admits admitted)
  · rw [keys]
    refine List.nodup_append.mpr ⟨enrolment.keys, model.nodup_newKeys move, ?_⟩
    rintro key old _ new rfl
    obtain ⟨_, _, _, _, _, _, number⟩ := mem_newKeys new
    have below := roster.keys key old
    omega
  · intro registrant member context
    rw [moved.registrants] at member
    rw [keys]
    rcases mem_registrantsAfter member with old | ⟨plugin, provider, settings, rfl, admitted, rfl⟩
    · exact List.mem_append_left _ (enrolment.staffed registrant old context)
    · refine List.mem_append_right _ ?_
      simp only [newKeys, admitted, ↓reduceIte, PatchsetContext.all, List.map_cons, List.map_nil, List.mem_cons]
      cases context <;> simp

theorem enrolment_create (host : Host) (config : ModelConfig) : (create host config).Enrolment :=
  ⟨.nil, List.nodup_nil, List.nodup_nil, fun _ member => by cases member⟩

theorem Enrolment.run {model : Model} (enrolment : model.Enrolment) (roster : model.Roster) (moves : List Move) :
    (model.run moves).Enrolment := by
  induction moves generalizing model with
  | nil => exact enrolment
  | cons move rest ih => exact ih (enrolment.move roster move) (roster.move move)

theorem enrolment_run (host : Host) (config : ModelConfig) (moves : List Move) :
    ((create host config).run moves).Enrolment :=
  (enrolment_create host config).run (roster_create host config) moves

/-- A provider that is registered is registered under one number. -/
theorem Enrolment.registeredOnly {model : Model} (enrolment : model.Enrolment) {plugin : String} {number : Nat}
    (enrolled : (plugin, number) ∈ model.registrants) : model.RegisteredOnly plugin (· = number) := by
  intro registrant member same
  have unique := List.inj_on_of_nodup_map enrolment.distinct member enrolled same
  rw [unique]

/-- Two places with the same key are one. -/
theorem Enrolment.index_eq {model : Model} (enrolment : model.Enrolment) {index other : Nat}
    {pipeline otherPipeline : Pipeline} (at_index : model.pipelines[index]? = some pipeline)
    (at_other : model.pipelines[other]? = some otherPipeline) (same : pipeline.key = otherPipeline.key) :
    index = other := by
  have place : model.keys[index]? = some pipeline.key := by rw [Model.keys, List.getElem?_map, at_index]; rfl
  have otherPlace : model.keys[other]? = some pipeline.key := by
    rw [Model.keys, List.getElem?_map, at_other, same]
    rfl
  have inside := (List.getElem?_eq_some_iff.mp place).1
  exact (List.getElem?_inj inside enrolment.keys).mp (place.trans otherPlace.symm)

/-- Of a provider that is registered under one number, only one pipeline in a context has a registration that stands. -/
theorem Enrolment.index_eq_of_enrolled {model : Model} (enrolment : model.Enrolment) {index other : Nat}
    {pipeline otherPipeline : Pipeline} (at_index : model.pipelines[index]? = some pipeline)
    (at_other : model.pipelines[other]? = some otherPipeline)
    (only : model.RegisteredOnly pipeline.key.plugin (· = pipeline.key.registration))
    (enrolled : (otherPipeline.key.plugin, otherPipeline.key.registration) ∈ model.registrants)
    (plugin : otherPipeline.key.plugin = pipeline.key.plugin)
    (context : otherPipeline.key.context = pipeline.key.context) : other = index := by
  have number : otherPipeline.key.registration = pipeline.key.registration := only _ enrolled plugin
  have same : otherPipeline.key = pipeline.key := calc
    otherPipeline.key
    _ = ⟨otherPipeline.key.plugin, otherPipeline.key.context, otherPipeline.key.registration⟩ := rfl
    _ = ⟨pipeline.key.plugin, pipeline.key.context, pipeline.key.registration⟩ := by rw [plugin, context, number]
  exact enrolment.index_eq at_other at_index same

/-- Where a provider stays under one number, or goes without being registered anew, nobody but its own pipeline in a
context reaches its entry there, pushed results apart. -/
theorem exists_push_of_addresses {model : Model} (roster : model.Roster) (enrolment : model.Enrolment) {index : Nat}
    {pipeline : Pipeline} (at_index : model.pipelines[index]? = some pipeline)
    (only : model.RegisteredOnly pipeline.key.plugin (· = pipeline.key.registration)) {move : Move}
    (untaken : move ≠ .task (.pipeline index))
    (unregistered : ∀ provider settings, move = .operation (.register pipeline.key.plugin provider settings) →
      model.admits pipeline.key.plugin = false)
    (stays : move = .operation (.unregister pipeline.key.plugin) → model.isRegistered pipeline.key.plugin = false)
    {mutation : Mutation} (member : mutation ∈ model.written move)
    (addresses : mutation.Addresses pipeline.key.context pipeline.key.plugin) :
    ∃ run result, mutation = .push pipeline.key.plugin run result := by
  rcases exists_of_written_addresses roster member addresses with
    ⟨provider, settings, rfl, admitted⟩ | ⟨rfl, present⟩ | ⟨run, result, _, rfl⟩ |
    ⟨other, otherPipeline, rfl, at_other, enrolled⟩
  · rw [unregistered provider settings rfl] at admitted
    cases admitted
  · rw [stays rfl] at present
    cases present
  · exact ⟨run, result, rfl⟩
  · -- the other pipeline has the same provider, registration and context, so it is this one
    obtain ⟨_, written⟩ := written_pipeline at_other member
    have aimed := Turn.target?_of_mem_writes ⟨model.scene otherPipeline, otherPipeline⟩ written
    obtain ⟨plugin, context⟩ := Mutation.target?_of_addresses addresses aimed
    rw [← plugin] at enrolled
    exact (untaken (by rw [enrolment.index_eq_of_enrolled at_index at_other only enrolled plugin context])).elim

/-- The names of the providers that have an entry in a context. -/
def namesIn (model : Model) (context : PatchsetContext) : List String :=
  (model.store.board.map context).entries.names

/-- Both contexts name the registered providers in the order of their registrations. -/
def Mirrors (model : Model) : Prop :=
  ∀ context, model.namesIn context = model.registrants.map Prod.fst

theorem running_of_move {model : Model} {move : Move} (running : (model.move move).life = .running) :
    model.life = .running := by
  rw [(model.moved move).life] at running
  unfold lifeAfter at running
  split at running
  · split at running
    · cases running
    · exact running
  · cases running
  · exact running

theorem running_of_run {model : Model} {moves : List Move} (running : (model.run moves).life = .running) :
    model.life = .running := by
  induction moves generalizing model with
  | nil => exact running
  | cons move rest ih => exact running_of_move (ih running)

/-- What a pipeline writes names a provider that is registered. -/
theorem registered_of_written_pipeline {model : Model} (roster : model.Roster) {index : Nat} {mutation : Mutation}
    (member : mutation ∈ model.written (.task (.pipeline index))) :
    ∃ place, mutation.target? = some place ∧ place.1 ∈ model.registrants.map Prod.fst := by
  cases at_index : model.pipelines[index]? with
  | none =>
    simp only [written, at_index] at member
    cases member
  | some pipeline =>
    obtain ⟨live, written⟩ := written_pipeline at_index member
    exact ⟨_, Turn.target?_of_mem_writes ⟨model.scene pipeline, pipeline⟩ written,
      List.mem_map.mpr ⟨_, enrolled_of_isLive roster at_index live, rfl⟩⟩

/-- A move that is neither a registration nor the end of one adds no name and takes none away. -/
theorem namesAfter_of_written {model : Model} (mirrors : model.Mirrors) (roster : model.Roster) {move : Move}
    (others : ∀ plugin provider settings, move ≠ .operation (.register plugin provider settings))
    (othersToo : ∀ plugin, move ≠ .operation (.unregister plugin)) (context : PatchsetContext) {mutation : Mutation}
    (member : mutation ∈ model.written move) :
    mutation.namesAfter context (model.namesIn context) = model.namesIn context := by
  unfold written at member
  split at member
  next plugin provider settings => exact (others plugin provider settings rfl).elim
  next plugin => exact (othersToo plugin rfl).elim
  next =>
    obtain rfl := List.mem_singleton.mp member
    rfl
  next =>
    obtain rfl := List.mem_singleton.mp member
    rfl
  next index =>
    obtain ⟨place, aimed, named⟩ := registered_of_written_pipeline roster member
    exact Mutation.namesAfter_of_target? aimed (mirrors context ▸ named) context
  next =>
    split at member
    · obtain rfl := List.mem_singleton.mp member
      rfl
    · cases member
  next =>
    split at member
    · obtain rfl := List.mem_singleton.mp member
      rfl
    · cases member
  next => cases member

/-- A registration that succeeds puts the provider at the end of both contexts. -/
theorem namesIn_register {model : Model} (mirrors : model.Mirrors) {plugin : String}
    (admitted : model.admits plugin = true) (provider : Provider) (settings : Option ProviderConfig)
    (context : PatchsetContext) :
    (model.move (.operation (.register plugin provider settings))).namesIn context =
      model.namesIn context ++ [plugin] := by
  have unnamed : plugin ∉ model.namesIn context := by
    rw [mirrors context]
    exact not_mem_registrants_of_admits admitted
  rw [namesIn] at unnamed
  rw [namesIn, (model.moved _).store]
  simp only [written, admitted, ↓reduceIte, PatchsetContext.all, List.map_cons, List.map_nil, Store.applyAll,
    List.foldl_cons, List.foldl_nil, Store.names_apply, Mutation.namesAfter, namesIn]
  cases context <;> simp [unnamed]

theorem namesIn_unregister {model : Model} (mirrors : model.Mirrors) (plugin : String) (context : PatchsetContext) :
    (model.move (.operation (.unregister plugin))).namesIn context =
      (model.namesIn context).filter (· ≠ plugin) := by
  rw [namesIn, (model.moved _).store]
  cases registered : model.isRegistered plugin with
  | true =>
    simp only [written, registered, ↓reduceIte, Store.applyAll, List.foldl_cons, List.foldl_nil, Store.names_apply,
      Mutation.namesAfter, namesIn]
  | false =>
    simp only [written, registered, Bool.false_eq_true, ↓reduceIte, Store.applyAll, List.foldl_nil]
    refine (List.filter_eq_self.mpr fun name named => ?_).symm
    rw [← namesIn, mirrors context] at named
    obtain ⟨registrant, enrolled, rfl⟩ := List.mem_map.mp named
    have other : registrant.1 ≠ plugin := fun same => by
      rw [isRegistered_iff.mpr ⟨registrant, enrolled, same⟩] at registered
      cases registered
    simpa using other

/-- Every move of a model that goes on running keeps the contexts in line with the registry. -/
theorem Mirrors.move {model : Model} (mirrors : model.Mirrors) (roster : model.Roster) {move : Move}
    (running : (model.move move).life = .running) : (model.move move).Mirrors := by
  intro context
  have moved := model.moved move
  have unchanged (keeps : model.registrantsAfter move = model.registrants)
      (kept : ∀ mutation ∈ model.written move,
        mutation.namesAfter context (model.namesIn context) = model.namesIn context) :
      (model.move move).namesIn context = (model.move move).registrants.map Prod.fst := by
    rw [moved.registrants, keeps, ← mirrors context, namesIn, moved.store]
    exact Store.names_applyAll_of_kept _ kept
  cases move using Move.casesQuiet with
  | quiet move quiet =>
    have same := agrees_of_isQuiet model quiet
    rw [namesIn, same.store, registrants, same.registry]
    exact mirrors context
  | register plugin provider settings =>
    cases admitted : model.admits plugin with
    | true =>
      rw [namesIn_register mirrors admitted, mirrors context, moved.registrants]
      simp only [registrantsAfter, admitted, ↓reduceIte, List.map_append, List.map_cons, List.map_nil]
    | false => exact unchanged (by simp [registrantsAfter, admitted]) (by simp [written, admitted])
  | unregister plugin =>
    rw [namesIn_unregister mirrors, mirrors context, moved.registrants, registrantsAfter, List.filter_map]
    rfl
  | shutdown =>
    have ended := moved.life
    rw [running, lifeAfter, if_pos (running_of_move running)] at ended
    cases ended
  | drop =>
    have ended := moved.life
    rw [running] at ended
    cases ended
  | updateResult | setPatchset | host | answer | pipeline | followRouter | followLatest =>
    exact unchanged rfl fun _ => namesAfter_of_written mirrors roster (by simp) (by simp) context

theorem mirrors_run (host : Host) (config : ModelConfig) (moves : List Move)
    (running : ((create host config).run moves).life = .running) : ((create host config).run moves).Mirrors := by
  induction moves using List.reverseRecOn with
  | nil =>
    intro context
    have moved := Store.names_apply {} (.setPin (normalized host.routerPatchset.value host.latestPatchset.value))
    cases context <;> exact (moved _)
  | append_singleton moves move ih =>
    rw [run_concat] at running ⊢
    exact (ih (running_of_move running)).move ((roster_create host config).run moves) running

/-- What the entries of a model say of its registry. -/
structure MirrorsRegistry (model : Model) : Prop where
  /-- Registrations stand in the order in which they were made. -/
  ordered : model.registry.Pairwise fun earlier later => earlier.number < later.number
  /-- No provider is registered twice. -/
  nodup : (model.registry.map (·.plugin)).Nodup
  /-- Each context has an entry of each registered provider, in that order, and no other entries. -/
  names : ∀ context, (model.store.board.map context).entries.names = model.registry.map (·.plugin)

theorem map_fst_registrants (model : Model) : model.registrants.map Prod.fst = model.registry.map (·.plugin) := by
  simp only [registrants, List.map_map]
  rfl

theorem Enrolment.mirrorsRegistry {model : Model} (enrolment : model.Enrolment) (mirrors : model.Mirrors) :
    model.MirrorsRegistry where
  ordered := by
    have ordered := enrolment.ordered
    simp only [registrants, List.map_map] at ordered
    exact List.pairwise_map.mp ordered
  nodup := map_fst_registrants model ▸ enrolment.distinct
  names context := (mirrors context).trans (map_fst_registrants model)

/-- An operation that is refused changes nothing. -/
theorem perform_of_refused {model : Model} {operation : Operation} {error : Error}
    (refused : (model.perform operation).1 = .refused error) : (model.perform operation).2 = model := by
  have accepted : ∀ result, (model.accept result).1 = .refused error → (model.accept result).2 = model := by
    intro result answer
    cases result with
    | ok next => cases answer
    | error reason => rfl
  cases operation with
  | register | unregister | reload => exact accepted _ refused
  | reloadAll | reloadForCheck | updateResult | setPatchset | trigger | shutdown | drop => cases refused

/-- Until a model is shut down, its registry and the entries of both contexts name the same providers in the same
order. An operation that is refused changes nothing, and a registration that succeeds comes last, also one of a provider
that was registered before. -/
theorem entries_mirror_registry (host : Host) (config : ModelConfig) (moves : List Move) :
    (((create host config).run moves).life = .running → ((create host config).run moves).MirrorsRegistry) ∧
    (∀ operation error, (((create host config).run moves).perform operation).1 = .refused error →
      (((create host config).run moves).perform operation).2 = (create host config).run moves) ∧
    ∀ plugin provider settings,
      (((create host config).run moves).perform (.register plugin provider settings)).1 = .done → ∀ context,
        (((create host config).run (moves ++ [.operation (.register plugin provider settings)])).store.board.map
            context).entries.names =
          (((create host config).run moves).store.board.map context).entries.names ++ [plugin] := by
  have enrolment := enrolment_run host config moves
  refine ⟨fun running => ?_, fun operation error => perform_of_refused, ?_⟩
  · exact enrolment.mirrorsRegistry (mirrors_run host config moves running)
  · intro plugin provider settings succeeds context
    have admitted := perform_register_eq_done.mp succeeds
    have running : ((create host config).run moves).life = .running := by
      simp only [admits, Bool.and_eq_true, decide_eq_true_eq] at admitted
      exact admitted.1
    rw [run_concat]
    exact namesIn_register (mirrors_run host config moves running) admitted provider settings context

/-- Of two providers the first one is taken away, while its pipeline runs. -/
def leavingMoves : List Move :=
  [.operation (.register "ci" (fun _ _ _ => .handedOut) none),
    .operation (.register "lint" (fun _ _ _ => .handedOut) none), .task (.pipeline 0),
    .operation (.unregister "ci"), .task (.pipeline 0), .task (.pipeline 3)]

/-- The one that stays is not registered again, and the one that has left comes last when it returns. -/
theorem entries_mirror_registry_leaving :
    ((create {} {}).run leavingMoves).MirrorsRegistry ∧
    (((create {} {}).run leavingMoves).perform (.register "lint" (fun _ _ _ => .never) none)).2 =
      (create {} {}).run leavingMoves ∧
    ∀ context, (((create {} {}).run (leavingMoves ++
      [.operation (.register "ci" (fun _ _ _ => .handedOut) none)])).store.board.map context).entries.names =
        ["lint"] ++ ["ci"] := by
  obtain ⟨mirrors, unchanged, appended⟩ := entries_mirror_registry {} {} leavingMoves
  refine ⟨mirrors (by decide), unchanged _ (.alreadyRegistered "lint") (by decide), fun context => ?_⟩
  rw [appended "ci" _ none (by decide), (mirrors (by decide)).names]
  exact congrArg (· ++ ["ci"]) (by decide)

end Model

end ReviewChecks
