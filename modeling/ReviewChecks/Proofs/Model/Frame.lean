import ReviewChecks.Model.Move
import ReviewChecks.Proofs.Pipeline.Turn

/-! # What a move changes

A move touches few parts of a model, and what it makes of them can be read off the model before (`Model.moved`): the
store changes by a list of mutations, pipelines are only added, by a registration, who is registered changes only by
registrations and their ends, and what the following task has seen of the latest patchset only by its own look at it. A
pipeline changes only by its own turns, answers to its fetch apart (`Model.getElem?_of_turn`,
`Model.persists_of_no_turn`), which gives the three ways in which a pipeline comes to its place (`Model.ComesFrom`).
-/

namespace ReviewChecks

/-- What tells a registration from others: everything but the reloads requested so far. -/
def Registration.identity (registration : Registration) : String × Nat :=
  (registration.plugin, registration.number)

namespace Model

/-- Two models agree on the host and what of its latest patchset has been seen, the store, the pipelines, on who is
registered, and on the stage of their lives. -/
structure Agrees (model other : Model) : Prop where
  host : other.host = model.host
  store : other.store = model.store
  pipelines : other.pipelines = model.pipelines
  fetches : other.fetches = model.fetches
  registered : other.registered = model.registered
  life : other.life = model.life
  seenLatest : other.seenLatestPatchset = model.seenLatestPatchset
  registry : other.registry.map Registration.identity = model.registry.map Registration.identity

theorem Agrees.refl (model : Model) : Agrees model model :=
  ⟨rfl, rfl, rfl, rfl, rfl, rfl, rfl, rfl⟩

theorem Agrees.trans {first second third : Model} (left : Agrees first second) (right : Agrees second third) :
    Agrees first third where
  host := right.host.trans left.host
  store := right.store.trans left.store
  pipelines := right.pipelines.trans left.pipelines
  fetches := right.fetches.trans left.fetches
  registered := right.registered.trans left.registered
  life := right.life.trans left.life
  seenLatest := right.seenLatest.trans left.seenLatest
  registry := right.registry.trans left.registry

theorem agrees_record (model : Model) (effects : List Effect) : Agrees model (model.record effects) :=
  ⟨rfl, rfl, rfl, rfl, rfl, rfl, rfl, rfl⟩

theorem agrees_reloadWhere (model : Model) (condition : Registration → Bool) :
    Agrees model (model.reloadWhere condition) := by
  refine ⟨rfl, rfl, rfl, rfl, rfl, rfl, rfl, ?_⟩
  simp only [reloadWhere, List.map_map]
  apply List.map_congr_left
  intro registration _
  simp only [Function.comp_apply]
  split <;> rfl

theorem agrees_reloadAll (model : Model) : Agrees model model.reloadAll :=
  agrees_reloadWhere model _

theorem agrees_reloadForCheck (model : Model) (checkName : Option String) :
    Agrees model (model.reloadForCheck checkName) := by
  unfold reloadForCheck
  split
  · exact agrees_reloadAll model
  · split
    · exact agrees_reloadWhere ..
    · exact .refl model

theorem agrees_trigger (model : Model) (action : Action) (run : Option RunInfo)
    (callback : ActionInvocation → Option Promise) : Agrees model (model.trigger action run callback).2 := by
  unfold trigger
  split
  · exact .refl model
  · dsimp only
    split <;> exact ⟨rfl, rfl, rfl, rfl, rfl, rfl, rfl, rfl⟩

theorem agrees_relayReload (model : Model) : Agrees model model.relayReload := by
  unfold relayReload
  split
  · split
    · exact .refl model
    next delivery read received =>
      have looked : Agrees model { model with reloadsRead := read } := ⟨rfl, rfl, rfl, rfl, rfl, rfl, rfl, rfl⟩
      dsimp only
      split
      · exact ⟨rfl, rfl, rfl, rfl, rfl, rfl, rfl, rfl⟩
      · exact looked.trans (agrees_reloadAll _)
  · exact .refl model

theorem agrees_stepAction (model : Model) (number : Nat) : Agrees model (model.stepAction number) := by
  have done : ∀ pending, Agrees model { model with pending } := fun _ => ⟨rfl, rfl, rfl, rfl, rfl, rfl, rfl, rfl⟩
  unfold stepAction
  split
  · exact .refl model
  · split
    · dsimp only
      split
      · unfold handleResult
        dsimp only
        split
        · exact ((done _).trans (agrees_record ..)).trans (agrees_reloadForCheck ..)
        · exact (done _).trans (agrees_record ..)
      · exact done _
    · split
      · exact done _
      · exact .refl model

end Model

/-- A move that leaves the host, the store, the pipelines and the registered providers alone. -/
def Move.IsQuiet : Move → Prop
  | .operation (.reload _) | .operation .reloadAll | .operation (.reloadForCheck _) | .operation (.trigger ..) => True
  | .task .stopFollowing | .task .relayReload | .task .stopRelaying | .task (.action _) | .elapse _ => True
  | _ => False

namespace Model

theorem agrees_of_isQuiet (model : Model) {move : Move} (quiet : move.IsQuiet) : Agrees model (model.move move) := by
  have same : ∀ followsPatchset followsReloads,
      Agrees model { model with followsPatchset, followsReloads } :=
    fun _ _ => ⟨rfl, rfl, rfl, rfl, rfl, rfl, rfl, rfl⟩
  cases move with
  | operation operation =>
    cases operation with
    | reload plugin =>
      simp only [Model.move, perform, reload]
      split
      · exact agrees_reloadWhere ..
      · exact .refl model
    | reloadAll => exact agrees_reloadAll model
    | reloadForCheck checkName => exact agrees_reloadForCheck model checkName
    | trigger action run callback => exact agrees_trigger model action run callback
    | register | unregister | updateResult | setPatchset | shutdown | drop => exact quiet.elim
  | task task =>
    cases task with
    | stopFollowing =>
      simp only [Model.move, runTask]
      split
      · exact .refl model
      · exact same ..
    | stopRelaying =>
      simp only [Model.move, runTask]
      split
      · exact .refl model
      · exact same ..
    | relayReload => exact agrees_relayReload model
    | action number => exact agrees_stepAction model number
    | pipeline | followRouter | followLatest => exact quiet.elim
  | elapse duration => exact ⟨rfl, rfl, rfl, rfl, rfl, rfl, rfl, rfl⟩
  | host | answer => exact quiet.elim

end Model

/-- A case analysis in which the quiet moves are one case. -/
@[elab_as_elim]
theorem Move.casesQuiet {motive : Move → Prop} (quiet : ∀ move, IsQuiet move → motive move)
    (register : ∀ plugin provider settings, motive (.operation (.register plugin provider settings)))
    (unregister : ∀ plugin, motive (.operation (.unregister plugin)))
    (updateResult : ∀ plugin run result, motive (.operation (.updateResult plugin run result)))
    (setPatchset : ∀ patchset, motive (.operation (.setPatchset patchset)))
    (shutdown : motive (.operation .shutdown)) (drop : motive (.operation .drop))
    (host : ∀ action, motive (.host action)) (answer : ∀ fetch outcome, motive (.answer fetch outcome))
    (pipeline : ∀ index, motive (.task (.pipeline index))) (followRouter : motive (.task .followRouter))
    (followLatest : motive (.task .followLatest)) (move : Move) : motive move := by
  cases move with
  | operation operation =>
    cases operation with
    | register plugin provider settings => exact register plugin provider settings
    | unregister plugin => exact unregister plugin
    | updateResult plugin run result => exact updateResult plugin run result
    | setPatchset patchset => exact setPatchset patchset
    | shutdown => exact shutdown
    | drop => exact drop
    | reload | reloadAll | reloadForCheck | trigger => exact quiet _ trivial
  | host action => exact host action
  | answer fetch outcome => exact answer fetch outcome
  | task task =>
    cases task with
    | pipeline index => exact pipeline index
    | followRouter => exact followRouter
    | followLatest => exact followLatest
    | stopFollowing | relayReload | stopRelaying | action => exact quiet _ trivial
  | elapse duration => exact quiet _ trivial

namespace Model

/-- Whether a registration of a provider would be accepted. -/
def admits (model : Model) (plugin : String) : Bool :=
  decide (model.life = .running) && !model.isRegistered plugin

/-- What a move writes to the store. -/
def written (model : Model) : Move → List Mutation
  | .operation (.register plugin _ _) =>
    if model.admits plugin then PatchsetContext.all.map (.register plugin) else []
  | .operation (.unregister plugin) => if model.isRegistered plugin then [.remove plugin] else []
  | .operation (.updateResult plugin run result) => [.push plugin run result]
  | .operation (.setPatchset patchset) => [.setPin (normalized patchset model.host.latestPatchset.value)]
  | .task (.pipeline index) =>
    match model.pipelines[index]? with
    | some pipeline =>
      if (model.scene pipeline).live then (pipeline.step (model.scene pipeline)).writes else []
    | none => []
  | .task .followRouter =>
    if model.routerChanged && decide (model.life ≠ .dropped) then
      [.setPin (normalized model.host.routerPatchset.value model.host.latestPatchset.value)]
    else []
  | .task .followLatest =>
    if model.latestChanged && decide (model.life ≠ .dropped) then
      [.normalizePin model.host.latestPatchset.value]
    else []
  | _ => []

/-- The pipelines of a new registration. -/
def newPipelines (model : Model) (plugin : String) (provider : Provider) (settings : Option ProviderConfig) :
    List Pipeline :=
  PatchsetContext.all.map fun context =>
    { key := { plugin, context, registration := model.registered }, provider
      period := (model.config.providerConfig plugin settings).pollingInterval? }

theorem register_of_admits {model : Model} {plugin : String} (admitted : model.admits plugin = true)
    (provider : Provider) (settings : Option ProviderConfig) :
    model.register plugin provider settings = .ok { model with
      store := model.store.applyAll (PatchsetContext.all.map (.register plugin))
      registered := model.registered + 1
      registry := model.registry ++ [{ plugin, number := model.registered }]
      pipelines := model.pipelines ++ model.newPipelines plugin provider settings } := by
  simp only [admits, Bool.and_eq_true, decide_eq_true_eq, Bool.not_eq_true'] at admitted
  simp only [register, admitted, ne_eq, not_true_eq_false, Bool.false_eq_true, ↓reduceIte, newPipelines]

theorem register_of_not_admits {model : Model} {plugin : String} (refused : model.admits plugin = false)
    (provider : Provider) (settings : Option ProviderConfig) :
    ∃ error, model.register plugin provider settings = .error error := by
  by_cases running : model.life = .running
  · have registered : model.isRegistered plugin = true := by simpa [admits, running] using refused
    refine ⟨.alreadyRegistered plugin, ?_⟩
    simp only [register, running, registered, ne_eq, not_true_eq_false, ↓reduceIte]
  · refine ⟨.shutdown, ?_⟩
    simp only [register, running, ne_eq, not_false_eq_true, ↓reduceIte]

theorem unregister_of_isRegistered {model : Model} {plugin : String}
    (registered : model.isRegistered plugin = true) :
    model.unregister plugin = .ok { model with
      registry := model.registry.filter (·.plugin ≠ plugin)
      store := model.store.apply (.remove plugin) } := by
  simp only [unregister, registered, ↓reduceIte]

theorem unregister_of_not_isRegistered {model : Model} {plugin : String}
    (absent : model.isRegistered plugin = false) : model.unregister plugin = .error (.unknownPlugin plugin) := by
  simp only [unregister, absent, Bool.false_eq_true, ↓reduceIte]

/-- What the host publishes after a move. -/
def hostAfter (model : Model) : Move → Host
  | .host action => model.host.act action
  | _ => model.host

/-- The stage of a model's life after a move. -/
def lifeAfter (model : Model) : Move → Life
  | .operation .shutdown => if model.life = .running then .shutDown else model.life
  | .operation .drop => .dropped
  | _ => model.life

/-- How many changes of the latest patchset the following task has seen after a move. -/
def seenLatestAfter (model : Model) : Move → Nat
  | .task .followLatest =>
    if model.latestChanged then model.host.latestPatchset.changes else model.seenLatestPatchset
  | _ => model.seenLatestPatchset

/-- Who is registered, and under which number. -/
def registrants (model : Model) : List (String × Nat) :=
  model.registry.map Registration.identity

/-- Who is registered after a move. -/
def registrantsAfter (model : Model) : Move → List (String × Nat)
  | .operation (.register plugin _ _) =>
    if model.admits plugin then model.registrants ++ [(plugin, model.registered)] else model.registrants
  | .operation (.unregister plugin) => model.registrants.filter (·.1 ≠ plugin)
  | .operation .shutdown | .operation .drop => if model.life = .running then [] else model.registrants
  | _ => model.registrants

/-- How many registrations there have been after a move. -/
def registeredAfter (model : Model) : Move → Nat
  | .operation (.register plugin _ _) => if model.admits plugin then model.registered + 1 else model.registered
  | _ => model.registered

/-- The pipelines after a move. -/
def pipelinesAfter (model : Model) : Move → List Pipeline
  | .operation (.register plugin provider settings) =>
    if model.admits plugin then model.pipelines ++ model.newPipelines plugin provider settings else model.pipelines
  | .answer fetch outcome => (model.answer fetch outcome).2.pipelines
  | .task (.pipeline index) => (model.stepPipeline index).pipelines
  | _ => model.pipelines

/-- What a move makes of the parts of a model that pipelines, entries and the pin depend on. -/
structure Moved (model : Model) (move : Move) (next : Model) : Prop where
  host : next.host = model.hostAfter move
  life : next.life = model.lifeAfter move
  seenLatest : next.seenLatestPatchset = model.seenLatestAfter move
  store : next.store = model.store.applyAll (model.written move)
  registrants : next.registrants = model.registrantsAfter move
  registered : next.registered = model.registeredAfter move
  pipelines : next.pipelines = model.pipelinesAfter move
  /-- Fetches are only ever added. -/
  fetches : model.fetches ≤ next.fetches

private theorem moved_of_isQuiet (model : Model) {move : Move} (quiet : move.IsQuiet) :
    Moved model move (model.move move) := by
  have same := agrees_of_isQuiet model quiet
  have silent : model.hostAfter move = model.host ∧ model.lifeAfter move = model.life ∧
      model.seenLatestAfter move = model.seenLatestPatchset ∧ model.written move = [] ∧
      model.registrantsAfter move = model.registrants ∧ model.registeredAfter move = model.registered ∧
      model.pipelinesAfter move = model.pipelines := by
    cases move with
    | operation operation =>
      cases operation with
      | reload | reloadAll | reloadForCheck | trigger => exact ⟨rfl, rfl, rfl, rfl, rfl, rfl, rfl⟩
      | register | unregister | updateResult | setPatchset | shutdown | drop => exact quiet.elim
    | task task =>
      cases task with
      | stopFollowing | relayReload | stopRelaying | action => exact ⟨rfl, rfl, rfl, rfl, rfl, rfl, rfl⟩
      | pipeline | followRouter | followLatest => exact quiet.elim
    | elapse => exact ⟨rfl, rfl, rfl, rfl, rfl, rfl, rfl⟩
    | host | answer => exact quiet.elim
  obtain ⟨host, life, seenLatest, written, registrants, registered, pipelines⟩ := silent
  refine ⟨host ▸ same.host, life ▸ same.life, seenLatest ▸ same.seenLatest, ?_, registrants ▸ same.registry,
    registered ▸ same.registered, pipelines ▸ same.pipelines, Nat.le_of_eq same.fetches.symm⟩
  rw [written]
  exact same.store

private theorem moved_register (model : Model) (plugin : String) (provider : Provider)
    (settings : Option ProviderConfig) :
    Moved model (.operation (.register plugin provider settings))
      (model.move (.operation (.register plugin provider settings))) := by
  cases admitted : model.admits plugin with
  | true =>
    have registrants :
        (model.registry ++ [{ plugin, number := model.registered : Registration }]).map Registration.identity =
          model.registrants ++ [(plugin, model.registered)] := List.map_append
    simp only [Model.move, perform, register_of_admits admitted, accept]
    constructor <;>
      simp only [hostAfter, lifeAfter, seenLatestAfter, written, registrantsAfter, registeredAfter, pipelinesAfter,
        admitted, ↓reduceIte, Nat.le_refl]
    exact registrants
  | false =>
    obtain ⟨error, refused⟩ := register_of_not_admits admitted provider settings
    simp only [Model.move, perform, refused, accept]
    constructor <;>
      simp only [hostAfter, lifeAfter, seenLatestAfter, written, registrantsAfter, registeredAfter, pipelinesAfter,
        admitted, Bool.false_eq_true, ↓reduceIte, Nat.le_refl]
    rfl

private theorem moved_unregister (model : Model) (plugin : String) :
    Moved model (.operation (.unregister plugin)) (model.move (.operation (.unregister plugin))) := by
  have registrants : (model.registry.filter (·.plugin ≠ plugin)).map Registration.identity =
      model.registrants.filter (·.1 ≠ plugin) := by
    rw [Model.registrants, List.filter_map]
    rfl
  cases registered : model.isRegistered plugin with
  | true =>
    simp only [Model.move, perform, unregister_of_isRegistered registered, accept]
    refine ⟨rfl, rfl, rfl, ?_, registrants, rfl, rfl, Nat.le_refl _⟩
    simp only [written, registered, ↓reduceIte]
    rfl
  | false =>
    simp only [Model.move, perform, unregister_of_not_isRegistered registered, accept]
    refine ⟨rfl, rfl, rfl, ?_, ?_, rfl, rfl, Nat.le_refl _⟩
    · simp only [written, registered, Bool.false_eq_true, ↓reduceIte]
      rfl
    · rw [registrantsAfter, ← registrants, List.filter_eq_self.mpr]
      · rfl
      · intro registration member
        have other := List.any_eq_false.mp registered registration member
        simpa only [decide_eq_true_eq] using other

private theorem moved_shutdown (model : Model) : Moved model (.operation .shutdown) model.shutdown := by
  unfold shutdown
  split
  next running =>
    refine ⟨rfl, (if_pos running).symm, rfl, rfl, ?_, rfl, rfl, Nat.le_refl _⟩
    rw [registrantsAfter, if_pos running]
    rfl
  next ended =>
    refine ⟨rfl, (if_neg ended).symm, rfl, rfl, ?_, rfl, rfl, Nat.le_refl _⟩
    rw [registrantsAfter, if_neg ended]

private theorem moved_followRouter (model : Model) :
    Moved model (.task .followRouter) (model.move (.task .followRouter)) := by
  simp only [Model.move, runTask, followRouter]
  cases changed : model.routerChanged with
  | false =>
    refine ⟨rfl, rfl, rfl, ?_, rfl, rfl, rfl, Nat.le_refl _⟩
    simp only [written, changed]
    rfl
  | true =>
    by_cases dropped : model.life = .dropped
    · simp only [dropped, ↓reduceIte]
      refine ⟨rfl, dropped.symm, rfl, ?_, rfl, rfl, rfl, Nat.le_refl _⟩
      simp [written, changed, dropped, Store.applyAll]
    · simp only [dropped, ↓reduceIte]
      refine ⟨rfl, rfl, rfl, ?_, rfl, rfl, rfl, Nat.le_refl _⟩
      simp [written, changed, dropped, Store.applyAll, setPatchset]

private theorem moved_followLatest (model : Model) :
    Moved model (.task .followLatest) (model.move (.task .followLatest)) := by
  simp only [Model.move, runTask, followLatest]
  cases changed : model.latestChanged with
  | false =>
    refine ⟨rfl, rfl, ?_, ?_, rfl, rfl, rfl, Nat.le_refl _⟩
    · simp [seenLatestAfter, changed]
    · simp only [written, changed]
      rfl
  | true =>
    have seen : model.seenLatestAfter (.task .followLatest) = model.host.latestPatchset.changes := if_pos changed
    by_cases dropped : model.life = .dropped
    · simp only [dropped, ↓reduceIte]
      refine ⟨rfl, dropped.symm, seen.symm, ?_, rfl, rfl, rfl, Nat.le_refl _⟩
      simp [written, changed, dropped, Store.applyAll]
    · simp only [dropped, ↓reduceIte]
      refine ⟨rfl, rfl, seen.symm, ?_, rfl, rfl, rfl, Nat.le_refl _⟩
      simp [written, changed, dropped, Store.applyAll]

/-- What every move makes of a model. -/
theorem moved (model : Model) (move : Move) : Moved model move (model.move move) := by
  cases move using Move.casesQuiet with
  | quiet move quiet => exact moved_of_isQuiet model quiet
  | register plugin provider settings => exact moved_register model plugin provider settings
  | unregister plugin => exact moved_unregister model plugin
  | updateResult plugin run result =>
    have pushed : model.move (.operation (.updateResult plugin run result)) =
        { model with store := model.store.apply (.push plugin run result) } := by
      simp only [Model.move, perform, updateResult, Store.apply]
      cases model.store.publish? (.push plugin run result) <;> rfl
    rw [pushed]
    exact ⟨rfl, rfl, rfl, rfl, rfl, rfl, rfl, Nat.le_refl _⟩
  | setPatchset patchset => exact ⟨rfl, rfl, rfl, rfl, rfl, rfl, rfl, Nat.le_refl _⟩
  | shutdown => exact moved_shutdown model
  | drop => exact { moved_shutdown model with life := rfl }
  | host action => exact ⟨rfl, rfl, rfl, rfl, rfl, rfl, rfl, Nat.le_refl _⟩
  | answer fetch outcome =>
    have only_pipelines : ∃ pipelines, (model.answer fetch outcome).2 = { model with pipelines } := by
      unfold answer
      dsimp only
      split
      · exact ⟨_, rfl⟩
      · exact ⟨model.pipelines, rfl⟩
    obtain ⟨pipelines, answered⟩ := only_pipelines
    simp only [Model.move, answered]
    exact ⟨rfl, rfl, rfl, rfl, rfl, rfl, (congrArg Model.pipelines answered).symm, Nat.le_refl _⟩
  | pipeline index =>
    cases found : model.pipelines[index]? with
    | none =>
      have idle : model.stepPipeline index = model := by simp only [stepPipeline, found]
      simp only [Model.move, runTask, idle]
      refine ⟨rfl, rfl, rfl, ?_, rfl, rfl, (congrArg Model.pipelines idle).symm, Nat.le_refl _⟩
      simp only [written, found]
      rfl
    | some pipeline =>
      simp only [Model.move, runTask, stepPipeline, found]
      refine ⟨rfl, rfl, rfl, ?_, rfl, rfl, ?_, Nat.le_add_right ..⟩
      · simp only [written, found]
        split <;> rfl
      · simp only [pipelinesAfter, stepPipeline, found]
  | followRouter => exact moved_followRouter model
  | followLatest => exact moved_followLatest model

/-- The turn of the pipeline at a place in a move, if the move is one. -/
def turn? (model : Model) (index : Nat) : Move → Option Turn
  | .task (.pipeline taken) =>
    if taken = index then model.pipelines[index]?.map fun pipeline => ⟨model.scene pipeline, pipeline⟩ else none
  | _ => none

theorem turn?_eq_some_iff {model : Model} {index : Nat} {move : Move} {turn : Turn} :
    model.turn? index move = some turn ↔
      move = .task (.pipeline index) ∧ model.pipelines[index]? = some turn.pipeline ∧
        turn.scene = model.scene turn.pipeline := by
  obtain ⟨scene, pipeline⟩ := turn
  unfold turn?
  split
  next taken =>
    by_cases same : taken = index
    · subst same
      simp only [↓reduceIte, Option.map_eq_some_iff, Turn.mk.injEq, true_and]
      constructor
      · rintro ⟨held, at_index, rfl, rfl⟩
        exact ⟨at_index, rfl⟩
      · rintro ⟨at_index, rfl⟩
        exact ⟨pipeline, at_index, rfl, rfl⟩
    · simp [same]
  next other =>
    constructor
    · intro impossible
      cases impossible
    · rintro ⟨taken, _, _⟩
      exact (other index taken).elim

/-- A turn changes its pipeline by its step. -/
theorem getElem?_of_turn {model : Model} {index : Nat} {move : Move} {turn : Turn}
    (taken : model.turn? index move = some turn) :
    (model.move move).pipelines[index]? = some turn.step.pipeline ∧
      (model.move move).fetches = model.fetches + turn.step.created := by
  obtain ⟨rfl, at_index, scene⟩ := turn?_eq_some_iff.mp taken
  have inside := (List.getElem?_eq_some_iff.mp at_index).1
  simp only [Model.move, runTask, stepPipeline, at_index, ← scene, List.getElem?_set_self inside]
  exact ⟨rfl, rfl⟩

end Model

namespace Pipeline

/-- Two pipelines that differ at most in how far the fetch in flight has come. -/
structure Resembles (pipeline other : Pipeline) : Prop where
  fields : other = { pipeline with inFlight := other.inFlight }
  ticket : other.inFlight.map Fetch.ticket = pipeline.inFlight.map Fetch.ticket

/-- How the place of a pipeline can change without a turn of its own: its fetch may be answered, and where there was
none a pipeline may come into being, which has not run yet and knows of no reload. -/
inductive Persists : Option Pipeline → Option Pipeline → Prop
  | kept {before after : Pipeline} : before.Resembles after → Persists (some before) (some after)
  | added {after : Pipeline} : after.phase = .created → after.inFlight = none → after.lastReload = none →
      Persists none (some after)
  | absent : Persists none none

theorem Persists.refl : ∀ place : Option Pipeline, Persists place place
  | some _ => .kept ⟨rfl, rfl⟩
  | none => .absent

end Pipeline

namespace Model

private theorem persists_answer (model : Model) (fetch : Nat) (outcome : Outcome) (index : Nat) :
    Pipeline.Persists model.pipelines[index]? (model.answer fetch outcome).2.pipelines[index]? := by
  unfold answer
  dsimp only
  split
  · rw [List.getElem?_map]
    cases model.pipelines[index]? with
    | none => exact .absent
    | some before =>
      refine .kept ?_
      dsimp only
      split
      next held inFlight =>
        split
        · refine ⟨rfl, ?_⟩
          rw [inFlight]
          rfl
        · exact ⟨rfl, rfl⟩
      next => exact ⟨rfl, rfl⟩
  · exact .refl _

private theorem persists_register (model : Model) (plugin : String) (provider : Provider)
    (settings : Option ProviderConfig) (index : Nat) :
    Pipeline.Persists model.pipelines[index]?
      (model.pipelines ++ model.newPipelines plugin provider settings)[index]? := by
  by_cases inside : index < model.pipelines.length
  · rw [List.getElem?_append_left inside]
    exact .refl _
  · rw [List.getElem?_eq_none (Nat.le_of_not_lt inside), List.getElem?_append_right (Nat.le_of_not_lt inside)]
    cases found : (model.newPipelines plugin provider settings)[index - model.pipelines.length]? with
    | none => exact .absent
    | some new =>
      obtain ⟨context, _, rfl⟩ := List.mem_map.mp (List.mem_of_getElem? found)
      exact .added rfl rfl rfl

private theorem persists_stepPipeline {model : Model} {index taken : Nat}
    (untaken : model.turn? index (.task (.pipeline taken)) = none) :
    Pipeline.Persists model.pipelines[index]? (model.stepPipeline taken).pipelines[index]? := by
  unfold stepPipeline
  cases found : model.pipelines[taken]? with
  | none => exact .refl _
  | some pipeline =>
    have other : taken ≠ index := fun same => by
      subst same
      simp [turn?, found] at untaken
    dsimp only
    rw [List.getElem?_set_ne other]
    exact .refl _

/-- Without a turn of its own a pipeline persists. -/
theorem persists_of_no_turn {model : Model} {index : Nat} {move : Move} (untaken : model.turn? index move = none) :
    Pipeline.Persists model.pipelines[index]? (model.move move).pipelines[index]? := by
  rw [(model.moved move).pipelines]
  unfold pipelinesAfter
  split
  next plugin provider settings =>
    split
    · exact persists_register ..
    · exact .refl _
  next fetch outcome => exact persists_answer model fetch outcome index
  next taken => exact persists_stepPipeline untaken
  next => exact .refl _

/-- A pipeline is still there after a move that is no turn of its own. -/
theorem exists_resembling {model : Model} {index : Nat} {move : Move} {before : Pipeline}
    (place : model.pipelines[index]? = some before) (untaken : model.turn? index move = none) :
    ∃ after, (model.move move).pipelines[index]? = some after ∧ before.Resembles after := by
  have persists := persists_of_no_turn untaken
  rw [place] at persists
  generalize (model.move move).pipelines[index]? = there at persists ⊢
  cases persists with
  | kept resembles => exact ⟨_, rfl, resembles⟩

/-- Where a pipeline that is at a place after a move comes from: it has taken a turn, or it was there before, or it has
come into being. -/
inductive ComesFrom (model : Model) (index : Nat) (move : Move) : Pipeline → Prop
  | turned (turn : Turn) (taken : model.turn? index move = some turn) : ComesFrom model index move turn.step.pipeline
  | kept (before after : Pipeline) (untaken : model.turn? index move = none)
      (place : model.pipelines[index]? = some before) (resembles : before.Resembles after) :
      ComesFrom model index move after
  | added (after : Pipeline) (untaken : model.turn? index move = none) (nowhere : model.pipelines[index]? = none)
      (new : after.phase = .created) (empty : after.inFlight = none) (unreloaded : after.lastReload = none) :
      ComesFrom model index move after

theorem comesFrom {model : Model} {index : Nat} {move : Move} {after : Pipeline}
    (later : (model.move move).pipelines[index]? = some after) : ComesFrom model index move after := by
  cases taken : model.turn? index move with
  | some turn =>
    obtain rfl := Option.some.inj ((getElem?_of_turn taken).1.symm.trans later)
    exact .turned turn taken
  | none =>
    have persists := persists_of_no_turn taken
    rw [later] at persists
    generalize place : model.pipelines[index]? = there at persists
    cases persists with
    | kept resembles => exact .kept _ _ taken place resembles
    | added new empty unreloaded => exact .added _ taken place new empty unreloaded

end Model

end ReviewChecks
