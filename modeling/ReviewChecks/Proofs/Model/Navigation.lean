import ReviewChecks.Proofs.Change.Revisions
import ReviewChecks.Proofs.Model.Stimuli
import ReviewChecks.Proofs.Pipeline.Requests

/-! # Loading a change

A host that loads a change publishes up to three signals at once, and a pipeline looks at each of them on its own. What
the pipelines and the task that follows patchsets do about them never moves the patchset of a context, as a pin is only
dropped when it is the latest patchset (`Model.patchset?_move`). So the requests of a pipeline are paid for by what the
load has changed (`Model.requests_after_load`): one by the number, one by the patchset of its context. A load that
changes both is asked for twice (`Model.not_requested_once`), as the pipeline looks at the number first and does not
remember the patchset then.
-/

namespace ReviewChecks

theorem Signal.value_set {α : Type} [DecidableEq α] (signal : Signal α) (value : α) :
    (signal.set value).value = value := by
  unfold set
  split
  next same => exact same
  next => rfl

theorem Signal.changes_set_of_eq {α : Type} [DecidableEq α] {signal : Signal α} {value : α}
    (same : signal.value = value) : (signal.set value).changes = signal.changes := by
  rw [set, if_pos same]

/-- Values that are equal under a condition count as different only without it. -/
private theorem toNat_bne_le {α : Type} [BEq α] [LawfulBEq α] {left right : α} {condition : Prop}
    [Decidable condition] (equal : condition → left = right) :
    (left != right).toNat ≤ if condition then 0 else 1 := by
  split
  next holds => exact Nat.le_of_eq (by rw [equal holds, bne_self_eq_false, Bool.toNat_false])
  next => exact Bool.toNat_le _

/-- For a change without patchsets there is nothing to ask for. -/
theorem Scene.trigger_ne_fetch_of_bare {scene : Scene} {change : ChangeInfo}
    (shown : scene.host.change.value = some change) (bare : change.latestPatchset? = none) {context : PatchsetContext}
    {request : FetchRequest} : scene.trigger context ≠ .fetch request := by
  have nothing : scene.request? context = none := by
    refine Option.eq_none_iff_forall_ne_some.mpr fun asked found => ?_
    simp only [request?, bind, Option.bind_eq_some_iff] at found
    obtain ⟨_, _, patchset, _, other, showsOther, sha, known, _⟩ := found
    obtain rfl := Option.some.inj (shown.symm.trans showsOther)
    rw [ChangeInfo.shaForPatchset?_of_latestPatchset?_eq_none bare] at known
    cases known
  unfold trigger
  rw [nothing]
  split <;> exact Trigger.noConfusion

/-- A step by which it is looked at what the host has published: one of a pipeline or of the task that follows
patchsets. Answers to fetches may come in between. -/
def Move.FollowsUp : Move → Prop
  | .task (.pipeline _) | .task .followRouter | .task .followLatest | .answer _ _ => True
  | _ => False

namespace Model

variable {model : Model} {index : Nat} {change : ChangeInfo}

/-- How often the pipeline at a place asks its provider in a move. -/
def requestsIn (index : Nat) (model : Model) (move : Move) : Nat :=
  (model.turn? index move).elim 0 (·.step.requests)

/-- How often the pipeline at a place asks its provider in a run. -/
def requests (index : Nat) : Model → List Move → Nat :=
  total (requestsIn index)

/-- A change has been loaded, the pipeline at a place has run before and no tick of it is due, and the router has not
asked for another patchset. -/
structure Shows (index : Nat) (change : ChangeInfo) (model : Model) : Prop where
  pipeline : ∃ pipeline, model.pipelines[index]? = some pipeline ∧ pipeline.phase ≠ .created ∧
    pipeline.nextTick.any (· ≤ model.clock) = false
  router : model.routerChanged = false
  shown : model.host.change.value = some change
  latestPatchset : model.host.latestPatchset.value = change.latestPatchset?

/-- What is looked at leaves everything alone that the host and the users of a model decide. -/
structure Undisturbed (model next : Model) : Prop where
  host : next.host = model.host
  clock : next.clock = model.clock
  registry : next.registry = model.registry
  router : next.routerChanged = false

section Undisturbed

variable {move : Move}

theorem undisturbed_move (router : model.routerChanged = false) (follows : move.FollowsUp) :
    Undisturbed model (model.move move) := by
  unfold Move.FollowsUp at follows
  split at follows
  next index =>
    simp only [Model.move, runTask, stepPipeline]
    split <;> exact ⟨rfl, rfl, rfl, router⟩
  next =>
    simp only [Model.move, runTask, followRouter, router, Bool.false_eq_true, ↓reduceIte]
    exact ⟨rfl, rfl, rfl, router⟩
  next =>
    simp only [Model.move, runTask, followLatest]
    split
    · split
      · exact ⟨rfl, rfl, rfl, rfl⟩
      · exact ⟨rfl, rfl, rfl, router⟩
    · exact ⟨rfl, rfl, rfl, router⟩
  next fetch outcome =>
    simp only [Model.move, answer]
    split <;> exact ⟨rfl, rfl, rfl, router⟩
  next => exact follows.elim

/-- With a latest patchset, what is looked at leaves the patchset of every context as it is: a pin is only dropped when
it is the latest patchset. -/
theorem patchset?_move (router : model.routerChanged = false) (follows : move.FollowsUp)
    (known : model.host.latestPatchset.value.isSome) (pipeline : Pipeline) (context : PatchsetContext) :
    ((model.move move).scene pipeline).patchset? context = (model.scene pipeline).patchset? context := by
  have host := (undisturbed_move router follows).host
  cases context with
  | latest => simp only [Scene.patchset?, Model.scene, host]
  | selected =>
    simp only [Scene.patchset?, Model.scene, host, pin_move]
    unfold pinAfter
    split
    next => exact follows.elim
    next =>
      simp only [router, Bool.false_eq_true, false_and, ↓reduceIte]
    next =>
      obtain ⟨latest, current⟩ := Option.isSome_iff_exists.mp known
      simp only [current, Mutation.pinAfter, reduceCtorEq, false_or]
      split
      · split
        next same => rw [← same, Option.none_or, Option.some_or]
        next => rfl
      · rfl
    next => rfl

theorem unmet_move (router : model.routerChanged = false) (follows : move.FollowsUp)
    (known : model.host.latestPatchset.value.isSome) (pipeline : Pipeline) :
    pipeline.unmet ((model.move move).scene pipeline) = pipeline.unmet (model.scene pipeline) := by
  have undisturbed := undisturbed_move router follows
  refine Pipeline.unmet_congr undisturbed.host (patchset?_move router follows known pipeline _) ?_ ?_
  · simp only [scene, isLive, undisturbed.registry]
  · simp only [scene, reloadsOf, undisturbed.registry]

/-- An answer makes no fetch a new one. -/
private theorem hasNewFetch_answer {before after : Pipeline} (fetch : Nat) (outcome : Outcome)
    (place : model.pipelines[index]? = some before)
    (later : (model.answer fetch outcome).2.pipelines[index]? = some after) :
    after.hasNewFetch = before.hasNewFetch := by
  unfold answer at later
  dsimp only at later
  split at later
  · rw [List.getElem?_map, place, Option.map_some, Option.some.injEq] at later
    subst later
    split
    next held inFlight =>
      split
      next waits => simp [Pipeline.hasNewFetch, inFlight, waits.2]
      next => rfl
    next => rfl
  · rw [place, Option.some.injEq] at later
    rw [later]

/-- The step of another pipeline leaves a pipeline as it is. -/
theorem getElem?_stepPipeline {taken : Nat} {before : Pipeline} (place : model.pipelines[index]? = some before)
    (untaken : model.turn? index (.task (.pipeline taken)) = none) :
    (model.stepPipeline taken).pipelines[index]? = some before := by
  have other : taken ≠ index := fun same => by simp [turn?, same, place] at untaken
  unfold stepPipeline
  split
  · exact place
  · exact (List.getElem?_set_ne other).trans place

/-- Without a turn of its own a pipeline has a new fetch exactly if it had one. -/
theorem hasNewFetch_of_no_turn {before after : Pipeline} (place : model.pipelines[index]? = some before)
    (untaken : model.turn? index move = none) (later : (model.move move).pipelines[index]? = some after) :
    after.hasNewFetch = before.hasNewFetch := by
  rw [(model.moved move).pipelines] at later
  unfold pipelinesAfter at later
  split at later
  next plugin provider settings =>
    have kept : ∀ new, (model.pipelines ++ new)[index]? = some before := fun new =>
      (List.getElem?_append_left (List.getElem?_eq_some_iff.mp place).1).trans place
    split at later
    · rw [Option.some.inj ((kept _).symm.trans later)]
    · rw [Option.some.inj (place.symm.trans later)]
  next fetch outcome => exact hasNewFetch_answer fetch outcome place later
  next taken => rw [Option.some.inj ((getElem?_stepPipeline place untaken).symm.trans later)]
  next => rw [Option.some.inj (place.symm.trans later)]

/-- What a move of another makes of a pipeline: at most its fetch is answered. -/
theorem exists_at_of_no_turn {before : Pipeline} (place : model.pipelines[index]? = some before)
    (untaken : model.turn? index move = none) :
    ∃ after, (model.move move).pipelines[index]? = some after ∧
      after = { before with inFlight := after.inFlight } ∧ after.hasNewFetch = before.hasNewFetch := by
  obtain ⟨after, later, resembles⟩ := exists_resembling place untaken
  exact ⟨after, later, resembles.fields, hasNewFetch_of_no_turn place untaken later⟩

end Undisturbed

/-- What is asked for in a move is paid for out of what a pipeline demanded before, and where nothing can be asked for,
out of its new fetch. -/
theorem exists_asked {before : Pipeline} (place : model.pipelines[index]? = some before) (ran : before.phase ≠ .created)
    (ahead : before.nextTick.any (· ≤ model.clock) = false) (move : Move) :
    ∃ after, (model.move move).pipelines[index]? = some after ∧ after.key = before.key ∧ after.phase ≠ .created ∧
      after.nextTick = before.nextTick ∧
      model.requestsIn index move + after.demand (model.scene before) ≤ before.demand (model.scene before) ∧
      ((∀ request, (model.scene before).trigger before.key.context ≠ .fetch request) →
        model.requestsIn index move + after.hasNewFetch.toNat ≤ before.hasNewFetch.toNat) := by
  unfold requestsIn
  cases taken : model.turn? index move with
  | some turn =>
    obtain ⟨_, at_index, scene⟩ := turn?_eq_some_iff.mp taken
    obtain rfl := Option.some.inj (place.symm.trans at_index)
    rw [← scene]
    have due : turn.pipeline.nextTick.any (· ≤ turn.scene.now) = false := by
      rw [scene]
      exact ahead
    obtain ⟨unpolled, next, running⟩ := Pipeline.nextTick_step ran due
    have paid := Pipeline.requests_add_demand_step turn.scene ran
    have new := Pipeline.requests_add_hasNewFetch_step turn.scene turn.pipeline
    rw [unpolled] at paid
    refine ⟨turn.step.pipeline, (getElem?_of_turn taken).1, turn.course.key_eq, running, next, paid, fun nothing => ?_⟩
    rw [Pipeline.created_step_eq_zero nothing] at new
    exact new
  | none =>
    obtain ⟨after, later, fields, kept⟩ := exists_at_of_no_turn place taken
    have unmet : after.unmet (model.scene before) = before.unmet (model.scene before) := by rw [fields]; rfl
    refine ⟨after, later, ?_, ?_, ?_, ?_, fun _ => ?_⟩
    · rw [fields]
    · rw [fields]
      exact ran
    · rw [fields]
    · rw [Option.elim_none, Pipeline.demand, kept, unmet]
      exact Nat.le_of_eq (Nat.zero_add _)
    · rw [Option.elim_none, kept]
      exact Nat.le_of_eq (Nat.zero_add _)

/-- What the pipeline at a place demands. -/
def demandAt (index : Nat) (model : Model) : Nat :=
  model.pipelines[index]?.elim 0 fun pipeline => pipeline.demand (model.scene pipeline)

/-- Whether the pipeline at a place has a new fetch. -/
def newFetchAt (index : Nat) (model : Model) : Nat :=
  model.pipelines[index]?.elim 0 fun pipeline => pipeline.hasNewFetch.toNat

/-- What is looked at goes on to show the change. -/
theorem Shows.move (shows : model.Shows index change) {move : Move} (follows : move.FollowsUp) :
    (model.move move).Shows index change := by
  have undisturbed := undisturbed_move shows.router follows
  obtain ⟨before, place, ran, ahead⟩ := shows.pipeline
  obtain ⟨after, later, _, running, next, _⟩ := exists_asked place ran ahead move
  refine ⟨⟨after, later, running, ?_⟩, undisturbed.router, ?_, ?_⟩
  · rw [next, undisturbed.clock]
    exact ahead
  · rw [undisturbed.host]
    exact shows.shown
  · rw [undisturbed.host]
    exact shows.latestPatchset

/-- What is asked for while a change is looked at is paid for out of what is demanded. -/
theorem Shows.requestsIn_add_demandAt (shows : model.Shows index change) (known : change.latestPatchset?.isSome)
    {move : Move} (follows : move.FollowsUp) :
    model.requestsIn index move + (model.move move).demandAt index ≤ model.demandAt index := by
  obtain ⟨before, place, ran, ahead⟩ := shows.pipeline
  obtain ⟨after, later, key, _, _, paid, _⟩ := exists_asked place ran ahead move
  have same : model.scene after = model.scene before := by simp only [scene, key]
  have unmet := unmet_move shows.router follows (by rwa [shows.latestPatchset]) after
  rw [demandAt, demandAt, later, place, Option.elim_some, Option.elim_some, Pipeline.demand, unmet, same]
  exact paid

/-- While a change without patchsets is looked at, only a fetch that is new already is asked for. -/
theorem Shows.requestsIn_add_newFetchAt (shows : model.Shows index change) (bare : change.latestPatchset? = none)
    (move : Move) :
    model.requestsIn index move + (model.move move).newFetchAt index ≤ model.newFetchAt index := by
  obtain ⟨before, place, ran, ahead⟩ := shows.pipeline
  obtain ⟨after, later, _, _, _, _, paid⟩ := exists_asked place ran ahead move
  rw [newFetchAt, newFetchAt, later, place, Option.elim_some, Option.elim_some]
  exact paid fun request => Scene.trigger_ne_fetch_of_bare shows.shown bare

/-- If each move that looks at a change pays for its requests out of a potential, then all of them do. -/
theorem Shows.requests_add_le (shows : model.Shows index change) {potential : Model → Nat}
    (paid : ∀ {model : Model} {move : Move}, model.Shows index change → move.FollowsUp →
      model.requestsIn index move + potential (model.move move) ≤ potential model)
    {moves : List Move} (followUp : ∀ move ∈ moves, move.FollowsUp) :
    model.requests index moves + potential (model.run moves) ≤ potential model := by
  induction moves generalizing model with
  | nil => exact Nat.le_of_eq (Nat.zero_add _)
  | cons move rest ih =>
    have follows := followUp move (List.mem_cons_self ..)
    have first := paid shows follows
    have later := ih (shows.move follows) fun other member => followUp other (List.mem_cons_of_mem _ member)
    change (_ + (model.move move).requests index rest) + potential ((model.move move).run rest) ≤ _
    omega

/-- A pipeline has run and looked at every signal, its provider has been asked for what it wants, no tick is due, and
the router's patchset has been looked at. -/
structure Handled (model : Model) (pipeline : Pipeline) : Prop where
  ran : pipeline.phase ≠ .created
  upToDate : pipeline.UpToDate (model.scene pipeline)
  asked : pipeline.hasNewFetch = false
  ahead : pipeline.nextTick.any (· ≤ model.clock) = false
  router : model.routerChanged = false

instance (model : Model) (pipeline : Pipeline) : Decidable (model.Handled pipeline) :=
  decidable_of_iff
    (pipeline.phase ≠ .created ∧ pipeline.UpToDate (model.scene pipeline) ∧ pipeline.hasNewFetch = false ∧
      pipeline.nextTick.any (· ≤ model.clock) = false ∧ model.routerChanged = false)
    ⟨fun ⟨ran, upToDate, asked, ahead, router⟩ => ⟨ran, upToDate, asked, ahead, router⟩,
      fun handled => ⟨handled.ran, handled.upToDate, handled.asked, handled.ahead, handled.router⟩⟩

theorem Handled.shows {pipeline : Pipeline} (handled : model.Handled pipeline)
    (place : model.pipelines[index]? = some pipeline) (change : ChangeInfo) :
    (model.move (.host (.loadChange change))).Shows index change where
  pipeline := ⟨pipeline, place, handled.ran, handled.ahead⟩
  router := handled.router
  shown := Signal.value_set ..
  latestPatchset := Signal.value_set ..

/-- After a load a pipeline that had handled everything demands no more than what has changed. -/
theorem Handled.demandAt_le {host : Host} {config : ModelConfig} {moves : List Move} {pipeline : Pipeline}
    (handled : ((create host config).run moves).Handled pipeline)
    (place : ((create host config).run moves).pipelines[index]? = some pipeline) (change : ChangeInfo) :
    let before := (create host config).run moves
    let loaded := before.move (.host (.loadChange change))
    loaded.demandAt index ≤
      (if before.host.changeNumber.value = some change.number then 0 else 1) +
        if (loaded.scene pipeline).patchset? pipeline.key.context =
          (before.scene pipeline).patchset? pipeline.key.context then 0 else 1 := by
  intro before loaded
  have remembered := ((keepsUp host config moves index pipeline place handled.ran).current handled.upToDate).1
  have number : (pipeline.seenChangeNumber != (loaded.scene pipeline).host.changeNumber.changes).toNat ≤
      if before.host.changeNumber.value = some change.number then 0 else 1 :=
    toNat_bne_le fun same => handled.upToDate.changeNumber.trans (Signal.changes_set_of_eq same).symm
  have patchset : (pipeline.patchset != (loaded.scene pipeline).patchset? pipeline.key.context).toNat ≤
      if (loaded.scene pipeline).patchset? pipeline.key.context =
        (before.scene pipeline).patchset? pipeline.key.context then 0 else 1 :=
    toNat_bne_le fun same => remembered.trans same.symm
  have visibility : (pipeline.seenVisibility != (loaded.scene pipeline).host.visibility.changes) = false :=
    bne_eq_false_iff_eq.mpr handled.upToDate.visibility
  have reloads : (pipeline.seenReloads != (loaded.scene pipeline).reloads) = false :=
    bne_eq_false_iff_eq.mpr handled.upToDate.reloads
  have loadedPlace : loaded.pipelines[index]? = some pipeline := place
  rw [demandAt, loadedPlace, Option.elim_some, Pipeline.demand, handled.asked, Pipeline.unmet, visibility, reloads,
    Bool.and_false, Bool.toNat_false, Nat.zero_add, Nat.add_zero]
  exact Nat.add_le_add number patchset

/-- What a pipeline that had handled everything asks its provider for after a change has been loaded, while the signals
of that are looked at in any order: once at most for the number, if that has changed, and once at most for the patchset
of its context, if that has changed. -/
theorem requests_after_load (host : Host) (config : ModelConfig) (moves : List Move) (index : Nat) (pipeline : Pipeline)
    (place : ((create host config).run moves).pipelines[index]? = some pipeline)
    (handled : ((create host config).run moves).Handled pipeline) (change : ChangeInfo) (later : List Move)
    (followUp : ∀ move ∈ later, move.FollowsUp) :
    let before := (create host config).run moves
    let loaded := before.move (.host (.loadChange change))
    loaded.requests index later ≤
      (if before.host.changeNumber.value = some change.number then 0 else 1) +
        if (loaded.scene pipeline).patchset? pipeline.key.context =
          (before.scene pipeline).patchset? pipeline.key.context then 0 else 1 := by
  intro before loaded
  have shows : loaded.Shows index change := handled.shows place change
  cases latest : change.latestPatchset? with
  | some patchset =>
    have known : change.latestPatchset?.isSome := by rw [latest]; rfl
    have paid := shows.requests_add_le (fun shows => shows.requestsIn_add_demandAt known) followUp
    exact Nat.le_trans (Nat.le_trans (Nat.le_add_right ..) paid) (handled.demandAt_le place change)
  | none =>
    have paid := shows.requests_add_le (fun shows _ => shows.requestsIn_add_newFetchAt latest _) followUp
    have loadedPlace : loaded.pipelines[index]? = some pipeline := place
    have none_new : loaded.newFetchAt index = 0 := by
      rw [newFetchAt, loadedPlace, Option.elim_some, handled.asked]
      rfl
    rw [none_new] at paid
    exact Nat.le_trans (Nat.le_trans (Nat.le_add_right ..) paid) (Nat.zero_le _)

/-- Both pipelines of a provider have asked for the checks of a change, and the latest patchset has been looked at. -/
def handledMoves : List Move :=
  askedMoves ++ [.task .followLatest]

/-- The first pipeline looks at what a load has changed, and asks its provider. -/
def lookingMoves : List Move :=
  List.replicate 4 (.task (.pipeline 0))

/-- A change with another number and the same latest patchset is asked for once. -/
theorem requests_after_load_renumbered :
    let change := (ChangeInfo.ofNumber 43 "tools").addRevision "third" 1 ""
    (((create {} {}).run handledMoves).move (.host (.loadChange change))).requests 0 lookingMoves = 1 := by
  intro change
  have computed : (((create {} {}).run handledMoves).pipelines[0]?.any fun pipeline => decide (
      ((create {} {}).run handledMoves).Handled pipeline ∧
      ((((create {} {}).run handledMoves).move (.host (.loadChange change))).scene pipeline).patchset?
          pipeline.key.context =
        (((create {} {}).run handledMoves).scene pipeline).patchset? pipeline.key.context)) = true := by
    decide
  obtain ⟨pipeline, place, facts⟩ := (Option.any_eq_true ..).mp computed
  obtain ⟨handled, same⟩ := of_decide_eq_true facts
  have bound := requests_after_load {} {} handledMoves 0 pipeline place handled change lookingMoves
    (by simp [lookingMoves, Move.FollowsUp])
  have renumbered : ((create {} {}).run handledMoves).host.changeNumber.value ≠ some change.number := by decide
  dsimp only at bound
  rw [if_neg renumbered, if_pos same] at bound
  exact Nat.le_antisymm bound (by decide)

/-- A change with another number and another latest patchset is asked for twice. -/
theorem not_requested_once :
    ¬ ∀ (host : Host) (config : ModelConfig) (moves : List Move),
      let before := (create host config).run moves
      before.host.isVisible = true → before.latestChanged = false →
      (∀ pipeline ∈ before.pipelines, before.Handled pipeline) →
        ∀ (change : ChangeInfo) (later : List Move), (∀ move ∈ later, move.FollowsUp) →
          ∀ index, (before.move (.host (.loadChange change))).requests index later ≤ 1 := by
  intro once
  have bound := once {} {} handledMoves (by decide) (by decide) (by decide)
    (((ChangeInfo.ofNumber 43 "tools").addRevision "third" 1 "").addRevision "fourth" 2 "") lookingMoves
    (by simp [lookingMoves, Move.FollowsUp]) 0
  revert bound
  decide

end Model

end ReviewChecks
