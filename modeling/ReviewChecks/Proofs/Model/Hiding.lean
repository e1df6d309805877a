import ReviewChecks.Proofs.Model.Coherence
import ReviewChecks.Proofs.Model.Rounds

/-! # Hidden hosts

While the host is hidden every trigger is suppressed: it creates no fetch, writes nothing and leaves the fetch in flight
alone. So all that is in flight was so when the host was hidden, and nothing new waits to be asked for
(`Model.LeftAlone`), from which it follows what is asked for and what is written in the meantime.

When the host is shown again, a pipeline that had nothing to do owes one evaluation, which is for the visibility, and
while only tasks take steps nothing is added to that. Until it has evaluated its trigger, it always has something to do
(`Pipeline.Unaware`), so that tasks which handle everything have it evaluate its trigger once.
-/

namespace ReviewChecks

theorem Scene.trigger_of_hidden {scene : Scene} (hidden : scene.host.isVisible = false) (context : PatchsetContext) :
    scene.trigger context = .suppressed :=
  if_neg (Bool.eq_false_iff.mp hidden)

namespace Turn

variable {turn : Turn}

theorem created?_of_hidden (hidden : turn.scene.host.isVisible = false) : turn.created? = none := by
  refine Option.eq_none_iff_forall_ne_some.mpr fun number created => ?_
  obtain ⟨_, ⟨request, comes⟩, _⟩ := created?_eq_some_iff.mp created
  rw [trigger, Scene.trigger_of_hidden hidden] at comes
  cases comes

/-- A hidden host leaves a turn nothing to ask for that was not new already. -/
theorem requests_of_hidden (hidden : turn.scene.host.isVisible = false) (asked : turn.pipeline.hasNewFetch = false) :
    turn.step.requests = 0 ∧ turn.step.pipeline.hasNewFetch = false := by
  have nothing : turn.step.created = 0 := Pipeline.created_step_eq_zero fun request comes => by
    rw [Scene.trigger_of_hidden hidden] at comes
    cases comes
  have paid : turn.step.requests + turn.step.pipeline.hasNewFetch.toNat ≤
      turn.pipeline.hasNewFetch.toNat + turn.step.created :=
    Pipeline.requests_add_hasNewFetch_step turn.scene turn.pipeline
  rw [asked, nothing, Bool.toNat_false] at paid
  exact ⟨by omega, Bool.toNat_eq_zero.mp (by omega)⟩

/-- A hidden host leaves a turn nothing to write but an outcome. -/
theorem exists_settled_of_hidden (hidden : turn.scene.host.isVisible = false) {mutation : Mutation}
    (member : mutation ∈ turn.step.writes) :
    ∃ number outcome, turn.step.settled? = some (number, outcome) ∧
      turn.step.writes = (turn.pipeline.settle number outcome).writes := by
  rcases turn.accounts with ⟨number, outcome, settled, writes, _⟩ | ⟨_, _, writes, _⟩
  · exact ⟨number, outcome, settled, writes⟩
  · rw [writes, trigger, Scene.trigger_of_hidden hidden] at member
    split at member <;> cases member

end Turn

namespace Model

/-- The host is hidden after each of some moves. -/
def StaysHidden (model : Model) (moves : List Move) : Prop :=
  ∀ before move after, moves = before ++ move :: after → (model.run (before ++ [move])).host.isVisible = false

/-- Nothing new waits to be asked for, and what is in flight has been in flight since an earlier time. -/
structure LeftAlone (earlier model : Model) : Prop where
  asked : ∀ (index : Nat) pipeline, model.pipelines[index]? = some pipeline → pipeline.hasNewFetch = false
  held : ∀ (index : Nat) pipeline, model.pipelines[index]? = some pipeline → ∀ number request,
    pipeline.Holds (number, request) →
      ∃ before, earlier.pipelines[index]? = some before ∧ before.Holds (number, request)

/-- How an entry can change while the host is hidden. -/
inductive ChangesEntry (earlier model : Model) (move : Move) (context : PatchsetContext) (plugin : String) : Prop
  | registered {provider : Provider} {settings : Option ProviderConfig}
      (registers : move = .operation (.register plugin provider settings))
  | unregistered (unregisters : move = .operation (.unregister plugin))
  | pushed {run : RunInfo} {result : CheckResult} (pushes : move = .operation (.updateResult plugin run result))
  /-- The outcome lands of a fetch that was in flight at the earlier time. -/
  | settled {index : Nat} {turn : Turn} {before : Pipeline} {number : Nat} {request : FetchRequest} {outcome : Outcome}
      (taken : model.turn? index move = some turn) (own : turn.pipeline.key.plugin = plugin)
      (within : turn.pipeline.key.context = context) (settled : turn.step.settled? = some (number, outcome))
      (writes : turn.step.writes = (turn.pipeline.settle number outcome).writes)
      (place : earlier.pipelines[index]? = some before) (held : before.Holds (number, request))

variable {earlier model : Model}

/-- A turn sees the host as it is afterwards. -/
theorem isVisible_of_turn {index : Nat} {move : Move} {turn : Turn}
    (taken : model.turn? index move = some turn) :
    turn.scene.host.isVisible = (model.move move).host.isVisible := by
  obtain ⟨rfl, _, scene⟩ := turn?_eq_some_iff.mp taken
  rw [(model.moved _).host, scene]
  rfl

namespace LeftAlone

theorem of_atRest (rest : model.AtRest)
    (released : ∀ (index : Nat) pipeline, model.pipelines[index]? = some pipeline → pipeline.phase = .ended →
      pipeline.inFlight = none) : LeftAlone model model where
  asked index pipeline place := by
    by_cases ended : pipeline.phase = .ended
    · exact Pipeline.hasNewFetch_of_inFlight_eq_none (released index pipeline place ended)
    · exact (rest.rests place ended).asked
  held index pipeline place number request holds := ⟨pipeline, place, holds⟩

theorem move (alone : LeftAlone earlier model) {move : Move}
    (released : ∀ (index : Nat) pipeline, model.pipelines[index]? = some pipeline → pipeline.phase = .ended →
      pipeline.inFlight = none) (hidden : (model.move move).host.isVisible = false) :
    LeftAlone earlier (model.move move) := by
  have kept : ∀ (index : Nat) pipeline, (model.move move).pipelines[index]? = some pipeline →
      pipeline.hasNewFetch = false ∧ ∀ number request, pipeline.Holds (number, request) →
        ∃ before, earlier.pipelines[index]? = some before ∧ before.Holds (number, request) := by
    intro index pipeline later
    cases comesFrom later with
    | turned turn taken =>
      obtain ⟨_, place, _⟩ := turn?_eq_some_iff.mp taken
      have unseen : turn.scene.host.isVisible = false := (isVisible_of_turn taken).trans hidden
      refine ⟨(Turn.requests_of_hidden unseen (alone.asked index _ place)).2, fun number request holds => ?_⟩
      rcases (turn.holds_step (released index _ place) number request).mp holds with ⟨created, _⟩ | ⟨holds, _⟩
      · cases (Turn.created?_of_hidden unseen).symm.trans created
      · exact alone.held index _ place number request holds
    | kept before _ untaken place resembles =>
      refine ⟨(hasNewFetch_of_no_turn place untaken later).trans (alone.asked index before place), ?_⟩
      intro number request holds
      rw [Pipeline.Holds, resembles.ticket] at holds
      exact alone.held index before place number request holds
    | added _ _ _ _ empty =>
      refine ⟨Pipeline.hasNewFetch_of_inFlight_eq_none empty, fun number request holds => ?_⟩
      rw [Pipeline.Holds, empty] at holds
      cases holds
  exact ⟨fun index pipeline later => (kept index pipeline later).1,
    fun index pipeline later => (kept index pipeline later).2⟩

/-- No provider is asked for anything. -/
theorem not_isRequest (alone : LeftAlone earlier model) {move : Move}
    (hidden : (model.move move).host.isVisible = false) {effect : Effect} (member : effect ∈ model.logged move) :
    effect.isRequest = false := by
  refine Bool.eq_false_iff.mpr fun asks => ?_
  cases effect with
  | requested key number call time request reply =>
    have asksFor : (Effect.requested key number call time request reply).isRequestOf key = true := by
      simp [Effect.isRequestOf]
    obtain ⟨index, turn, taken, within⟩ := exists_turn_of_logged_request member asksFor
    have unseen : turn.scene.host.isVisible = false := (isVisible_of_turn taken).trans hidden
    have place := (turn?_eq_some_iff.mp taken).2.1
    have nothing := (Turn.requests_of_hidden unseen (alone.asked index _ place)).1
    exact List.countP_eq_zero.mp nothing _ within asks
  | evaluated | abandoned | settled | reported | invoked | noticed => cases asks

/-- An entry changes only in the ways that do not ask for anything. -/
theorem changesEntry (alone : LeftAlone earlier model) (roster : model.Roster) {move : Move}
    (hidden : (model.move move).host.isVisible = false) {context : PatchsetContext} {plugin : String}
    (changed : (model.move move).store.board.entry? context plugin ≠ model.store.board.entry? context plugin) :
    earlier.ChangesEntry model move context plugin := by
  obtain ⟨mutation, member, addresses⟩ : ∃ mutation ∈ model.written move, mutation.Addresses context plugin := by
    by_contra nowhere
    refine changed ?_
    rw [(model.moved move).store]
    exact Store.entry?_applyAll_of_not_addresses _ fun mutation member addresses =>
      nowhere ⟨mutation, member, addresses⟩
  rcases exists_of_written_addresses roster member addresses with
    ⟨provider, settings, registers, _⟩ | ⟨unregisters, _⟩ | ⟨run, result, pushes, _⟩ | ⟨index, pipeline, rfl, place, _⟩
  · exact .registered registers
  · exact .unregistered unregisters
  · exact .pushed pushes
  · let turn : Turn := ⟨model.scene pipeline, pipeline⟩
    have taken : model.turn? index (.task (.pipeline index)) = some turn := turn?_eq_some_iff.mpr ⟨rfl, place, rfl⟩
    have unseen : turn.scene.host.isVisible = false := (isVisible_of_turn taken).trans hidden
    have written : mutation ∈ turn.step.writes := (written_pipeline place member).2
    obtain ⟨own, within⟩ := Mutation.target?_of_addresses addresses (turn.target?_of_mem_writes written)
    obtain ⟨number, outcome, settled, writes⟩ := Turn.exists_settled_of_hidden unseen written
    obtain ⟨⟨request, holds⟩, _⟩ := turn.course.of_settled settled
    obtain ⟨before, there, held⟩ := alone.held index pipeline place number request holds
    exact .settled taken own within settled writes there held

end LeftAlone

theorem staysHidden_cons {move : Move} {rest : List Move} :
    model.StaysHidden (move :: rest) ↔
      (model.move move).host.isVisible = false ∧ (model.move move).StaysHidden rest := by
  constructor
  · refine fun hidden => ⟨hidden [] move rest rfl, fun before later after split => ?_⟩
    exact hidden (move :: before) later after (by rw [split, List.cons_append])
  · rintro ⟨now, hidden⟩ before later after split
    cases before with
    | nil =>
      obtain ⟨rfl, _⟩ := List.cons.inj split
      exact now
    | cons first before =>
      obtain ⟨rfl, same⟩ := List.cons.inj split
      exact hidden before later after same

instance decidableStaysHidden : ∀ (model : Model) (moves : List Move), Decidable (model.StaysHidden moves)
  | _, [] => isTrue fun _ _ _ split => by simp at split
  | model, move :: rest =>
    have := decidableStaysHidden (model.move move) rest
    decidable_of_iff _ staysHidden_cons.symm

theorem StaysHidden.of_append {first second : List Move} (hidden : model.StaysHidden (first ++ second)) :
    model.StaysHidden first := by
  rintro before move after rfl
  exact hidden before move (after ++ second) (by simp)

/-- A model at rest is left alone as long as the host stays hidden. -/
theorem leftAlone_run {host : Host} {config : ModelConfig} {earlier moves : List Move}
    (rest : ((create host config).run earlier).AtRest)
    (hidden : ((create host config).run earlier).StaysHidden moves) :
    LeftAlone ((create host config).run earlier) (((create host config).run earlier).run moves) := by
  induction moves using List.reverseRecOn with
  | nil => exact .of_atRest rest (ledger host config earlier).released
  | append_singleton moves move ih =>
    have released := (ledger host config (earlier ++ moves)).released
    rw [run_append] at released
    have now := hidden moves move [] rfl
    rw [run_concat] at now ⊢
    exact (ih hidden.of_append).move released now

/-- No provider is asked for anything as long as the host stays hidden. -/
theorem exists_log_of_staysHidden {host : Host} {config : ModelConfig} {earlier moves : List Move}
    (rest : ((create host config).run earlier).AtRest)
    (hidden : ((create host config).run earlier).StaysHidden moves) :
    ∃ since, (((create host config).run earlier).run moves).log = since ++ ((create host config).run earlier).log ∧
      ∀ effect ∈ since, effect.isRequest = false := by
  induction moves using List.reverseRecOn with
  | nil => exact ⟨[], rfl, fun _ absent => nomatch absent⟩
  | append_singleton moves move ih =>
    obtain ⟨since, log, silent⟩ := ih hidden.of_append
    have alone := leftAlone_run rest hidden.of_append
    have now := hidden moves move [] rfl
    rw [run_concat] at now ⊢
    refine ⟨(logged (((create host config).run earlier).run moves) move).reverse ++ since, ?_, fun effect member => ?_⟩
    · rw [log_move, log, List.append_assoc]
    · rcases List.mem_append.mp member with new | old
      · exact alone.not_isRequest now (List.mem_reverse.mp new)
      · exact silent effect old

end Model

namespace Pipeline

variable {scene : Scene} {pipeline : Pipeline}

/-- A pipeline that runs has not looked at the visibility, and nothing that it waits for has come. -/
structure Unaware (scene : Scene) (pipeline : Pipeline) : Prop where
  running : pipeline.phase = .running
  live : scene.live = true
  asked : pipeline.hasNewFetch = false
  unended : pipeline.ended? scene = none
  unseen : pipeline.seenVisibility ≠ scene.host.visibility.changes

theorem request_of_asked (scene : Scene) (asked : pipeline.hasNewFetch = false) :
    pipeline.request scene = (pipeline, []) := by
  unfold request
  split
  next fetch held =>
    have old : fetch.stage ≠ .created := by simpa [hasNewFetch, held] using asked
    exact if_neg old
  next => rfl

theorem Unaware.of_scene {other : Scene} (unaware : pipeline.Unaware scene) (host : other.host = scene.host)
    (live : other.live = scene.live) (now : other.now = scene.now) : pipeline.Unaware other where
  running := unaware.running
  live := live.trans unaware.live
  asked := unaware.asked
  unended := by
    have unended := unaware.unended
    unfold ended? at unended ⊢
    rwa [now]
  unseen := by
    rw [host]
    exact unaware.unseen

/-- A look at another signal leaves a pipeline unaware. -/
theorem Unaware.looked (unaware : pipeline.Unaware scene) {branch : Branch}
    (quiet : pipeline.fires scene branch = false) : (pipeline.looked scene branch).Unaware scene := by
  obtain ⟨_, visibility, _⟩ := looked_of_not_fires quiet
  constructor
  · exact (looked_phase ..).trans unaware.running
  · exact unaware.live
  · rw [hasNewFetch, looked_inFlight]
    exact unaware.asked
  · rw [ended?, looked_inFlight]
    exact unaware.unended
  · rw [visibility]
    exact unaware.unseen

/-- Until it evaluates its trigger, a pipeline stays unaware. -/
theorem Unaware.step (unaware : pipeline.Unaware scene) (unevaluated : (pipeline.step scene).evaluation? = none) :
    (pipeline.step scene).pipeline.Unaware scene := by
  have asked := request_of_asked scene unaware.asked
  have course := pipeline.course_step scene
  generalize pipeline.step scene = step at course unevaluated
  cases course with
  | rests ended => exact nomatch ended.symm.trans unaware.running
  | starts new => exact nomatch new.symm.trans unaware.running
  | cancels _ cancelled => exact nomatch cancelled.symm.trans unaware.live
  | waits _ _ _ =>
    simp only [PipelineStep.after, asked]
    exact unaware
  | settles fetch outcome _ _ held came =>
    have ended : pipeline.ended? scene = some (fetch.number, outcome) := by
      rw [asked] at held
      simp only [ended?, show pipeline.inFlight = some fetch from held, came, bind, Option.bind_some, pure]
    cases unaware.unended.symm.trans ended
  | looks branch _ _ _ _ quiet =>
    simp only [PipelineStep.after, asked] at quiet ⊢
    exact unaware.looked quiet
  | fires branch =>
    rw [evaluation?_after_request, (fire_effects ..).1] at unevaluated
    cases unevaluated

end Pipeline

namespace Model

variable {model : Model} {index : Nat}

/-- Tasks that handle everything make an unaware pipeline evaluate its trigger. -/
theorem Idle.exists_evaluation (idle : model.Idle) {pipeline : Pipeline}
    (place : model.pipelines[index]? = some pipeline) (unaware : pipeline.Unaware (model.scene pipeline))
    {tasks : List Task} (rest : (model.run (tasks.map .task)).AtRest) :
    ∃ turn ∈ model.turns index (tasks.map .task), turn.step.evaluation?.isSome := by
  induction tasks generalizing model pipeline with
  | nil =>
    have going : pipeline.phase ≠ .ended := by simp [unaware.running]
    exact absurd (rest.rests place going).upToDate.visibility unaware.unseen
  | cons task tasks ih =>
    have proceeds := idle.proceeds task
    rw [List.map_cons, turns]
    cases taken : model.turn? index (.task task) with
    | some turn =>
      obtain ⟨_, at_index, scene⟩ := turn?_eq_some_iff.mp taken
      obtain rfl := Option.some.inj (place.symm.trans at_index)
      rw [← scene] at unaware
      cases evaluation : turn.step.evaluation? with
      | some values => exact ⟨turn, by simp, Option.isSome_iff_exists.mpr ⟨values, evaluation⟩⟩
      | none =>
        have still : turn.step.pipeline.Unaware ((model.move (.task task)).scene turn.step.pipeline) := by
          have key : turn.step.pipeline.key = turn.pipeline.key := turn.course.key_eq
          refine (unaware.step evaluation).of_scene ?_ ?_ ?_
          · rw [scene]
            exact proceeds.host
          · rw [proceeds.live, scene]
            simp only [Model.scene, key]
          · rw [scene]
            exact proceeds.clock
        obtain ⟨later, member, evaluated⟩ := ih (idle.move task) (getElem?_of_turn taken).1 still rest
        exact ⟨later, List.mem_append_right _ member, evaluated⟩
    | none =>
      have still : pipeline.Unaware ((model.move (.task task)).scene pipeline) :=
        unaware.of_scene proceeds.host (proceeds.live pipeline) proceeds.clock
      obtain ⟨later, member, evaluated⟩ := ih (idle.move task) (idle.getElem?_of_no_turn place taken) still rest
      exact ⟨later, List.mem_append_right _ member, evaluated⟩

end Model

/-- The host is shown. -/
def Move.unhide : Move :=
  .host (.setVisibility .visible)

namespace Model

variable {model : Model} {index : Nat}

theorem visibility_unhide (hidden : model.host.isVisible = false) :
    (model.move .unhide).host.visibility.changes = model.host.visibility.changes + 1 := by
  have unseen : model.host.visibility.value ≠ .visible := by simpa [Host.isVisible] using hidden
  change (model.host.visibility.set .visible).changes = _
  rw [Signal.set, if_neg unseen]

/-- Showing the host is one thing that a pipeline evaluates its trigger for. -/
theorem stimuli_unhide (hidden : model.host.isVisible = false) (index : Nat) : model.stimuli index [.unhide] = 1 := by
  have visibility := visibility_unhide hidden
  have pin : (model.move .unhide).store.board.pin = model.store.board.pin := rfl
  have reloads : (model.move .unhide).reloadsAt index = model.reloadsAt index := rfl
  have number : (model.move .unhide).host.changeNumber = model.host.changeNumber := rfl
  have patchset : (model.move .unhide).host.latestPatchset = model.host.latestPatchset := rfl
  have untaken : model.turn? index .unhide = none := rfl
  simp only [stimuli, growth, pinChanges, pollTicks, total, visibility, pin, reloads, number, patchset, untaken,
    Nat.sub_self, bne_self_eq_false, Bool.toNat_false, Option.elim_none, Nat.add_zero, Nat.zero_add]
  omega

theorem Idle.unhide (idle : model.Idle) : (model.move .unhide).Idle := by
  intro task other
  rw [← idle task other]
  cases task with
  | pipeline index => exact (other index rfl).elim
  | followRouter | followLatest | stopFollowing | relayReload | stopRelaying | action number => rfl

/-- Once the host is shown, a pipeline that had nothing to do is unaware of it. -/
theorem unaware_unhide {pipeline : Pipeline} (rests : pipeline.Rests (model.scene pipeline))
    (hidden : model.host.isVisible = false) : pipeline.Unaware ((model.move .unhide).scene pipeline) where
  running := rests.running
  live := rests.live
  asked := rests.asked
  unended := rests.unended
  unseen := by
    have seen : pipeline.seenVisibility = model.host.visibility.changes := rests.upToDate.visibility
    change pipeline.seenVisibility ≠ (model.move .unhide).host.visibility.changes
    rw [seen, visibility_unhide hidden]
    omega

/-- A turn that is taken while tasks take steps sees what is there at first. -/
theorem Idle.of_turn (idle : model.Idle) {pipeline : Pipeline} (place : model.pipelines[index]? = some pipeline)
    {tasks : List Task} {turn : Turn} (member : turn ∈ model.turns index (tasks.map .task)) :
    turn.pipeline.key = pipeline.key ∧ turn.scene.host = model.host ∧
      turn.scene.patchset? pipeline.key.context = (model.scene pipeline).patchset? pipeline.key.context := by
  have key : turn.pipeline.key = pipeline.key :=
    Option.some.inj ((key_of_mem_turns member).symm.trans (getElem?_keys_run (getElem?_keys place) _))
  obtain ⟨earlier, later, history⟩ := List.append_of_mem member
  obtain ⟨before, move, after, split, _, taken, _⟩ := exists_move_of_turn history
  obtain ⟨done, rest, _, rfl, _⟩ := List.map_eq_append_iff.mp split
  have proceeds := idle.proceeds_run done
  rw [(turn?_eq_some_iff.mp taken).2.2]
  refine ⟨key, proceeds.host, ?_⟩
  rw [proceeds.patchset?]
  cases pipeline.key.context <;> rfl

/-- Once the host is shown, tasks that handle everything make each pipeline that has not ended evaluate its trigger
once, for what is current then. -/
theorem exists_evaluation_unhide {host : Host} {config : ModelConfig} {moves : List Move}
    (rest : ((create host config).run moves).AtRest)
    (hidden : ((create host config).run moves).host.isVisible = false) {tasks : List Task}
    (handled : ((((create host config).run moves).move .unhide).run (tasks.map .task)).AtRest) {pipeline : Pipeline}
    (place : ((create host config).run moves).pipelines[index]? = some pipeline) (going : pipeline.phase ≠ .ended) :
    let shown := ((create host config).run moves).move .unhide
    shown.evaluations index (tasks.map .task) = 1 ∧
      ∃ before turn after, shown.turns index (tasks.map .task) = before ++ turn :: after ∧
        (∀ other ∈ before ++ after, other.step.evaluation? = none) ∧
        turn.step.evaluation? =
          some (shown.host.changeNumber.value, (shown.scene pipeline).patchset? pipeline.key.context) ∧
        turn.trigger = (shown.scene pipeline).trigger pipeline.key.context := by
  intro shown
  have rests := rest.rests place going
  have ran : pipeline.phase ≠ .created := by simp [rests.running]
  have idle : shown.Idle := rest.idle.unhide
  have there : shown.pipelines[index]? = some pipeline := place
  have bound : shown.evaluations index (tasks.map .task) ≤ 1 := by
    have paid := evaluations_add_owedAt_run ((roster_create host config).run moves) (enrolment_run host config moves)
      index (.unhide :: tasks.map .task)
    rw [stimuli_cons, stimuli_unhide hidden, idle.stimuli_tasks there ran rests.ahead,
      owedAt_of_upToDate host config moves index place ran rests.upToDate] at paid
    have split : ((create host config).run moves).evaluations index (.unhide :: tasks.map .task) =
        0 + shown.evaluations index (tasks.map .task) := rfl
    omega
  obtain ⟨turn, member, evaluated⟩ := idle.exists_evaluation there (unaware_unhide rests hidden) handled
  rw [evaluations_eq] at bound ⊢
  obtain ⟨once, before, after, history, unevaluated⟩ := Turn.exists_single_evaluation member evaluated bound
  obtain ⟨key, sees, resolves⟩ := idle.of_turn there member
  refine ⟨once, before, turn, after, history, unevaluated, ?_, ?_⟩
  · rw [Turn.evaluation?_eq evaluated, key, sees, resolves]
  · rw [Turn.trigger, key]
    exact Scene.trigger_congr sees resolves

/-- In a run in which the tasks handle everything that happens before anything else does, a hidden host is left alone:
from when it is hidden on, no provider is asked for anything, and no entry changes but for registrations, their ends,
pushed results, and what was in flight before. When it is shown again, each pipeline that has not ended evaluates its
trigger once, for what is current then. -/
theorem hidden_left_alone (host : Host) (config : ModelConfig) (earlier stretch : List Round)
    (handled : (create host config).Handles (earlier ++ stretch))
    (hidden : ((create host config).run (movesOf earlier)).StaysHidden (movesOf stretch)) :
    let start := (create host config).run (movesOf earlier)
    let model := start.run (movesOf stretch)
    (∃ since, model.log = since ++ start.log ∧ ∀ effect ∈ since, effect.isRequest = false) ∧
    (∀ before move after, movesOf stretch = before ++ move :: after → ∀ context plugin,
      ((start.run before).move move).store.board.entry? context plugin ≠
        (start.run before).store.board.entry? context plugin →
      start.ChangesEntry (start.run before) move context plugin) ∧
    (model.host.isVisible = false → ∀ tasks : List Task,
      let shown := model.move .unhide
      (shown.run (tasks.map .task)).AtRest →
      ∀ (index : Nat) pipeline, model.pipelines[index]? = some pipeline → pipeline.phase ≠ .ended →
        shown.evaluations index (tasks.map .task) = 1 ∧
        ∃ before turn after, shown.turns index (tasks.map .task) = before ++ turn :: after ∧
          (∀ other ∈ before ++ after, other.step.evaluation? = none) ∧
          turn.step.evaluation? =
            some (shown.host.changeNumber.value, (shown.scene pipeline).patchset? pipeline.key.context) ∧
          turn.trigger = (shown.scene pipeline).trigger pipeline.key.context) := by
  intro start model
  have rest : start.AtRest := handled.of_append.atRest (atRest_create host config)
  refine ⟨exists_log_of_staysHidden rest hidden, fun before move after split context plugin changed => ?_, ?_⟩
  · have unseen := hidden before move after split
    rw [split] at hidden
    rw [run_concat] at unseen
    have roster : (start.run before).Roster := ((roster_create host config).run _).run before
    exact (leftAlone_run rest hidden.of_append).changesEntry roster unseen changed
  · intro unseen tasks shown done index pipeline place going
    have same : model = (create host config).run (movesOf (earlier ++ stretch)) := by
      rw [movesOf_append, run_append]
    clear_value model
    subst same
    exact exists_evaluation_unhide (handled.atRest (atRest_create host config)) unseen done place going

/-- A change loads, and both pipelines of a provider ask for its checks. -/
def askedRounds : List Round :=
  [⟨.host (.loadChange ((ChangeInfo.ofNumber 42 "tools").addRevision "first" 1 "")), [.followLatest]⟩,
    ⟨.operation (.register "ci" (fun _ _ _ => .handedOut) none),
      [.pipeline 0, .pipeline 0, .pipeline 1, .pipeline 1]⟩]

/-- The host is hidden, and another change loads. A patchset of it is pinned, and the first pipeline has its answer. -/
def hiddenRounds : List Round :=
  [⟨.host (.setVisibility .hidden), [.pipeline 0, .pipeline 1]⟩,
    ⟨.host (.loadChange ((ChangeInfo.ofNumber 43 "tools").addRevision "second" 2 "")),
      [.pipeline 0, .pipeline 0, .pipeline 1, .pipeline 1, .followLatest]⟩,
    ⟨.operation (.setPatchset (some 1)), [.pipeline 1]⟩,
    ⟨.answer 0 (.response .empty), [.pipeline 0, .pipeline 1]⟩]

/-- The answer lands while the host is hidden. Once the host is shown, each pipeline evaluates its trigger once, though
it has missed a change and a pin. -/
theorem hidden_left_alone_overtaken :
    let start := (create {} {}).run (movesOf askedRounds)
    let model := start.run (movesOf hiddenRounds)
    let tasks : List Task := [.pipeline 0, .pipeline 0, .pipeline 1, .pipeline 1, .pipeline 1]
    (∃ since, model.log = since ++ start.log ∧ ∀ effect ∈ since, effect.isRequest = false) ∧
    model.store.board.entry? .latest "ci" ≠ start.store.board.entry? .latest "ci" ∧
    (model.move .unhide).evaluations 0 (tasks.map .task) = 1 ∧
    (model.move .unhide).evaluations 1 (tasks.map .task) = 1 := by
  intro start model tasks
  have handled : (create {} {}).Handles (askedRounds ++ hiddenRounds) := by decide
  have hidden : start.StaysHidden (movesOf hiddenRounds) := by decide
  obtain ⟨silent, _, shows⟩ := hidden_left_alone {} {} askedRounds hiddenRounds handled hidden
  have unseen : model.host.isVisible = false := by decide
  have done : ((model.move .unhide).run (tasks.map .task)).AtRest := by decide
  have once (index : Nat)
      (going : (model.pipelines[index]?.any fun pipeline => decide (pipeline.phase ≠ .ended)) = true) :
      (model.move .unhide).evaluations index (tasks.map .task) = 1 := by
    obtain ⟨pipeline, place, facts⟩ := (Option.any_eq_true ..).mp going
    exact (shows unseen tasks done index pipeline place (of_decide_eq_true facts)).1
  exact ⟨silent, by decide, once 0 (by decide), once 1 (by decide)⟩

end Model

end ReviewChecks
