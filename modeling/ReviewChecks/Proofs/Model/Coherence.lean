import ReviewChecks.Proofs.Change.Revisions
import ReviewChecks.Proofs.Model.Journal
import ReviewChecks.Proofs.Model.Loading
import ReviewChecks.Proofs.Model.Navigation

/-! # Coherent requests

A request is put together from signals that are set one by one and from a pin that outlives them. It is coherent all the
same, since its commit hash is looked up in the change that it carries, by the patchset that it names
(`Scene.coherent_of_trigger`). Whether change number and patchset are those of that change is up to the host: as long as
it publishes changes as a whole, what it shows agrees (`Host.Agrees.act`), and a request for the latest patchset agrees
with it. Where the lookup fails nothing is asked for, and the entry shows an empty answer instead.

A request that a provider has been asked is the one of the fetch in flight at that time, and hence the one of the turn
that created it (`Model.exists_creator_of_mem_log`).
-/

namespace ReviewChecks

/-- The commit hash of a request is that of a revision of the patchset, and its repository that of the change. -/
structure FetchRequest.Coherent (request : FetchRequest) : Prop where
  revision : request.changeInfo.HasRevision request.sha request.patchset
  repo : request.repo = request.changeInfo.project

/-- The number of a request is that of its change, and in the latest context its patchset is the latest one. -/
structure FetchRequest.Agrees (request : FetchRequest) (context : PatchsetContext) : Prop where
  changeNumber : request.changeNumber = request.changeInfo.number
  patchset : context = .latest → request.changeInfo.IsLatestPatchset request.patchset

/-- The number and the latest patchset that a host publishes are those of the change that it publishes. -/
structure Host.Agrees (host : Host) : Prop where
  changeNumber : host.changeNumber.value = host.change.value.map (·.number)
  latestPatchset : host.latestPatchset.value = host.change.value.bind (·.latestPatchset?)

/-- The host after some actions, of which the first follow on its making. -/
def Host.ofActions (actions : List HostAction) : Host :=
  actions.foldl Host.act {}

/-- An action that does not publish a part of a change on its own. -/
def HostAction.PublishesWhole : HostAction → Prop
  | .setChange _ | .setChangeNumber _ | .setLatestPatchset _ => False
  | .loadChange _ | .setRouterPatchset _ | .setVisibility _ | .broadcastReload => True

theorem Host.Agrees.act {host : Host} (agrees : host.Agrees) {action : HostAction} (whole : action.PublishesWhole) :
    (host.act action).Agrees := by
  cases action with
  | loadChange change =>
    constructor <;> simp only [Host.act, Signal.value_set, Option.map_some, Option.bind_some]
  | setRouterPatchset | setVisibility | broadcastReload => exact ⟨agrees.changeNumber, agrees.latestPatchset⟩
  | setChange | setChangeNumber | setLatestPatchset => exact whole.elim

theorem Host.agrees_ofActions {actions : List HostAction} (whole : ∀ action ∈ actions, action.PublishesWhole) :
    (Host.ofActions actions).Agrees := by
  induction actions using List.reverseRecOn with
  | nil => exact ⟨rfl, rfl⟩
  | append_singleton actions action ih =>
    rw [ofActions, List.foldl_append]
    exact (ih fun other member => whole other (List.mem_append_left _ member)).act (whole action (by simp))

namespace Scene

/-- Something is missing that a request for a context needs. -/
inductive LacksData (scene : Scene) (context : PatchsetContext) : Prop
  | changeNumber (unknown : scene.host.changeNumber.value = none)
  | patchset (unknown : scene.patchset? context = none)
  | change (unknown : scene.host.change.value = none)
  | revision {patchset : UInt32} {change : ChangeInfo} (resolved : scene.patchset? context = some patchset)
      (shown : scene.host.change.value = some change) (absent : ∀ sha, ¬ change.HasRevision sha patchset)

variable {scene : Scene} {context : PatchsetContext} {request : FetchRequest}

/-- Where a request comes from. -/
theorem request?_eq_some_iff :
    scene.request? context = some request ↔
      scene.host.changeNumber.value = some request.changeNumber ∧ scene.patchset? context = some request.patchset ∧
        scene.host.change.value = some request.changeInfo ∧
        request.changeInfo.shaForPatchset? request.patchset = some request.sha ∧
        request.repo = request.changeInfo.project ∧
        request.commitMessage = request.changeInfo.currentCommitMessage? := by
  simp only [request?, bind, Option.bind_eq_some_iff, pure, Option.some.injEq]
  constructor
  · rintro ⟨number, known, patchset, resolved, change, shown, sha, found, rfl⟩
    exact ⟨known, resolved, shown, found, rfl, rfl⟩
  · rintro ⟨known, resolved, shown, found, repo, message⟩
    refine ⟨_, known, _, resolved, _, shown, _, found, ?_⟩
    rw [← repo, ← message]

theorem request?_eq_none_iff : scene.request? context = none ↔ scene.LacksData context := by
  constructor
  · intro nothing
    cases known : scene.host.changeNumber.value with
    | none => exact .changeNumber known
    | some number =>
    cases resolved : scene.patchset? context with
    | none => exact .patchset resolved
    | some patchset =>
    cases shown : scene.host.change.value with
    | none => exact .change shown
    | some change =>
      have unlocated : ∀ sha, ¬ change.shaForPatchset? patchset = some sha := by
        simpa [request?, known, resolved, shown] using nothing
      exact .revision resolved shown
        (ChangeInfo.shaForPatchset?_eq_none_iff.mp (Option.eq_none_iff_forall_ne_some.mpr unlocated))
  · intro lacks
    refine Option.eq_none_iff_forall_ne_some.mpr fun request found => ?_
    obtain ⟨known, resolved, shown, located, _⟩ := request?_eq_some_iff.mp found
    cases lacks with
    | changeNumber unknown => cases unknown.symm.trans known
    | patchset unknown => cases unknown.symm.trans resolved
    | change unknown => cases unknown.symm.trans shown
    | revision resolves shows absent =>
      obtain rfl := Option.some.inj (resolves.symm.trans resolved)
      obtain rfl := Option.some.inj (shows.symm.trans shown)
      exact absent _ (ChangeInfo.hasRevision_of_sha located)

theorem trigger_eq_fetch_iff :
    scene.trigger context = .fetch request ↔ scene.host.isVisible = true ∧ scene.request? context = some request := by
  unfold trigger
  split
  next visible => cases found : scene.request? context <;> simp [visible]
  next hidden => simp [hidden]

theorem trigger_eq_gap_iff :
    scene.trigger context = .gap ↔ scene.host.isVisible = true ∧ scene.LacksData context := by
  rw [← request?_eq_none_iff]
  unfold trigger
  split
  next visible => cases found : scene.request? context <;> simp [visible]
  next hidden => simp [hidden]

theorem coherent_of_trigger (comes : scene.trigger context = .fetch request) : request.Coherent := by
  obtain ⟨_, _, _, located, repo, _⟩ := request?_eq_some_iff.mp (trigger_eq_fetch_iff.mp comes).2
  exact ⟨ChangeInfo.hasRevision_of_sha located, repo⟩

theorem agrees_of_trigger (agrees : scene.host.Agrees) (comes : scene.trigger context = .fetch request) :
    request.Agrees context := by
  obtain ⟨known, resolved, shown, _⟩ := request?_eq_some_iff.mp (trigger_eq_fetch_iff.mp comes).2
  constructor
  · rw [agrees.changeNumber, shown, Option.map_some, Option.some.injEq] at known
    exact known.symm
  · rintro rfl
    apply ChangeInfo.latestPatchset?_eq_some_iff.mp
    rw [patchset?, agrees.latestPatchset, shown, Option.bind_some] at resolved
    exact resolved

end Scene

/-- What is asked is the request of the fetch in flight. -/
theorem Pipeline.holds_of_requested {scene : Scene} {pipeline : Pipeline} {key : PipelineKey} {number call time : Nat}
    {request : FetchRequest} {reply : Reply}
    (member : .requested key number call time request reply ∈ (pipeline.request scene).2) :
    key = pipeline.key ∧ pipeline.Holds (number, request) := by
  unfold Pipeline.request at member
  split at member
  next fetch held =>
    split at member
    · obtain ⟨rfl, rfl, _, _, rfl, _⟩ := Effect.requested.inj (List.mem_singleton.mp member)
      exact ⟨rfl, Pipeline.holds_iff.mpr ⟨fetch, held, rfl, rfl⟩⟩
    · cases member
  next => cases member

namespace Model

/-- The key of the pipeline at a place stays. -/
theorem getElem?_keys_run {model : Model} {index : Nat} {key : PipelineKey} (place : model.keys[index]? = some key)
    (moves : List Move) : (model.run moves).keys[index]? = some key := by
  induction moves generalizing model with
  | nil => exact place
  | cons move rest ih =>
    refine ih ?_
    rw [keys_move, List.getElem?_append_left (List.getElem?_eq_some_iff.mp place).1]
    exact place

/-- The turns at a place are those of pipelines of one key. -/
theorem key_of_mem_turns {model : Model} {index : Nat} {moves : List Move} {turn : Turn}
    (member : turn ∈ model.turns index moves) : (model.run moves).keys[index]? = some turn.pipeline.key := by
  obtain ⟨earlier, later, history⟩ := List.append_of_mem member
  obtain ⟨before, move, after, rfl, _, taken, _⟩ := exists_move_of_turn history
  rw [run_append]
  exact getElem?_keys_run (getElem?_keys (turn?_eq_some_iff.mp taken).2.1) (move :: after)

/-- What a provider has been asked was put together in a turn of the pipeline that asked. -/
theorem exists_creator_of_mem_log {host : Host} {config : ModelConfig} {moves : List Move} {key : PipelineKey}
    {number call time : Nat} {request : FetchRequest} {reply : Reply}
    (member : .requested key number call time request reply ∈ ((create host config).run moves).log) :
    ∃ index, ∃ turn ∈ (create host config).turns index moves, turn.created? = some number ∧
      turn.trigger = .fetch request ∧ turn.pipeline.key = key := by
  induction moves using List.reverseRecOn with
  | nil => cases member
  | append_singleton moves move ih =>
    have earlier {index : Nat} {turn : Turn} (old : turn ∈ (create host config).turns index moves) :
        turn ∈ (create host config).turns index (moves ++ [move]) := by
      rw [turns_concat]
      exact List.mem_append_left _ old
    rw [run_concat, log_move] at member
    rcases List.mem_append.mp member with new | old
    · have asks : (Effect.requested key number call time request reply).isRequestOf key = true := by
        simp [Effect.isRequestOf]
      obtain ⟨index, turn, taken, within⟩ := exists_turn_of_logged_request (List.mem_reverse.mp new) asks
      obtain ⟨_, _, asked⟩ := turn.mem_request_of_isRequestOf within asks
      obtain ⟨rfl, holds⟩ := Pipeline.holds_of_requested asked
      have at_index := (turn?_eq_some_iff.mp taken).2.1
      obtain ⟨before, creator, after, history, created, comes, _⟩ :=
        ((ledger host config moves).holds index _ at_index number request).mp holds
      have creates : creator ∈ (create host config).turns index moves := by simp [history]
      refine ⟨index, creator, earlier creates, created, comes, ?_⟩
      exact Option.some.inj ((key_of_mem_turns creates).symm.trans (getElem?_keys at_index))
    · obtain ⟨index, turn, created, facts⟩ := ih old
      exact ⟨index, turn, earlier created, facts⟩

/-- As long as changes are published as a whole, what the host shows agrees. -/
theorem agrees_host_run {model : Model} (agrees : model.host.Agrees) {moves : List Move}
    (whole : ∀ action, .host action ∈ moves → action.PublishesWhole) : (model.run moves).host.Agrees := by
  induction moves using List.reverseRecOn with
  | nil => exact agrees
  | append_singleton moves move ih =>
    have before := ih fun action member => whole action (List.mem_append_left _ member)
    rw [run_concat, (moved _ move).host]
    unfold hostAfter
    split
    next action => exact before.act (whole action (by simp))
    next => exact before

end Model

/-- A trigger that lacks data creates no fetch, and unless the host is hidden it drops the fetch in flight and writes an
empty answer. -/
theorem Turn.of_lacksData {turn : Turn} (evaluated : turn.step.evaluation?.isSome)
    (lacks : turn.scene.LacksData turn.pipeline.key.context) :
    turn.created? = none ∧ (turn.scene.host.isVisible = true → turn.step.pipeline.inFlight = none ∧
      turn.step.writes = [.load turn.pipeline.key.plugin turn.pipeline.key.context [] [] []]) := by
  have nothing := Scene.request?_eq_none_iff.mpr lacks
  constructor
  · refine Option.eq_none_iff_forall_ne_some.mpr fun number created => ?_
    obtain ⟨_, ⟨request, comes⟩, _⟩ := created?_eq_some_iff.mp created
    exact nomatch nothing.symm.trans (Scene.trigger_eq_fetch_iff.mp comes).2
  · intro visible
    have gap : turn.trigger = .gap := Scene.trigger_eq_gap_iff.mpr ⟨visible, lacks⟩
    constructor
    · have inFlight := isSome_inFlight_of_evaluated evaluated
      rw [gap] at inFlight
      exact Option.not_isSome_iff_eq_none.mp (Bool.eq_false_iff.mp inFlight)
    · rw [(of_evaluated evaluated).2.2.2, gap]
      rfl

namespace Model

/-- Every fetch that a pipeline creates and every request that a provider is asked is coherent, and agrees with its
change if the host has only ever published changes as a whole. A trigger that lacks data creates no fetch; unless the
host is hidden, an empty answer lands in its place, in the entry as long as the registration stands. -/
theorem fetches_coherent (actions : List HostAction) (config : ModelConfig) (moves : List Move) :
    let origin := create (.ofActions actions) config
    let whole := (∀ action ∈ actions, action.PublishesWhole) ∧ ∀ action, .host action ∈ moves → action.PublishesWhole
    (∀ index, ∀ turn ∈ origin.turns index moves, ∀ number, turn.created? = some number →
      ∃ request, turn.step.pipeline.Holds (number, request) ∧ request.Coherent ∧
        (whole → request.Agrees turn.pipeline.key.context)) ∧
    (∀ key number call time request reply,
      .requested key number call time request reply ∈ (origin.run moves).log →
        request.Coherent ∧ (whole → request.Agrees key.context)) ∧
    ∀ index turn, (origin.run moves).turn? index (.task (.pipeline index)) = some turn →
      turn.step.evaluation?.isSome → turn.scene.LacksData turn.pipeline.key.context →
      turn.created? = none ∧ (turn.scene.host.isVisible = true → turn.step.pipeline.inFlight = none ∧
        turn.step.writes = [.load turn.pipeline.key.plugin turn.pipeline.key.context [] [] []] ∧
        (turn.scene.live = true →
          ((origin.run moves).move (.task (.pipeline index))).store.board.entry? turn.pipeline.key.context
              turn.pipeline.key.plugin =
            some ((((origin.run moves).store.board.entry? turn.pipeline.key.context turn.pipeline.key.plugin).getD
              (.fresh turn.pipeline.key.plugin)).load [] [] []))) := by
  intro origin whole
  have asked : ∀ index, ∀ turn ∈ origin.turns index moves, ∀ request, turn.trigger = .fetch request →
      request.Coherent ∧ (whole → request.Agrees turn.pipeline.key.context) := by
    intro index turn member request comes
    refine ⟨Scene.coherent_of_trigger comes, fun ⟨wholeBefore, wholeSince⟩ => Scene.agrees_of_trigger ?_ comes⟩
    obtain ⟨earlier, later, split⟩ := List.append_of_mem member
    obtain ⟨before, move, after, rfl, _, taken, _⟩ := exists_move_of_turn split
    have initially : origin.host.Agrees := Host.agrees_ofActions wholeBefore
    rw [(turn?_eq_some_iff.mp taken).2.2]
    exact agrees_host_run initially fun action earlier => wholeSince action (List.mem_append_left _ earlier)
  refine ⟨fun index turn member number created => ?_, fun key number call time request reply member => ?_,
    fun index turn taken evaluated lacks => ?_⟩
  · obtain ⟨evaluated, ⟨request, comes⟩, same⟩ := Turn.created?_eq_some_iff.mp created
    refine ⟨request, ?_, asked index turn member request comes⟩
    obtain ⟨looked, key, _, _, pipeline, _⟩ := turn.course.exists_fire evaluated
    rw [pipeline, Pipeline.fire_holds, key]
    exact .inl ⟨request, comes, by rw [same]⟩
  · obtain ⟨index, turn, creates, _, comes, rfl⟩ := exists_creator_of_mem_log member
    exact asked index turn creates request comes
  · obtain ⟨uncreated, lands⟩ := Turn.of_lacksData evaluated lacks
    refine ⟨uncreated, fun visible => ?_⟩
    obtain ⟨dropped, writes⟩ := lands visible
    refine ⟨dropped, writes, fun live => ?_⟩
    rw [entry?_of_turn taken live, writes]
    exact if_pos ⟨rfl, rfl⟩

/-- A change with two patchsets, and a provider that is registered while a third one is pinned. -/
def strayPinChange : ChangeInfo :=
  ((ChangeInfo.ofNumber 42 "tools").addRevision "first" 1 "").addRevision "second" 2 ""

def strayPinMoves : List Move :=
  [.operation (.register "ci" (fun _ _ _ => .handedOut) none), .operation (.setPatchset (some 3)),
    .task (.pipeline 0), .task (.pipeline 0)]

theorem fetches_coherent_stray_pin :
    let model := (create (.ofActions [.loadChange strayPinChange]) {}).run strayPinMoves
    (∃ key number call time request reply, .requested key number call time request reply ∈ model.log ∧
      request.Coherent ∧ request.Agrees key.context) ∧
    ∃ turn, model.turn? 1 (.task (.pipeline 1)) = some turn ∧ turn.scene.host.isVisible = true ∧
      turn.scene.LacksData turn.pipeline.key.context ∧ turn.created? = none ∧
      turn.step.pipeline.inFlight = none := by
  intro model
  obtain ⟨_, requests, gaps⟩ := fetches_coherent [.loadChange strayPinChange] {} strayPinMoves
  constructor
  · have asked : (model.log.any (Effect.isRequestOf ⟨"ci", .latest, 0⟩)) = true := by decide
    obtain ⟨effect, member, asks⟩ := List.any_eq_true.mp asked
    cases effect with
    | requested key number call time request reply =>
      obtain ⟨coherent, agrees⟩ := requests key number call time request reply member
      refine ⟨key, number, call, time, request, reply, member, coherent, agrees ⟨?_, ?_⟩⟩
      · exact List.forall_mem_singleton.mpr trivial
      · simp [strayPinMoves]
    | evaluated | abandoned | settled | reported | invoked | noticed => cases asks
  · have computed : (model.pipelines[1]?.any fun pipeline => decide (
        (pipeline.step (model.scene pipeline)).evaluation?.isSome ∧ pipeline.key.context = .selected)) = true := by
      decide
    obtain ⟨pipeline, at_index, facts⟩ := (Option.any_eq_true ..).mp computed
    obtain ⟨evaluated, context⟩ := of_decide_eq_true facts
    let turn : Turn := ⟨model.scene pipeline, pipeline⟩
    have taken : model.turn? 1 (.task (.pipeline 1)) = some turn := turn?_eq_some_iff.mpr ⟨rfl, at_index, rfl⟩
    have visible : model.host.isVisible = true := by decide
    have shown : model.host.change.value = some strayPinChange := by decide
    have pinned : model.store.board.pin.or model.host.latestPatchset.value = some 3 := by decide
    have absent : strayPinChange.shaForPatchset? 3 = none := by decide
    have resolved : turn.scene.patchset? turn.pipeline.key.context = some 3 := by
      rw [show turn.pipeline.key.context = .selected from context]
      exact pinned
    have lacks : turn.scene.LacksData turn.pipeline.key.context :=
      .revision resolved shown (ChangeInfo.shaForPatchset?_eq_none_iff.mp absent)
    obtain ⟨uncreated, lands⟩ := gaps 1 turn taken evaluated lacks
    exact ⟨turn, taken, visible, lacks, uncreated, (lands visible).1⟩

end Model

end ReviewChecks
