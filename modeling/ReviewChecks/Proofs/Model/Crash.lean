import ReviewChecks.Proofs.Model.Journal
import ReviewChecks.Proofs.Model.Loading

/-! # Crashes

A fetch that fails ends its pipeline. The turn that finds the failure reports it and leaves an entry with the message
and no data, and touches nothing else. From then on the pipeline rests, and nobody else writes to its entry: other
pipelines have other entries, a pushed result finds no run, and the provider cannot be registered anew as long as it is
registered, or once the model is shut down (`Model.GivenUp.move`). So a crash is final until the provider's registration
is ended (`Model.crash_final`).
-/

namespace ReviewChecks

/-- A report of a crash, be it as an error or as an execution. -/
def Report.isCrash : Report → Bool
  | .error _ _ | .execution .fetchCrashed _ _ => true
  | .execution _ _ _ | .actionTriggered _ _ => false

/-- The reports of a crash. -/
def crashReports (plugin reason : String) : List Report :=
  [.error plugin ("Fetching checks failed: " ++ reason), .execution .fetchCrashed plugin reason]

/-- The fetch of a number is in flight and has failed by the time at which its pipeline takes a step, be it that the
provider fails as soon as the step asks it. -/
structure Pipeline.Fails (scene : Scene) (pipeline : Pipeline) (number : Nat) (failure : FetchFailure) : Prop where
  running : pipeline.phase = .running
  live : scene.live = true
  outcome : (pipeline.request scene).1.ended? scene = some (number, .failed failure)

namespace Turn

variable {turn : Turn} {number : Nat} {failure : FetchFailure}

/-- A failure goes before everything else that a step could do. -/
theorem settled?_of_fails (fails : turn.pipeline.Fails turn.scene number failure) :
    turn.step.settled? = some (number, .failed failure) := by
  have first : (turn.pipeline.request turn.scene).1.branch? turn.scene = some (.settled number (.failed failure)) := by
    rw [Pipeline.branch?, if_pos fails.live, fails.outcome]
  have steps : turn.step = ((turn.pipeline.request turn.scene).1.settle number (.failed failure)).after
      (turn.pipeline.request turn.scene).2 := by
    simp only [step, Pipeline.step, fails.running, Pipeline.iterate, fails.live, ↓reduceIte, first]
    rfl
  rw [steps, Pipeline.settled?_after_request, (Pipeline.settle_effects ..).2.1]

/-- A turn that settles a failure ends its pipeline. -/
theorem ended_of_failed (settled : turn.step.settled? = some (number, .failed failure)) :
    turn.step.pipeline.phase = .ended := by
  have course := turn.course
  generalize turn.step = step at course settled
  cases course with
  | rests ended => exact ended
  | starts _ => rw [(Pipeline.fire_effects ..).2.1] at settled; cases settled
  | cancels _ _ => rfl
  | waits _ _ _ => rw [Pipeline.settled?_after_request] at settled; cases settled
  | settles fetch outcome =>
    rw [Pipeline.settled?_after_request, (Pipeline.settle_effects ..).2.1, Option.some.injEq, Prod.mk.injEq] at settled
    obtain ⟨_, rfl⟩ := settled
    rfl
  | looks branch => rw [Pipeline.settled?_after_request] at settled; cases settled
  | fires branch =>
    rw [Pipeline.settled?_after_request, (Pipeline.fire_effects ..).2.1] at settled
    cases settled

/-- What a turn does in which a fetch fails. -/
theorem of_fails (turn : Turn) (fails : turn.pipeline.Fails turn.scene number failure) :
    turn.step.writes =
        [.fail turn.pipeline.key.plugin turn.pipeline.key.context (Pipeline.crashMessage failure.reason)] ∧
      turn.step.reports = crashReports turn.pipeline.key.plugin failure.reason ∧
      turn.step.pipeline.phase = .ended ∧ turn.step.pipeline.inFlight = none := by
  have settled := settled?_of_fails fails
  obtain ⟨_, _, _, dropped, writes, reports⟩ := turn.course.of_settled settled
  exact ⟨writes, reports, ended_of_failed settled, dropped⟩

/-- An ended pipeline does nothing in its turns. -/
theorem step_of_ended (turn : Turn) (ended : turn.pipeline.phase = .ended) :
    turn.step = { pipeline := turn.pipeline } := by
  simp only [step, Pipeline.step, ended]

/-- Only a turn that ends its pipeline reports a crash. -/
theorem ended_of_isCrash {report : Report} (member : report ∈ turn.step.reports) (crash : report.isCrash = true) :
    turn.step.pipeline.phase = .ended := by
  rcases turn.accounts with ⟨number, outcome, settled, _, reports⟩ | ⟨_, reports, _, _⟩
  · cases outcome with
    | failed failure => exact ended_of_failed settled
    | response response =>
      rw [reports] at member
      cases response with
      | ok => cases member
      | error | notLoggedIn =>
        obtain rfl := List.mem_singleton.mp member
        cases crash
  · rw [reports] at member
    cases member

end Turn

namespace Model

/-- The reports of a model, the oldest first. -/
def reports (model : Model) : List Report :=
  model.log.reverse.filterMap Effect.report?

/-- How many requests the provider of a pipeline has had in its context, under whatever registration. -/
def requestsOf (model : Model) (key : PipelineKey) : Nat :=
  model.log.countP (Effect.isRequestOf key)

theorem reports_move (model : Model) (move : Move) :
    (model.move move).reports = model.reports ++ (model.logged move).filterMap Effect.report? := by
  rw [reports, log_move, List.reverse_append, List.reverse_reverse, List.filterMap_append, reports]

theorem requestsOf_move (model : Model) (move : Move) (key : PipelineKey) :
    (model.move move).requestsOf key = (model.logged move).countP (Effect.isRequestOf key) + model.requestsOf key := by
  rw [requestsOf, log_move, List.countP_append, List.countP_reverse, requestsOf]

variable {model : Model} {index : Nat} {pipeline : Pipeline}

/-- An ended pipeline stays as it is. -/
theorem getElem?_move_of_ended (place : model.pipelines[index]? = some pipeline) (ended : pipeline.phase = .ended)
    (empty : pipeline.inFlight = none) (move : Move) : (model.move move).pipelines[index]? = some pipeline := by
  cases taken : model.turn? index move with
  | some turn =>
    have same := (turn?_eq_some_iff.mp taken).2.1
    rw [place, Option.some.injEq] at same
    subst same
    rw [(getElem?_of_turn taken).1, Turn.step_of_ended _ ended]
  | none =>
    obtain ⟨after, following, resembles⟩ := exists_resembling place taken
    have nothing := resembles.ticket
    rw [empty, Option.map_none, Option.map_eq_none_iff] at nothing
    rw [following, resembles.fields, nothing, ← empty]

theorem getElem?_run_of_ended (place : model.pipelines[index]? = some pipeline) (ended : pipeline.phase = .ended)
    (empty : pipeline.inFlight = none) (moves : List Move) : (model.run moves).pipelines[index]? = some pipeline := by
  induction moves generalizing model with
  | nil => exact place
  | cons move rest ih => exact ih (getElem?_move_of_ended place ended empty move)

/-- The turns of an ended pipeline report nothing. -/
theorem reports_of_ended (place : model.pipelines[index]? = some pipeline) (ended : pipeline.phase = .ended)
    (empty : pipeline.inFlight = none) (moves : List Move) :
    ∀ turn ∈ model.turns index moves, turn.step.reports = [] := by
  intro turn member
  obtain ⟨earlier, later, split⟩ := List.append_of_mem member
  obtain ⟨before, move, _, _, _, taken, _⟩ := exists_move_of_turn split
  have there := getElem?_run_of_ended place ended empty before
  rw [(turn?_eq_some_iff.mp taken).2.1, Option.some.injEq] at there
  rw [Turn.step_of_ended _ (there ▸ ended)]
  rfl

/-- A pipeline that has not ended has never crashed. -/
theorem not_isCrash_of_not_ended {host : Host} {config : ModelConfig} {moves : List Move}
    (place : ((create host config).run moves).pipelines[index]? = some pipeline) (going : pipeline.phase ≠ .ended) :
    ∀ turn ∈ (create host config).turns index moves, ∀ report ∈ turn.step.reports, report.isCrash = false := by
  intro turn member report reported
  refine Bool.eq_false_iff.mpr fun crash => going ?_
  obtain ⟨earlier, later, split⟩ := List.append_of_mem member
  obtain ⟨before, move, after, rfl, _, taken, _⟩ := exists_move_of_turn split
  have ended := Turn.ended_of_isCrash reported crash
  have there := (getElem?_of_turn taken).1
  rw [← run_concat] at there
  have empty := (ledger host config (before ++ [move])).released index _ there ended
  have still := getElem?_run_of_ended there ended empty after
  rw [← run_append, List.append_assoc, List.singleton_append, place, Option.some.injEq] at still
  rw [still, ended]

/-- A pipeline has given up: its entry has no runs, and its provider is not to be registered under another number. -/
structure GivenUp (model : Model) (index : Nat) (pipeline : Pipeline) (entry : Entry) : Prop where
  place : model.pipelines[index]? = some pipeline
  ended : pipeline.phase = .ended
  empty : pipeline.inFlight = none
  found : model.store.board.entry? pipeline.key.context pipeline.key.plugin = some entry
  runs : entry.runs = []
  only : model.RegisteredOnly pipeline.key.plugin (· = pipeline.key.registration)
  closed : model.admits pipeline.key.plugin = false

/-- A provider that cannot be registered cannot be registered later either, unless its registration is ended. -/
theorem admits_move {plugin : String} (closed : model.admits plugin = false) {move : Move}
    (stays : move = .operation (.unregister plugin) → model.isRegistered plugin = false) :
    (model.move move).admits plugin = false := by
  refine Bool.eq_false_iff.mpr fun admitted => ?_
  simp only [admits, Bool.and_eq_true, decide_eq_true_eq, Bool.not_eq_true'] at admitted
  obtain ⟨running, gone⟩ := admitted
  have before := running_of_move running
  have moved := model.moved move
  have registered : model.isRegistered plugin = true := by
    simpa only [admits, before, decide_true, Bool.true_and, Bool.not_eq_false'] using closed
  obtain ⟨registrant, enrolled, rfl⟩ := isRegistered_iff.mp registered
  have still : registrant ∈ model.registrantsAfter move := by
    unfold registrantsAfter
    split
    next =>
      split
      · exact List.mem_append_left _ enrolled
      · exact enrolled
    next other =>
      refine List.mem_filter.mpr ⟨enrolled, decide_eq_true fun same => ?_⟩
      rw [stays (by rw [same])] at registered
      cases registered
    next =>
      rw [moved.life, lifeAfter, if_pos before] at running
      cases running
    next =>
      rw [moved.life] at running
      cases running
    next => exact enrolled
  rw [isRegistered_iff.mpr ⟨registrant, moved.registrants ▸ still, rfl⟩] at gone
  cases gone

/-- A result that is pushed to an entry without runs finds nothing to replace. -/
theorem getD_push?_of_runs {entry : Entry} (empty : entry.runs = []) (run : RunInfo) (result : CheckResult) :
    (entry.push? run result).getD entry = entry := by
  simp [Entry.push?, empty]

namespace GivenUp

variable {entry : Entry}

/-- Nobody writes to the entry of a pipeline that has given up. -/
theorem entry?_move (given : model.GivenUp index pipeline entry) (roster : model.Roster) (enrolment : model.Enrolment)
    {move : Move}
    (stays : move = .operation (.unregister pipeline.key.plugin) → model.isRegistered pipeline.key.plugin = false) :
    (model.move move).store.board.entry? pipeline.key.context pipeline.key.plugin = some entry := by
  rw [(model.moved move).store]
  by_cases own : move = .task (.pipeline index)
  · subst own
    have nothing : model.written (.task (.pipeline index)) = [] := by
      have rests := Turn.step_of_ended ⟨model.scene pipeline, pipeline⟩ given.ended
      rw [Turn.step] at rests
      simp only [written, given.place, rests, ite_self]
    rw [nothing]
    exact given.found
  · obtain ⟨after, found, rfl⟩ := Store.exists_entry_of_pushed model.store
      (fun mutation member addresses => exists_push_of_addresses roster enrolment given.place given.only own
        (fun _ _ _ => given.closed) stays member addresses)
      (· = entry) (fun held run result same => by subst same; exact getD_push?_of_runs given.runs run result)
      given.found rfl
    exact found

/-- As long as the registration is not ended, a pipeline that has given up stays so. -/
theorem move (given : model.GivenUp index pipeline entry) (roster : model.Roster) (enrolment : model.Enrolment)
    {move : Move}
    (stays : move = .operation (.unregister pipeline.key.plugin) → model.isRegistered pipeline.key.plugin = false) :
    (model.move move).GivenUp index pipeline entry where
  place := getElem?_move_of_ended given.place given.ended given.empty move
  ended := given.ended
  empty := given.empty
  found := given.entry?_move roster enrolment stays
  runs := given.runs
  only := by
    intro registrant member same
    rw [(model.moved move).registrants] at member
    rcases mem_registrantsAfter member with old | ⟨_, _, _, _, admitted, rfl⟩
    · exact given.only registrant old same
    · obtain rfl := same
      rw [given.closed] at admitted
      cases admitted
  closed := admits_move given.closed stays

/-- Nobody asks the provider in the context of a pipeline that has given up. -/
theorem requestsOf_move (given : model.GivenUp index pipeline entry) (roster : model.Roster)
    (enrolment : model.Enrolment) (move : Move) :
    (model.move move).requestsOf pipeline.key = model.requestsOf pipeline.key := by
  have silent : (model.logged move).countP (Effect.isRequestOf pipeline.key) = 0 := by
    refine List.countP_eq_zero.mpr fun effect member asks => ?_
    obtain ⟨other, asking, _, at_other, running, live, plugin, context⟩ := exists_of_logged_request member asks
    have enrolled := enrolled_of_isLive roster at_other live
    -- the one who asks has the key of the pipeline that has ended, and runs
    obtain rfl := enrolment.index_eq_of_enrolled given.place at_other given.only enrolled plugin context
    rw [given.place, Option.some.injEq] at at_other
    rw [← at_other, given.ended] at running
    cases running
  rw [Model.requestsOf_move, silent, Nat.zero_add]

/-- What is left of a pipeline that has given up, as long as its provider's registration is not ended. -/
theorem run (given : model.GivenUp index pipeline entry) (roster : model.Roster) (enrolment : model.Enrolment)
    {moves : List Move} (stays : NoneSucceeds (Operation.IsUnregister pipeline.key.plugin) model moves) :
    (model.run moves).GivenUp index pipeline entry ∧
      (model.run moves).requestsOf pipeline.key = model.requestsOf pipeline.key := by
  induction moves generalizing model with
  | nil => exact ⟨given, rfl⟩
  | cons move rest ih =>
    have unregistered (same : move = .operation (.unregister pipeline.key.plugin)) :
        model.isRegistered pipeline.key.plugin = false := by
      subst same
      exact Bool.eq_false_iff.mpr fun registered => stays.head rfl (perform_unregister_eq_done.mpr registered)
    obtain ⟨still, unasked⟩ := ih (given.move roster enrolment unregistered) (roster.move move)
      (enrolment.move roster move) stays.tail
    exact ⟨still, unasked.trans (given.requestsOf_move roster enrolment move)⟩

end GivenUp

/-- What the crash of a pipeline comes to, told by the model before and after the turn that finds the failure, by the
model some time later, and by all turns of the pipeline until then. -/
structure CrashIsFinal (before crashed final : Model) (index : Nat) (key : PipelineKey) (reason : String)
    (turns : List Turn) : Prop where
  /-- The turn reports the crash and nothing else. -/
  reported : crashed.reports = before.reports ++ crashReports key.plugin reason
  /-- The pipeline never reports another crash. -/
  once : (turns.flatMap (·.step.reports)).filter Report.isCrash = crashReports key.plugin reason
  /-- The entry has the message and no data. -/
  entry : ∃ entry, crashed.store.board.entry? key.context key.plugin = some entry ∧
    entry.status = .error ("Fetching checks failed: " ++ reason) ∧ entry.runs = [] ∧ entry.actions = [] ∧
    entry.loading = false
  /-- The turn leaves the other entries alone, the one of the same provider in the other context included. -/
  entries : ∀ context plugin, (context, plugin) ≠ (key.context, key.plugin) →
    crashed.store.board.entry? context plugin = before.store.board.entry? context plugin
  /-- The turn leaves the other pipelines alone. -/
  pipelines : ∀ other, other ≠ index → crashed.pipelines[other]? = before.pipelines[other]?
  /-- The entry stays. -/
  kept : final.store.board.entry? key.context key.plugin = crashed.store.board.entry? key.context key.plugin
  /-- The pipeline has ended and stays as it is, without a fetch. -/
  rests : ∃ pipeline, crashed.pipelines[index]? = some pipeline ∧ final.pipelines[index]? = some pipeline ∧
    pipeline.phase = .ended ∧ pipeline.inFlight = none
  /-- The provider is not asked in that context any more. -/
  unasked : final.requestsOf key = crashed.requestsOf key

/-- The turn of a pipeline changes no other one. -/
theorem getElem?_move_of_ne {other : Nat} (different : other ≠ index) :
    (model.move (.task (.pipeline index))).pipelines[other]? = model.pipelines[other]? := by
  rw [(model.moved _).pipelines]
  simp only [pipelinesAfter, stepPipeline]
  split
  · rfl
  · exact List.getElem?_set_ne different.symm

/-- In a run, a turn that finds that the fetch of its pipeline has failed leaves the pipeline given up, with the message
in its entry. -/
theorem givenUp_of_fails {host : Host} {config : ModelConfig} {moves : List Move} {number : Nat}
    {failure : FetchFailure} (place : ((create host config).run moves).pipelines[index]? = some pipeline)
    (fails : pipeline.Fails (((create host config).run moves).scene pipeline) number failure) :
    ∃ after : Pipeline, ∃ entry : Entry, after.key = pipeline.key ∧
      (((create host config).run moves).move (.task (.pipeline index))).GivenUp index after
        (entry.fail (.error (Pipeline.crashMessage failure.reason))) := by
  have roster := (roster_create host config).run moves
  have enrolment := enrolment_run host config moves
  have shows := shows_run host config moves index pipeline place
  generalize (create host config).run moves = model at place fails roster enrolment shows ⊢
  let turn : Turn := ⟨model.scene pipeline, pipeline⟩
  have taken : model.turn? index (.task (.pipeline index)) = some turn := turn?_eq_some_iff.mpr ⟨rfl, place, rfl⟩
  obtain ⟨writes, _, ended, empty⟩ := turn.of_fails fails
  have key : turn.step.pipeline.key = pipeline.key := turn.course.key_eq
  have enrolled := enrolled_of_isLive roster place fails.live
  have unmoved : (model.move (.task (.pipeline index))).registrants = model.registrants := (model.moved _).registrants
  have registered : (model.move (.task (.pipeline index))).isRegistered pipeline.key.plugin = true :=
    isRegistered_iff.mpr ⟨_, unmoved ▸ enrolled, rfl⟩
  obtain ⟨entry, found, _⟩ := shows enrolled
  refine ⟨turn.step.pipeline, entry, key, (getElem?_of_turn taken).1, ended, empty, ?_, rfl, ?_, ?_⟩
  · rw [entry?_of_turn taken fails.live, writes, key, found]
    exact if_pos ⟨rfl, rfl⟩
  · rw [key, RegisteredOnly, unmoved]
    exact enrolment.registeredOnly enrolled
  · rw [key, admits, registered, Bool.not_true, Bool.and_false]

/-- Of all turns of a pipeline only the one in which its fetch fails reports a crash. -/
theorem crashes_of_fails {host : Host} {config : ModelConfig} {moves : List Move} {number : Nat}
    {failure : FetchFailure} (place : ((create host config).run moves).pipelines[index]? = some pipeline)
    (fails : pipeline.Fails (((create host config).run moves).scene pipeline) number failure) (later : List Move) :
    (((create host config).turns index (moves ++ .task (.pipeline index) :: later)).flatMap
      (·.step.reports)).filter Report.isCrash = crashReports pipeline.key.plugin failure.reason := by
  have unspoken := not_isCrash_of_not_ended place (by rw [fails.running]; nofun)
  obtain ⟨_, _, _, given⟩ := givenUp_of_fails place fails
  have afterwards := reports_of_ended given.place given.ended given.empty later
  rw [turns_append]
  generalize (create host config).turns index moves = history at unspoken ⊢
  generalize (create host config).run moves = model at place fails afterwards ⊢
  have taken : model.turn? index (.task (.pipeline index)) = some ⟨model.scene pipeline, pipeline⟩ :=
    turn?_eq_some_iff.mpr ⟨rfl, place, rfl⟩
  have reports := (Turn.of_fails ⟨model.scene pipeline, pipeline⟩ fails).2.1
  have silent : (history.flatMap (·.step.reports)).filter Report.isCrash = [] := by
    refine List.filter_eq_nil_iff.mpr fun report member => ?_
    obtain ⟨turn, inside, reported⟩ := List.mem_flatMap.mp member
    simp only [unspoken turn inside report reported, Bool.false_eq_true, not_false_eq_true]
  simp only [turns, taken, Option.toList_some, List.flatMap_append, List.flatMap_singleton, reports,
    List.flatMap_eq_nil_iff.mpr afterwards, List.append_nil, List.filter_append, silent, List.nil_append]
  rfl

/-- When the fetch of a pipeline fails, the pipeline reports that once and leaves its entry with the message and without
data; nothing else changes. Until the provider's registration is ended, and be it shut down, the entry stays as it is
and the provider is not asked in that context any more. -/
theorem crash_final (host : Host) (config : ModelConfig) (moves later : List Move) (index : Nat) (pipeline : Pipeline)
    (at_index : ((create host config).run moves).pipelines[index]? = some pipeline) (number : Nat)
    (failure : FetchFailure) (fails : pipeline.Fails (((create host config).run moves).scene pipeline) number failure)
    (stays : NoneSucceeds (Operation.IsUnregister pipeline.key.plugin)
      (((create host config).run moves).move (.task (.pipeline index))) later) :
    CrashIsFinal ((create host config).run moves) (((create host config).run moves).move (.task (.pipeline index)))
      ((create host config).run (moves ++ .task (.pipeline index) :: later)) index pipeline.key failure.reason
      ((create host config).turns index (moves ++ .task (.pipeline index) :: later)) := by
  have roster := ((roster_create host config).run moves).move (.task (.pipeline index))
  have enrolment :=
    (enrolment_run host config moves).move ((roster_create host config).run moves) (.task (.pipeline index))
  have once := crashes_of_fails at_index fails later
  obtain ⟨after, entry, key, given⟩ := givenUp_of_fails at_index fails
  rw [run_append]
  generalize (create host config).turns index (moves ++ .task (.pipeline index) :: later) = turns at once ⊢
  generalize (create host config).run moves = model at at_index fails stays roster enrolment given ⊢
  change CrashIsFinal _ _ ((model.move (.task (.pipeline index))).run later) _ _ _ _
  obtain ⟨final, unasked⟩ := given.run roster enrolment (key ▸ stays)
  let turn : Turn := ⟨model.scene pipeline, pipeline⟩
  have taken : model.turn? index (.task (.pipeline index)) = some turn := turn?_eq_some_iff.mpr ⟨rfl, at_index, rfl⟩
  obtain ⟨writes, reports, _⟩ := turn.of_fails fails
  refine ⟨?_, once, ?_, ?_, fun other => getElem?_move_of_ne, ?_, ?_, key ▸ unasked⟩
  · simp only [reports_move, logged, at_index]
    exact congrArg (model.reports ++ ·) reports
  · exact ⟨_, key ▸ given.found, rfl, rfl, rfl, rfl⟩
  · intro context plugin different
    have elsewhere : ¬ (Mutation.fail pipeline.key.plugin pipeline.key.context
        (Pipeline.crashMessage failure.reason)).Addresses context plugin := by
      rintro ⟨rfl, rfl⟩
      exact different rfl
    rw [entry?_of_turn taken fails.live, writes]
    exact Mutation.entryAfter_of_not_addresses elsewhere _
  · exact (key ▸ final.found).trans (key ▸ given.found).symm
  · exact ⟨after, given.place, final.place, given.ended, given.empty⟩

/-- A provider is registered and has been asked for the checks of a change in the latest context, where it panics. -/
def panickedMoves : List Move :=
  [.host (.loadChange ((ChangeInfo.ofNumber 42 "tools").addRevision "first" 1 "")),
    .operation (.register "ci" (fun _ _ _ => .handedOut) none), .task (.pipeline 0), .task (.pipeline 0),
    .answer 0 (.failed (.panic none))]

/-- The provider is to be registered again and reloaded, its pipelines go on, and at last everything is shut down. -/
def stubbornMoves : List Move :=
  [.operation (.register "ci" (fun _ _ _ => .never) none), .operation .reloadAll, .task (.pipeline 0),
    .task (.pipeline 1), .task (.pipeline 1), .elapse 60000, .operation .shutdown,
    .operation (.register "ci" (fun _ _ _ => .never) none), .task (.pipeline 1), .task (.pipeline 0)]

/-- A panic is final. -/
theorem crash_final_panicked :
    CrashIsFinal ((create {} {}).run panickedMoves) (((create {} {}).run panickedMoves).move (.task (.pipeline 0)))
      ((create {} {}).run (panickedMoves ++ .task (.pipeline 0) :: stubbornMoves)) 0 ⟨"ci", .latest, 0⟩
      "provider panicked" ((create {} {}).turns 0 (panickedMoves ++ .task (.pipeline 0) :: stubbornMoves)) :=
  crash_final {} {} panickedMoves stubbornMoves 0 (((create {} {}).run panickedMoves).pipelines.get ⟨0, by decide⟩) rfl
    0 (.panic none) ⟨by decide, by decide, by decide⟩
    (noneSucceeds_of_forall (by simp [stubbornMoves, Operation.IsUnregister]))

end Model

end ReviewChecks
