import ReviewChecks.Proofs.Model.Enrolment

/-! # What an entry shows of its pipeline

An entry is written by its pipeline's turns and nobody else, pushed results apart, which touch neither flag. A turn that
creates a fetch sets the entry loading, and a turn that drops or settles a fetch lands something that ends it; a trigger
that is suppressed does neither (`Entry.Shows.turn`). So in every run the entry of a provider that is registered says
that it loads exactly while its pipeline has a fetch in flight, and that nothing has landed exactly as long as no turn
has landed anything (`Model.entry_shows_pipeline`).
-/

namespace ReviewChecks

/-- A turn lands something in its entry: the outcome of a fetch, or nothing at all where there is nothing to ask for. -/
def Turn.Lands (turn : Turn) : Prop :=
  turn.step.settled?.isSome ∨ turn.step.evaluation?.isSome ∧ turn.trigger = .gap

namespace Pipeline

theorem isSome_inFlight_iff {pipeline : Pipeline} :
    pipeline.inFlight.isSome = true ↔ ∃ ticket, pipeline.Holds ticket := by
  cases held : pipeline.inFlight <;> simp [Holds, held]

theorem isSome_inFlight_congr {pipeline other : Pipeline}
    (same : ∀ ticket, pipeline.Holds ticket ↔ other.Holds ticket) :
    pipeline.inFlight.isSome = other.inFlight.isSome := by
  rw [Bool.eq_iff_iff, isSome_inFlight_iff, isSome_inFlight_iff]
  exact exists_congr same

end Pipeline

namespace Turn

/-- After a trigger was evaluated there is a fetch in flight if it created one, or if it was suppressed and there was
one before. -/
theorem isSome_inFlight_of_evaluated {turn : Turn} (evaluated : turn.step.evaluation?.isSome) :
    turn.step.pipeline.inFlight.isSome =
      match turn.trigger with
      | .suppressed => turn.pipeline.inFlight.isSome
      | .gap => false
      | .fetch _ => true := by
  obtain ⟨looked, key, _, holds, pipeline, _⟩ := turn.course.exists_fire evaluated
  have fired := Pipeline.fire_holds turn.scene looked
  simp only [key, ← pipeline] at fired
  cases comes : turn.trigger with
  | suppressed =>
    refine Pipeline.isSome_inFlight_congr fun ticket => ?_
    rw [fired, ← trigger, comes, holds]
    simp
  | gap =>
    refine Bool.eq_false_iff.mpr fun held => ?_
    obtain ⟨ticket, holds⟩ := Pipeline.isSome_inFlight_iff.mp held
    rw [fired, ← trigger, comes] at holds
    simp at holds
  | fetch request =>
    refine Pipeline.isSome_inFlight_iff.mpr ⟨(turn.scene.nextFetch, request), ?_⟩
    rw [fired, ← trigger, comes]
    exact .inl ⟨request, rfl, rfl⟩

end Turn

/-- An entry shows how its pipeline stands after some turns. -/
structure Entry.Shows (entry : Entry) (pipeline : Pipeline) (turns : List Turn) : Prop where
  /-- The entry is loading while a fetch is in flight. -/
  loading : entry.loading = pipeline.inFlight.isSome
  /-- Without a landing it is still the first time. -/
  firstTimeLoad : entry.firstTimeLoad = true ↔ ∀ turn ∈ turns, ¬ turn.Lands
  /-- A pipeline that has not run yet or has ended has nothing in flight. -/
  resting : pipeline.phase ≠ .running → pipeline.inFlight = none

namespace Entry.Shows

variable {entry : Entry} {pipeline : Pipeline} {turns : List Turn}

/-- What an outcome makes of an entry. -/
theorem exists_settled (entry : Entry) (pipeline : Pipeline) (number : Nat) (outcome : Outcome) :
    ∃ after : Entry, (pipeline.settle number outcome).writes.foldl
        (Mutation.entryAfter pipeline.key.context pipeline.key.plugin) (some entry) = some after ∧
      after.loading = false ∧ after.firstTimeLoad = false := by
  cases outcome with
  | failed failure => exact ⟨_, if_pos ⟨rfl, rfl⟩, rfl, rfl⟩
  | response response => cases response <;> exact ⟨_, if_pos ⟨rfl, rfl⟩, rfl, rfl⟩

/-- A turn of a pipeline whose registration stands keeps the entry in line with it. -/
theorem turn {turn : Turn} (before : entry.Shows turn.pipeline turns) (live : turn.scene.live = true) :
    ∃ after : Entry, turn.step.writes.foldl
        (Mutation.entryAfter turn.pipeline.key.context turn.pipeline.key.plugin) (some entry) = some after ∧
      after.Shows turn.step.pipeline (turns ++ [turn]) := by
  have landed (lands : turn.Lands) (after : Entry) (first : after.firstTimeLoad = false) :
      after.firstTimeLoad = true ↔ ∀ other ∈ turns ++ [turn], ¬ other.Lands := by
    exact iff_of_false (by simp [first]) fun none_lands => none_lands turn (by simp) lands
  have unlanded (nothing : ¬ turn.Lands) (after : Entry) (same : after.firstTimeLoad = entry.firstTimeLoad) :
      after.firstTimeLoad = true ↔ ∀ other ∈ turns ++ [turn], ¬ other.Lands := by
    rw [same, before.firstTimeLoad]
    simp only [List.forall_mem_append, List.forall_mem_singleton, nothing, not_false_eq_true, and_true]
  cases settled : turn.step.settled? with
  | some result =>
    obtain ⟨number, outcome⟩ := result
    obtain ⟨_, _, _, dropped, writes, _⟩ := turn.course.of_settled settled
    obtain ⟨after, written, loading, first⟩ := exists_settled entry turn.pipeline number outcome
    refine ⟨after, writes ▸ written, ?_, landed (.inl (by simp [settled])) after first, fun _ => dropped⟩
    rw [loading, dropped]
    rfl
  | none =>
    cases evaluation : turn.step.evaluation? with
    | some values =>
      have evaluated := Option.isSome_iff_exists.mpr ⟨values, evaluation⟩
      obtain ⟨_, _, running, writes⟩ := Turn.of_evaluated evaluated
      have inFlight := Turn.isSome_inFlight_of_evaluated evaluated
      have resting : turn.step.pipeline.phase ≠ .running → turn.step.pipeline.inFlight = none :=
        fun rests => (rests running).elim
      rw [writes]
      cases comes : turn.trigger with
      | suppressed =>
        rw [comes] at inFlight
        refine ⟨entry, rfl, before.loading.trans inFlight.symm, unlanded ?_ entry rfl, resting⟩
        simp [Turn.Lands, settled, comes]
      | gap =>
        rw [comes] at inFlight
        refine ⟨entry.load [] [] [], if_pos ⟨rfl, rfl⟩, inFlight.symm, ?_, resting⟩
        exact landed (.inr ⟨evaluated, comes⟩) _ rfl
      | fetch request =>
        rw [comes] at inFlight
        refine ⟨entry.startLoading, if_pos ⟨rfl, rfl⟩, inFlight.symm, unlanded ?_ _ rfl, resting⟩
        simp [Turn.Lands, settled, comes]
    | none =>
      have nothing : ¬ turn.Lands := by simp [Turn.Lands, settled, evaluation]
      obtain ⟨writes, _, _, ⟨same, phase⟩ | ⟨_, _, cancelled⟩⟩ := turn.course.of_quiet evaluation settled
      · have inFlight := Pipeline.isSome_inFlight_congr same
        rw [writes]
        refine ⟨entry, rfl, before.loading.trans inFlight.symm, unlanded nothing entry rfl, fun rests => ?_⟩
        rw [before.resting (phase ▸ rests)] at inFlight
        exact Option.not_isSome_iff_eq_none.mp (by simp [inFlight])
      · rw [live] at cancelled
        cases cancelled

end Entry.Shows

/-- A pushed result touches neither flag of an entry. -/
theorem Entry.flags_push? (entry : Entry) (run : RunInfo) (result : CheckResult) :
    ((entry.push? run result).getD entry).loading = entry.loading ∧
      ((entry.push? run result).getD entry).firstTimeLoad = entry.firstTimeLoad := by
  cases comes : entry.push? run result with
  | none => exact ⟨rfl, rfl⟩
  | some pushed =>
    simp only [push?, bind, Option.bind_eq_some_iff] at comes
    obtain ⟨externalId, _, held⟩ := comes
    split at held
    · rw [← Option.some.inj held]
      exact ⟨rfl, rfl⟩
    · cases held

namespace Model

variable {model : Model} {index : Nat} {pipeline : Pipeline} {move : Move}

/-- A pipeline whose provider is registered under its number sees that its registration stands. -/
theorem live_of_enrolled (enrolled : (pipeline.key.plugin, pipeline.key.registration) ∈ model.registrants) :
    (model.scene pipeline).live = true :=
  isLive_iff.mpr ⟨_, enrolled, rfl⟩

/-- A turn of its pipeline makes of an entry what it writes. -/
theorem entry?_of_turn {turn : Turn} (taken : model.turn? index move = some turn) (live : turn.scene.live = true)
    (context : PatchsetContext) (plugin : String) :
    (model.move move).store.board.entry? context plugin =
      turn.step.writes.foldl (Mutation.entryAfter context plugin) (model.store.board.entry? context plugin) := by
  obtain ⟨rfl, at_index, scene⟩ := turn?_eq_some_iff.mp taken
  have written : model.written (.task (.pipeline index)) = turn.step.writes := by
    rw [scene] at live
    simp only [Model.written, at_index, live, ↓reduceIte, Turn.step, scene]
  rw [(model.moved _).store, written, Store.entry?_applyAll]

/-- Behind the back of a pipeline whose registration stands, nothing changes that its entry shows. -/
theorem shows_of_no_turn (roster : model.Roster) (enrolment : model.Enrolment) {before : Pipeline}
    (place : model.pipelines[index]? = some before) (untaken : model.turn? index move = none)
    (enrolled : (before.key.plugin, before.key.registration) ∈ model.registrants)
    (still : (before.key.plugin, before.key.registration) ∈ (model.move move).registrants) {entry : Entry}
    (found : model.store.board.entry? before.key.context before.key.plugin = some entry) :
    ∃ after, (model.move move).store.board.entry? before.key.context before.key.plugin = some after ∧
      after.loading = entry.loading ∧ after.firstTimeLoad = entry.firstTimeLoad := by
  have registered : model.isRegistered before.key.plugin = true := isRegistered_iff.mpr ⟨_, enrolled, rfl⟩
  rw [(model.moved move).store]
  refine Store.exists_entry_of_pushed model.store (fun mutation member addresses => ?_)
    (fun held => held.loading = entry.loading ∧ held.firstTimeLoad = entry.firstTimeLoad)
    (fun held run result kept => ?_) found ⟨rfl, rfl⟩
  · refine exists_push_of_addresses roster enrolment place (enrolment.registeredOnly enrolled) ?_ ?_ ?_ member addresses
    · rintro rfl
      simp [turn?, place] at untaken
    · intro _ _ _
      simp [admits, registered]
    · rintro rfl
      rw [(model.moved _).registrants] at still
      simp [registrantsAfter] at still
  · obtain ⟨loading, first⟩ := held.flags_push? run result
    exact ⟨loading.trans kept.1, first.trans kept.2⟩

/-- A pipeline that comes into being does so with a registration of its provider, under the next number. -/
theorem exists_register_of_new (nowhere : model.pipelines[index]? = none)
    (somewhere : (model.move move).pipelines[index]? = some pipeline) :
    ∃ provider settings, move = .operation (.register pipeline.key.plugin provider settings) ∧
      model.admits pipeline.key.plugin = true ∧ pipeline.key.registration = model.registered := by
  have beyond : model.keys.length ≤ index := by
    rw [keys, List.length_map]
    exact List.getElem?_eq_none_iff.mp nowhere
  have place := getElem?_keys somewhere
  rw [keys_move, List.getElem?_append_right beyond] at place
  obtain ⟨plugin, provider, settings, rfl, admitted, rfl, number⟩ := mem_newKeys (List.mem_of_getElem? place)
  exact ⟨provider, settings, rfl, admitted, number⟩

/-- Who is registered under a number that was given before was so already. -/
theorem enrolled_of_move {registrant : String × Nat} (given : registrant.2 < model.registered)
    (enrolled : registrant ∈ (model.move move).registrants) : registrant ∈ model.registrants := by
  rw [(model.moved move).registrants] at enrolled
  rcases mem_registrantsAfter enrolled with old | ⟨_, _, _, _, _, rfl⟩
  · exact old
  · exact (Nat.lt_irrefl _ given).elim

/-- In every run the entry of a provider that is registered shows how its pipeline stands. -/
theorem shows_run (host : Host) (config : ModelConfig) (moves : List Move) (index : Nat) (pipeline : Pipeline)
    (at_index : ((create host config).run moves).pipelines[index]? = some pipeline)
    (enrolled : (pipeline.key.plugin, pipeline.key.registration) ∈ ((create host config).run moves).registrants) :
    ∃ entry, ((create host config).run moves).store.board.entry? pipeline.key.context pipeline.key.plugin =
        some entry ∧ entry.Shows pipeline ((create host config).turns index moves) := by
  induction moves using List.reverseRecOn generalizing pipeline with
  | nil => cases at_index
  | append_singleton moves move ih =>
    have roster := (roster_create host config).run moves
    have enrolment := enrolment_run host config moves
    have known : ∀ before, ((create host config).run moves).pipelines[index]? = some before →
        before.key = pipeline.key →
        (before.key.plugin, before.key.registration) ∈ ((create host config).run moves).registrants := by
      intro before place same
      rw [run_concat, ← same] at enrolled
      exact enrolled_of_move (roster.keys _ (List.mem_map_of_mem (List.mem_of_getElem? place))) enrolled
    rw [run_concat] at at_index enrolled ⊢
    rw [turns_concat]
    cases comesFrom at_index with
    | turned turn taken =>
      obtain ⟨_, place, scene⟩ := turn?_eq_some_iff.mp taken
      have key := turn.course.key_eq
      have before := known turn.pipeline place key.symm
      obtain ⟨entry, found, shown⟩ := ih turn.pipeline place before
      have live : turn.scene.live = true := scene ▸ live_of_enrolled before
      obtain ⟨after, written, shownAfter⟩ := shown.turn live
      rw [taken]
      refine ⟨after, ?_, shownAfter⟩
      rw [entry?_of_turn taken live, key, found, written]
    | kept before _ untaken place resembles =>
      rw [untaken, Option.toList_none, List.append_nil]
      have key : before.key = pipeline.key := by rw [resembles.fields]
      have phase : before.phase = pipeline.phase := by rw [resembles.fields]
      have inFlight : before.inFlight.isSome = pipeline.inFlight.isSome := by
        have ticket := congrArg Option.isSome resembles.ticket
        simpa only [Option.isSome_map] using ticket.symm
      obtain ⟨entry, found, shown⟩ := ih before place (known before place key)
      obtain ⟨after, foundAfter, loading, first⟩ :=
        shows_of_no_turn roster enrolment place untaken (known before place key) (key ▸ enrolled) found
      refine ⟨after, key ▸ foundAfter, ?_, ?_, fun rests => ?_⟩
      · rw [loading, shown.loading, inFlight]
      · rw [first]
        exact shown.firstTimeLoad
      · rw [shown.resting (phase ▸ rests)] at inFlight
        exact Option.not_isSome_iff_eq_none.mp (by simp [← inFlight])
    | added _ untaken nowhere _ empty =>
      rw [untaken, Option.toList_none, List.append_nil]
      obtain ⟨provider, settings, rfl, admitted, _⟩ := exists_register_of_new nowhere at_index
      obtain ⟨_, _, fresh, _⟩ := registered_fresh roster admitted provider settings
      refine ⟨.fresh pipeline.key.plugin, fresh pipeline.key.context, ?_, ?_, fun _ => empty⟩
      · rw [empty]
        rfl
      · simp [(ledger host config moves).absent index nowhere, Entry.fresh]

/-- For every provider that is registered and each context there is one pipeline of that registration and an entry. The
entry is loading exactly while the pipeline has a fetch in flight, which it has not before it runs or after it has
ended; and it is the first time exactly until a turn of the pipeline lands something. -/
theorem entry_shows_pipeline (host : Host) (config : ModelConfig) (moves : List Move) (registration : Registration)
    (stands : registration ∈ ((create host config).run moves).registry) (context : PatchsetContext) :
    ∃ index pipeline entry,
      ((create host config).run moves).pipelines[index]? = some pipeline ∧
      pipeline.key = ⟨registration.plugin, context, registration.number⟩ ∧
      (∀ (other : Nat) twin, ((create host config).run moves).pipelines[other]? = some twin →
        twin.key = pipeline.key → other = index) ∧
      ((create host config).run moves).store.board.entry? context registration.plugin = some entry ∧
      entry.loading = pipeline.inFlight.isSome ∧
      (pipeline.phase ≠ .running → entry.loading = false) ∧
      (entry.firstTimeLoad = true ↔ ∀ turn ∈ (create host config).turns index moves, ¬ turn.Lands) := by
  have enrolment := enrolment_run host config moves
  have enrolled : registration.identity ∈ ((create host config).run moves).registrants := List.mem_map_of_mem stands
  obtain ⟨pipeline, member, key⟩ := List.mem_map.mp (enrolment.staffed _ enrolled context)
  obtain ⟨index, at_index⟩ := List.getElem?_of_mem member
  have own : (pipeline.key.plugin, pipeline.key.registration) ∈ ((create host config).run moves).registrants := by
    rw [key]
    exact enrolled
  obtain ⟨entry, found, shown⟩ := shows_run host config moves index pipeline at_index own
  rw [key] at found
  refine ⟨index, pipeline, entry, at_index, key, ?_, found, shown.loading, fun rests => ?_, shown.firstTimeLoad⟩
  · intro other twin at_other same
    exact enrolment.index_eq at_other at_index same
  · rw [shown.loading, shown.resting rests]
    rfl

/-- An answer that is there but not handled leaves its fetch in flight and the entry loading. -/
theorem entry_shows_pipeline_answered :
    ∃ pipeline ∈ ((create {} {}).run answeredMoves).pipelines, pipeline.key = ⟨"ci", .latest, 0⟩ ∧
      pipeline.inFlight.isSome = true := by
  obtain ⟨index, pipeline, entry, at_index, key, _, found, loading, _⟩ :=
    entry_shows_pipeline {} {} answeredMoves ⟨"ci", 0, 0⟩ (by decide) .latest
  have shown : (((create {} {}).run answeredMoves).store.board.entry? .latest "ci").map (·.loading) = some true := by
    decide
  rw [found, Option.map_some, Option.some.injEq] at shown
  exact ⟨pipeline, List.mem_of_getElem? at_index, key, loading.symm.trans shown⟩

end Model

end ReviewChecks
