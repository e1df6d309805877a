import ReviewChecks.Proofs.Model.Journal
import ReviewChecks.Proofs.Model.Stimuli
import ReviewChecks.Proofs.Pipeline.Reloads

/-! # Throttled reloads

The turns in which a pipeline handles requests to reload (`Model.reloadSignals`) have it evaluate its trigger exactly if
the length of the throttle has passed since the last of them that had (`Model.evaluates_of_signal`), because that is
what a pipeline remembers in every run (`Model.lastReload_run`). Requests that come between two turns are handled as
one: while no more are made, what is unseen is handled once or stays unseen (`Model.signals_add_unseen_run`).
-/

namespace ReviewChecks

namespace Model

/-- The turns of the pipeline at a place in which it handles requests to reload. -/
def reloadSignals (index : Nat) (model : Model) (moves : List Move) : List Turn :=
  (model.turns index moves).filter Turn.handlesReload

/-- Those of them that evaluate the trigger. -/
def effectiveReloads (index : Nat) (model : Model) (moves : List Move) : List Turn :=
  (model.reloadSignals index moves).filter Turn.evaluates

variable {origin model : Model} {index : Nat} {moves : List Move}

theorem reloadSignals_concat (index : Nat) (model : Model) (moves : List Move) (move : Move) :
    model.reloadSignals index (moves ++ [move]) =
      model.reloadSignals index moves ++ ((model.run moves).turn? index move).toList.filter Turn.handlesReload := by
  rw [reloadSignals, turns_concat, List.filter_append]
  rfl

/-- A turn in which requests to reload are handled is taken by some move. -/
theorem exists_move_of_signal {earlier later : List Turn} {signal : Turn}
    (split : model.reloadSignals index moves = earlier ++ signal :: later) :
    ∃ before move after, moves = before ++ move :: after ∧ model.reloadSignals index before = earlier ∧
      (model.run before).turn? index move = some signal ∧ signal.handlesReload = true := by
  obtain ⟨first, rest, whole, rfl, tail⟩ := List.filter_eq_append_iff.mp split
  obtain ⟨between, last, rfl, others, handles, _⟩ := List.filter_eq_cons_iff.mp tail
  rw [← List.append_assoc] at whole
  obtain ⟨before, move, after, rfl, same, taken, _⟩ := exists_move_of_turn whole
  refine ⟨before, move, after, rfl, ?_, taken, handles⟩
  rw [reloadSignals, same, List.filter_append, List.filter_eq_nil_iff.mpr others, List.append_nil]

theorem effectiveReloads_concat (index : Nat) (model : Model) (moves : List Move) (move : Move) :
    model.effectiveReloads index (moves ++ [move]) =
      model.effectiveReloads index moves ++
        ((model.run moves).turn? index move).toList.filter fun turn => turn.handlesReload && turn.evaluates := by
  simp only [effectiveReloads, reloadSignals_concat, List.filter_append, List.filter_filter, Bool.and_comm]

/-- A turn of a run is taken at a time that has passed at its end. -/
theorem now_le_clock_of_mem_turns {turn : Turn} (member : turn ∈ model.turns index moves) :
    turn.scene.now ≤ (model.run moves).clock := by
  induction moves using List.reverseRecOn with
  | nil => cases member
  | append_singleton moves move ih =>
    rw [run_concat]
    have passes := (model.run moves).clock_le_move move
    rw [turns_concat] at member
    rcases List.mem_append.mp member with old | new
    · exact Nat.le_trans (ih old) passes
    · obtain ⟨_, _, scene⟩ := turn?_eq_some_iff.mp (Option.mem_toList.mp new)
      rw [scene]
      exact passes

/-- A pipeline knows when a reload last had an effect. -/
theorem lastReload_run (host : Host) (config : ModelConfig) (moves : List Move) (index : Nat) {pipeline : Pipeline}
    (place : ((create host config).run moves).pipelines[index]? = some pipeline) :
    pipeline.lastReload =
      ((create host config).effectiveReloads index moves).getLast?.map fun turn => turn.scene.now := by
  induction moves using List.reverseRecOn generalizing pipeline with
  | nil => cases place
  | append_singleton moves move ih =>
    rw [run_concat] at place
    rw [effectiveReloads_concat]
    cases comesFrom place with
    | turned turn taken =>
      rw [taken, turn.lastReload_step, Option.toList_some, List.filter_singleton]
      cases turn.handlesReload && turn.evaluates with
      | true => rw [if_pos rfl, cond_true, List.getLast?_concat, Option.map_some]
      | false =>
        rw [cond_false, List.append_nil]
        exact ih (turn?_eq_some_iff.mp taken).2.1
    | kept before _ untaken before_move resembles =>
      rw [untaken, Option.toList_none, List.filter_nil, List.append_nil, ← ih before_move, resembles.fields]
    | added _ untaken nowhere _ _ unreloaded =>
      have none_yet : (create host config).turns index moves = [] := (ledger host config moves).absent index nowhere
      rw [untaken, unreloaded, effectiveReloads, reloadSignals, none_yet]
      rfl

/-- Requests to reload have an effect exactly if they are handled late enough after the last ones that had. -/
theorem evaluates_of_signal (host : Host) (config : ModelConfig) (moves : List Move) (index : Nat)
    {earlier later : List Turn} {signal : Turn}
    (split : (create host config).reloadSignals index moves = earlier ++ signal :: later) :
    signal.evaluates = true ↔
      ∀ last ∈ (earlier.filter Turn.evaluates).getLast?,
        last.scene.now + config.reloadThrottle.toNat ≤ signal.scene.now := by
  obtain ⟨before, move, after, rfl, rfl, taken, handles⟩ := exists_move_of_signal split
  obtain ⟨_, place, scene⟩ := turn?_eq_some_iff.mp taken
  have known := lastReload_run host config before index place
  have throttle : signal.scene.reloadThrottle = config.reloadThrottle.toNat := by
    rw [scene, Model.scene, config_run]
    rfl
  have past : ∀ last ∈ signal.pipeline.lastReload, last ≤ signal.scene.now := by
    intro last same
    obtain ⟨turn, found, rfl⟩ := Option.map_eq_some_iff.mp (known.symm.trans same)
    have taken_before : turn ∈ (create host config).turns index before :=
      List.mem_of_mem_filter (List.mem_of_mem_filter (List.mem_of_getLast? found))
    rw [scene]
    exact now_le_clock_of_mem_turns taken_before
  have evaluates : signal.evaluates = signal.pipeline.reloadDue signal.scene :=
    (Pipeline.step_of_handlesReload handles).2.1
  rw [evaluates, Pipeline.reloadDue_iff past, known, throttle]
  simp only [Option.mem_def, Option.map_eq_some_iff, forall_exists_index, and_imp, forall_apply_eq_imp_iff₂]
  rfl

/-- Without turns of its own a pipeline stays as it is, up to its fetch. -/
theorem exists_at_of_no_turns {before : Pipeline} (place : model.pipelines[index]? = some before)
    (untaken : model.turns index moves = []) :
    ∃ inFlight, (model.run moves).pipelines[index]? = some { before with inFlight } := by
  induction moves generalizing model before with
  | nil => exact ⟨before.inFlight, place⟩
  | cons move rest ih =>
    obtain ⟨first, others⟩ := List.append_eq_nil_iff.mp untaken
    obtain ⟨after, later, resembles⟩ := exists_resembling place (Option.toList_eq_nil_iff.mp first)
    obtain ⟨inFlight, last⟩ := ih later others
    rw [resembles.fields] at last
    exact ⟨inFlight, last⟩

/-- What a move makes of a pipeline that has run: it handles requests to reload, or what is unseen stays unseen. -/
theorem exists_at_of_signals {before : Pipeline} (place : model.pipelines[index]? = some before)
    (ran : before.phase ≠ .created) (move : Move) :
    ∃ after, (model.move move).pipelines[index]? = some after ∧ after.key = before.key ∧ after.phase ≠ .created ∧
      (model.reloadSignals index [move]).length + (after.hasUnseenReloads (model.scene before)).toNat =
        (before.hasUnseenReloads (model.scene before)).toNat := by
  have one : model.reloadSignals index [move] = (model.turn? index move).toList.filter Turn.handlesReload :=
    model.reloadSignals_concat index [] move
  rw [one]
  cases taken : model.turn? index move with
  | some turn =>
    obtain ⟨_, at_index, scene⟩ := turn?_eq_some_iff.mp taken
    obtain rfl := Option.some.inj (place.symm.trans at_index)
    refine ⟨turn.step.pipeline, (getElem?_of_turn taken).1, turn.course.key_eq,
      Pipeline.phase_step_ne_created _ _, ?_⟩
    have law := Pipeline.handles_add_unseen_step turn.scene ran
    rw [← scene, ← law, Option.toList_some, List.filter_singleton]
    cases handles : turn.handlesReload <;> rw [show turn.pipeline.handlesReload turn.scene = _ from handles] <;> rfl
  | none =>
    obtain ⟨after, later, resembles⟩ := exists_resembling place taken
    rw [resembles.fields] at later
    exact ⟨_, later, rfl, ran, Nat.zero_add _⟩

/-- A registration that stands at the end of a run stood at its beginning, and since then as many requests to reload
have come as there are more. -/
theorem reloads_of_live {key : PipelineKey} (roster : model.Roster) (enrolment : model.Enrolment)
    (place : model.keys[index]? = some key) (live : (model.run moves).isLive key.registration = true) :
    model.isLive key.registration = true ∧
      (model.run moves).reloadsOf key.registration =
        model.reloadsOf key.registration + model.growth (reloadsAt index) moves := by
  induction moves generalizing model with
  | nil => exact ⟨live, rfl⟩
  | cons move rest ih =>
    have made := roster.keys key (List.mem_of_getElem? place)
    have later : (model.move move).keys[index]? = some key := by
      rw [keys_move]
      exact List.getElem?_append_left (List.getElem?_eq_some_iff.mp place).1 ▸ place
    obtain ⟨stood, counted⟩ := ih (roster.move move) (enrolment.move roster move) later live
    have fewer := reloadsOf_le_move roster enrolment made stood
    refine ⟨isLive_of_move made stood, ?_⟩
    change ((model.move move).run rest).reloadsOf key.registration = _
    have first : (model.move move).reloadsAt index - model.reloadsAt index =
        (model.move move).reloadsOf key.registration - model.reloadsOf key.registration := by
      rw [reloadsAt, reloadsAt, later, place]
      rfl
    have grown : model.growth (reloadsAt index) (move :: rest) =
        ((model.move move).reloadsAt index - model.reloadsAt index) +
          (model.move move).growth (reloadsAt index) rest := rfl
    omega

/-- A pipeline that runs under a registration that stands has seen no more requests than there are. -/
theorem seenReloads_le_run (host : Host) (config : ModelConfig) (moves : List Move) (index : Nat) {pipeline : Pipeline}
    (place : ((create host config).run moves).pipelines[index]? = some pipeline) (ran : pipeline.phase ≠ .created)
    (live : ((create host config).run moves).isLive pipeline.key.registration = true) :
    pipeline.seenReloads ≤ ((create host config).run moves).reloadsOf pipeline.key.registration := by
  induction moves using List.reverseRecOn generalizing pipeline with
  | nil => cases place
  | append_singleton moves move ih =>
    have roster := (roster_create host config).run moves
    have enrolment := enrolment_run host config moves
    rw [run_concat] at place live ⊢
    generalize (create host config).run moves = model at *
    cases comesFrom place with
    | turned turn taken =>
      obtain ⟨_, at_index, scene⟩ := turn?_eq_some_iff.mp taken
      rw [turn.course.key_eq] at live ⊢
      have made := roster.keys _ (List.mem_map_of_mem (List.mem_of_getElem? at_index))
      refine Nat.le_trans (turn.seenReloads_step_le fun ran => ?_) ?_
      · rw [scene]
        exact ih at_index ran (isLive_of_move made live)
      · rw [scene]
        exact reloadsOf_le_move roster enrolment made live
    | kept before _ _ before_move resembles =>
      rw [resembles.fields] at ran live ⊢
      have made := roster.keys _ (List.mem_map_of_mem (List.mem_of_getElem? before_move))
      have seen := ih before_move ran (isLive_of_move made live)
      exact Nat.le_trans seen (reloadsOf_le_move roster enrolment made live)
    | added _ _ _ new => exact absurd new ran

/-- While nobody asks for a reload, a pipeline that has run handles what it has not seen, once, or it stays unseen. -/
theorem signals_add_unseen_run {before after : Pipeline} (roster : model.Roster) (enrolment : model.Enrolment)
    (place : model.pipelines[index]? = some before) (ran : before.phase ≠ .created)
    (later : (model.run moves).pipelines[index]? = some after)
    (live : (model.run moves).isLive before.key.registration = true)
    (unasked : model.growth (reloadsAt index) moves = 0) :
    (model.reloadSignals index moves).length + (after.hasUnseenReloads ((model.run moves).scene after)).toNat =
      (before.hasUnseenReloads (model.scene before)).toNat := by
  induction moves generalizing model before with
  | nil =>
    obtain rfl := Option.some.inj (place.symm.trans later)
    exact Nat.zero_add _
  | cons move rest ih =>
    have keyed := getElem?_keys place
    obtain ⟨next, at_next, key, still, law⟩ := exists_at_of_signals place ran move
    have nextKeyed : (model.move move).keys[index]? = some before.key := key ▸ getElem?_keys at_next
    have split : model.growth (reloadsAt index) (move :: rest) =
        model.growth (reloadsAt index) [move] + (model.move move).growth (reloadsAt index) rest :=
      total_append _ model [move] rest
    obtain ⟨stood, _⟩ := reloads_of_live (roster.move move) (enrolment.move roster move) nextKeyed live
    obtain ⟨_, same⟩ := @reloads_of_live model index [move] before.key roster enrolment keyed stood
    have unchanged : next.hasUnseenReloads ((model.move move).scene next) =
        next.hasUnseenReloads (model.scene before) := by
      have reloads : (model.move move).reloadsOf next.key.registration = model.reloadsOf before.key.registration := by
        rw [key]
        exact same.trans (by omega)
      rw [Pipeline.hasUnseenReloads, Pipeline.hasUnseenReloads, scene, scene, reloads]
    have handled : model.reloadSignals index (move :: rest) =
        model.reloadSignals index [move] ++ (model.move move).reloadSignals index rest := by
      rw [reloadSignals, show move :: rest = [move] ++ rest from rfl, turns_append, List.filter_append]
      rfl
    have rest_law := ih (roster.move move) (enrolment.move roster move) at_next still later (key ▸ live) (by omega)
    rw [unchanged] at rest_law
    rw [handled, List.length_append, ← law, ← rest_law]
    exact Nat.add_assoc ..

/-- A pipeline that has taken no turn has not run. -/
theorem phase_of_no_turns (host : Host) (config : ModelConfig) (moves : List Move) (index : Nat) {pipeline : Pipeline}
    (place : ((create host config).run moves).pipelines[index]? = some pipeline)
    (untaken : (create host config).turns index moves = []) : pipeline.phase = .created := by
  induction moves using List.reverseRecOn generalizing pipeline with
  | nil => cases place
  | append_singleton moves move ih =>
    rw [run_concat] at place
    obtain ⟨before, last⟩ := List.append_eq_nil_iff.mp (turns_concat .. ▸ untaken)
    cases comesFrom place with
    | turned turn taken => cases (Option.toList_eq_nil_iff.mp last).symm.trans taken
    | kept _ _ _ before_move resembles =>
      have new := ih before_move before
      rw [resembles.fields]
      exact new
    | added _ _ _ new => exact new

private theorem unseen_add {seen count more : Nat} (known : seen ≤ count) :
    (seen != count + more) = (seen != count || decide (0 < more)) := by
  rw [Bool.eq_iff_iff, Bool.or_eq_true, bne_iff_ne, bne_iff_ne, decide_eq_true_iff]
  omega

/-- However many requests to reload come between two turns, they are handled as one, or are not seen yet. -/
theorem signals_of_waiting (host : Host) (config : ModelConfig) {earlier waiting later : List Move}
    {before after : Pipeline} (place : ((create host config).run earlier).pipelines[index]? = some before)
    (ran : before.phase ≠ .created)
    (untaken : ((create host config).run earlier).turns index waiting = [])
    (unasked : ((create host config).run (earlier ++ waiting)).growth (reloadsAt index) later = 0)
    (last : ((create host config).run (earlier ++ waiting ++ later)).pipelines[index]? = some after)
    (live : ((create host config).run (earlier ++ waiting ++ later)).isLive before.key.registration = true) :
    (((create host config).run (earlier ++ waiting)).reloadSignals index later).length +
        (after.hasUnseenReloads (((create host config).run (earlier ++ waiting ++ later)).scene after)).toNat =
      (before.hasUnseenReloads (((create host config).run earlier).scene before) ||
        decide (0 < ((create host config).run earlier).growth (reloadsAt index) waiting)).toNat := by
  have roster := (roster_create host config).run earlier
  have enrolment := enrolment_run host config earlier
  have restRoster := (roster_create host config).run (earlier ++ waiting)
  have restEnrolment := enrolment_run host config (earlier ++ waiting)
  have seen := seenReloads_le_run host config earlier index place ran
  rw [run_append _ (earlier ++ waiting)] at last live ⊢
  rw [run_append] at unasked restRoster restEnrolment last live ⊢
  generalize (create host config).run earlier = model at *
  obtain ⟨inFlight, middle⟩ := exists_at_of_no_turns place untaken
  obtain ⟨waited, _⟩ := reloads_of_live restRoster restEnrolment (getElem?_keys middle) live
  obtain ⟨stood, counted⟩ := reloads_of_live roster enrolment (getElem?_keys place) waited
  rw [signals_add_unseen_run restRoster restEnrolment middle ran last live unasked]
  change (before.seenReloads != (model.run waiting).reloadsOf before.key.registration).toNat =
    (before.seenReloads != model.reloadsOf before.key.registration || _).toNat
  rw [counted, unseen_add (seen stood)]

/-- Reloads are throttled at the leading edge. Whatever else a pipeline does, the requests to reload that it handles
have it evaluate its trigger exactly if the length of the throttle has passed since it last handled some that had; so
the first ones always do. However many requests come between two of its turns, it handles them as one, or has not come
to see them yet. Its first turn evaluates the trigger, and whatever was requested before counts as seen. -/
theorem reloads_throttled (host : Host) (config : ModelConfig) (moves : List Move) (index : Nat) :
    let origin := create host config
    (∀ earlier signal later, origin.reloadSignals index moves = earlier ++ signal :: later →
      (signal.evaluates = true ↔
        ∀ last ∈ (earlier.filter Turn.evaluates).getLast?,
          last.scene.now + config.reloadThrottle.toNat ≤ signal.scene.now)) ∧
    (∀ earlier waiting later, moves = earlier ++ waiting ++ later →
      let start := origin.run earlier
      let resumed := origin.run (earlier ++ waiting)
      ∀ before after, start.pipelines[index]? = some before → before.phase ≠ .created →
        start.turns index waiting = [] → resumed.growth (reloadsAt index) later = 0 →
        (origin.run moves).pipelines[index]? = some after →
        (origin.run moves).isLive before.key.registration = true →
        (resumed.reloadSignals index later).length +
            (after.hasUnseenReloads ((origin.run moves).scene after)).toNat =
          (before.hasUnseenReloads (start.scene before) ||
            decide (0 < start.growth (reloadsAt index) waiting)).toNat) ∧
    ∀ first ∈ (origin.turns index moves).head?,
      first.evaluates = true ∧ first.handlesReload = false ∧
        first.step.pipeline.seenReloads = first.scene.reloads := by
  intro origin
  refine ⟨fun earlier signal later => evaluates_of_signal host config moves index, ?_, ?_⟩
  · rintro earlier waiting later rfl start resumed before after place ran untaken unasked last live
    exact signals_of_waiting host config place ran untaken unasked last live
  · intro first taken
    obtain ⟨rest, split⟩ := List.head?_eq_some_iff.mp taken
    obtain ⟨before, move, after, rfl, none_yet, turned, _⟩ := exists_move_of_turn (split.trans (List.nil_append _).symm)
    obtain ⟨_, place, _⟩ := turn?_eq_some_iff.mp turned
    have new := phase_of_no_turns host config before index place none_yet
    obtain ⟨unhandled, evaluates, seen, _⟩ := Pipeline.step_of_created new
    exact ⟨evaluates, unhandled, seen⟩

/-- The first pipeline of a provider starts. -/
def startingMoves : List Move :=
  [.operation (.register "ci" (fun _ _ _ => .never) none), .task (.pipeline 0)]

/-- A reload is requested twice. -/
def requestingMoves : List Move :=
  [.operation (.reload "ci"), .operation .reloadAll]

/-- The pipeline takes a turn after the two requests, then after one within the throttle, and after one when that has
just passed. -/
def reloadingMoves : List Move :=
  startingMoves ++ requestingMoves ++ [.task (.pipeline 0)] ++
    [.elapse 999, .operation (.reload "ci"), .task (.pipeline 0), .elapse 1, .operation (.reload "ci"),
      .task (.pipeline 0)]

/-- The two requests are handled as one. They and the last one have the trigger evaluated, the one between them does
not, and the first turn is none of theirs. -/
theorem reloads_throttled_reloading :
    (∃ first second third, (create {} {}).reloadSignals 0 reloadingMoves = [first, second, third] ∧
      first.evaluates = true ∧ second.evaluates = false ∧ third.evaluates = true) ∧
    (((create {} {}).run (startingMoves ++ requestingMoves)).reloadSignals 0 [.task (.pipeline 0)]).length = 1 ∧
    ∃ first ∈ ((create {} {}).turns 0 reloadingMoves).head?, first.evaluates = true ∧ first.handlesReload = false := by
  obtain ⟨greedy, _, starts⟩ := reloads_throttled {} {} reloadingMoves 0
  have merged := (reloads_throttled {} {} (startingMoves ++ requestingMoves ++ [.task (.pipeline 0)]) 0).2.1
  refine ⟨?_, ?_, ?_⟩
  · obtain ⟨first, second, third, split, now, soon, later⟩ :
        ∃ first second third, (create {} {}).reloadSignals 0 reloadingMoves = [first, second, third] ∧
          first.scene.now = 0 ∧ second.scene.now = 999 ∧ third.scene.now = 1000 :=
      ⟨_, _, _, rfl, rfl, rfl, rfl⟩
    have one : first.evaluates = true := (greedy [] first [second, third] split).mpr (by simp)
    have two : second.evaluates = false := by
      rw [Bool.eq_false_iff, ne_eq, greedy [first] second [third] split]
      simp [one, soon]
    refine ⟨first, second, third, split, one, two, (greedy [first, second] third [] split).mpr ?_⟩
    simp [one, two, now, later]
  · obtain ⟨before, after, place, ran, last, live, seen, unseen⟩ :
        ∃ before after, ((create {} {}).run startingMoves).pipelines[0]? = some before ∧ before.phase ≠ .created ∧
          ((create {} {}).run (startingMoves ++ requestingMoves ++ [.task (.pipeline 0)])).pipelines[0]? =
            some after ∧
          ((create {} {}).run (startingMoves ++ requestingMoves ++ [.task (.pipeline 0)])).isLive
            before.key.registration = true ∧
          before.hasUnseenReloads (((create {} {}).run startingMoves).scene before) = false ∧
          after.hasUnseenReloads
            (((create {} {}).run (startingMoves ++ requestingMoves ++ [.task (.pipeline 0)])).scene after) = false :=
      ⟨_, _, rfl, Pipeline.phase_step_ne_created _ _, rfl, rfl, rfl, rfl⟩
    have one := merged startingMoves requestingMoves _ rfl before after place ran (by decide) (by decide) last live
    rw [seen, unseen] at one
    exact one
  · obtain ⟨first, taken⟩ : ∃ first, ((create {} {}).turns 0 reloadingMoves).head? = some first := ⟨_, rfl⟩
    obtain ⟨evaluates, unhandled, _⟩ := starts first taken
    exact ⟨first, taken, evaluates, unhandled⟩

end Model

end ReviewChecks
