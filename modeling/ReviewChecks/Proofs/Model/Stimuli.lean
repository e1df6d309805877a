import ReviewChecks.Proofs.Model.Growth
import ReviewChecks.Proofs.Model.Pin
import ReviewChecks.Proofs.Pipeline.Currency
import ReviewChecks.Proofs.Pipeline.Polling

/-! # Pipelines do not trigger themselves

Every evaluation of a trigger goes back to something that has happened outside of the pipelines (`Model.stimuli`): a
change of the number, of the latest patchset, of the visibility or of the pin, a request to reload, or a tick. What a
pipeline owes (`Model.owedAt`) grows with these alone, although the pipelines of the selected context look at every
publication of the store; what pipelines write, and results that are pushed, leave it as it is.
-/

namespace ReviewChecks

/-- What a reader of a count has not seen grows by no more than the count. -/
theorem unseen_le {before after : Nat} (grown : before ≤ after) (seen : Nat) :
    (seen != after).toNat ≤ (seen != before).toNat + (after - before) := by
  have once := Bool.toNat_le (seen != after)
  rcases Nat.eq_or_lt_of_le grown with rfl | more
  · exact Nat.le_add_right ..
  · omega

namespace Scene

/-- A scene now and later, as far as it matters to what a pipeline owes. -/
structure Succeeds (later scene : Scene) : Prop where
  host : scene.host.Precedes later.host
  /-- A registration that stands has stood before, with no more requests to reload. -/
  reloads : later.live = true → scene.live = true ∧ scene.reloads ≤ later.reloads

/-- How much has changed between two scenes that a pipeline evaluates its trigger for. -/
def news (scene later : Scene) : Nat :=
  (later.host.changeNumber.changes - scene.host.changeNumber.changes) +
    (later.host.latestPatchset.changes - scene.host.latestPatchset.changes) +
    (later.host.visibility.changes - scene.host.visibility.changes) +
    (later.store.board.pin != scene.store.board.pin).toNat + (later.reloads - scene.reloads)

variable {scene later : Scene}

/-- The patchset of a context moves only with the latest patchset or with the pin. -/
theorem Succeeds.unseen_patchset_le (succeeds : later.Succeeds scene) (context : PatchsetContext) (seen : Nat)
    (patchset : Option UInt32) :
    (seen != later.host.latestPatchset.changes || patchset != later.patchset? context).toNat ≤
      (seen != scene.host.latestPatchset.changes || patchset != scene.patchset? context).toNat +
        (later.host.latestPatchset.changes - scene.host.latestPatchset.changes) +
        (later.store.board.pin != scene.store.board.pin).toNat := by
  have once := Bool.toNat_le (seen != later.host.latestPatchset.changes || patchset != later.patchset? context)
  rcases Nat.eq_or_lt_of_le succeeds.host.latestPatchset.changes with unchanged | more
  · by_cases pin : later.store.board.pin = scene.store.board.pin
    · have resolved : later.patchset? context = scene.patchset? context := by
        unfold patchset?
        rw [pin, succeeds.host.latestPatchset.same unchanged]
      rw [← unchanged, resolved]
      omega
    · rw [bne_iff_ne.mpr pin, Bool.toNat_true]
      omega
  · omega

/-- A registration that has ended is asked for nothing any more. -/
theorem Succeeds.unseen_reloads_le (succeeds : later.Succeeds scene) (seen : Nat) :
    (later.live && seen != later.reloads).toNat ≤
      (scene.live && seen != scene.reloads).toNat + (later.reloads - scene.reloads) := by
  cases live : later.live with
  | false => exact Nat.zero_le _
  | true =>
    obtain ⟨stood, fewer⟩ := succeeds.reloads live
    rw [stood, Bool.true_and, Bool.true_and]
    exact unseen_le fewer seen

end Scene

namespace Pipeline

variable {scene later : Scene}

theorem debt_le (succeeds : later.Succeeds scene) (pipeline : Pipeline) :
    pipeline.debt later ≤ pipeline.debt scene + scene.news later := by
  have number := unseen_le succeeds.host.changeNumber.changes pipeline.seenChangeNumber
  have patchset := succeeds.unseen_patchset_le pipeline.key.context pipeline.seenLatestPatchset pipeline.patchset
  have visibility := unseen_le succeeds.host.visibility.changes pipeline.seenVisibility
  have reloads := succeeds.unseen_reloads_le pipeline.seenReloads
  unfold debt Scene.news
  omega

/-- What a pipeline owes grows by no more than there is news. -/
theorem owed_le (succeeds : later.Succeeds scene) (pipeline : Pipeline) :
    pipeline.owed later ≤ pipeline.owed scene + scene.news later := by
  have running := pipeline.debt_le succeeds
  unfold owed
  split
  · exact Nat.le_add_right ..
  · exact running
  · exact Nat.zero_le _

end Pipeline

namespace Model

/-- The sum of what is counted of the moves of a run. -/
def total (count : Model → Move → Nat) : Model → List Move → Nat
  | _, [] => 0
  | model, move :: rest => count model move + total count (model.move move) rest

theorem total_append (count : Model → Move → Nat) (model : Model) (first second : List Move) :
    model.total count (first ++ second) = model.total count first + (model.run first).total count second := by
  induction first generalizing model with
  | nil => exact (Nat.zero_add _).symm
  | cons move rest ih =>
    simp only [List.cons_append, total, ih, Nat.add_assoc]
    rfl

/-- By how much a count grows in a run. -/
def growth (count : Model → Nat) : Model → List Move → Nat :=
  total fun model move => count (model.move move) - count model

/-- How often the pin changes in a run. -/
def pinChanges : Model → List Move → Nat :=
  total fun model move => ((model.move move).store.board.pin != model.store.board.pin).toNat

/-- How often the pipeline at a place evaluates its trigger in a run. -/
def evaluations (index : Nat) : Model → List Move → Nat :=
  total fun model move => (model.turn? index move).elim 0 (·.step.evaluations)

/-- How many ticks the pipeline at a place works on in a run. -/
def pollTicks (index : Nat) : Model → List Move → Nat :=
  total fun model move => (model.turn? index move).elim 0 fun turn => (turn.pipeline.polls turn.scene).toNat

/-- How many requests there have been to reload the registration that the pipeline at a place belongs to. -/
def reloadsAt (index : Nat) (model : Model) : Nat :=
  model.keys[index]?.elim 0 fun key => model.reloadsOf key.registration

/-- What happens in a run that the pipeline at a place evaluates its trigger for. -/
def stimuli (index : Nat) (model : Model) (moves : List Move) : Nat :=
  model.growth (·.host.changeNumber.changes) moves + model.growth (·.host.latestPatchset.changes) moves +
    model.growth (·.host.visibility.changes) moves + model.pinChanges moves +
    model.growth (reloadsAt index) moves + model.pollTicks index moves

theorem stimuli_cons (index : Nat) (model : Model) (move : Move) (rest : List Move) :
    model.stimuli index (move :: rest) = model.stimuli index [move] + (model.move move).stimuli index rest := by
  simp only [stimuli, growth, pinChanges, pollTicks, total]
  omega

/-- What the pipeline at a place owes: the first evaluation until it is there. -/
def owedAt (index : Nat) (model : Model) : Nat :=
  model.pipelines[index]?.elim 1 fun pipeline => pipeline.owed (model.scene pipeline)

theorem owedAt_of_place {index : Nat} {model : Model} {pipeline : Pipeline}
    (place : model.pipelines[index]? = some pipeline) :
    model.owedAt index = pipeline.owed (model.scene pipeline) := by
  rw [owedAt, place]
  rfl

theorem reloadsAt_of_place {index : Nat} {model : Model} {pipeline : Pipeline}
    (place : model.pipelines[index]? = some pipeline) :
    model.reloadsAt index = model.reloadsOf pipeline.key.registration := by
  rw [reloadsAt, keys, List.getElem?_map, place]
  rfl

variable {model : Model} {index : Nat} {move : Move}

/-- What happens in a move is news in the scene of the pipeline at the place, or a tick. -/
theorem stimuli_eq_news {before after : Pipeline} (place : model.pipelines[index]? = some before)
    (later : (model.move move).pipelines[index]? = some after) (key : after.key = before.key) :
    model.stimuli index [move] =
      (model.scene before).news ((model.move move).scene after) + model.pollTicks index [move] := by
  have requested := reloadsAt_of_place place
  have requests := reloadsAt_of_place later
  rw [key] at requests
  simp only [stimuli, growth, pinChanges, total, requested, requests, Scene.news, Model.scene, key, Nat.add_zero]

theorem succeeds_move (roster : model.Roster) (enrolment : model.Enrolment) {pipeline : Pipeline}
    (place : model.pipelines[index]? = some pipeline) (move : Move) :
    ((model.move move).scene pipeline).Succeeds (model.scene pipeline) where
  host := model.host_precedes_move move
  reloads live := by
    have made := roster.keys pipeline.key (List.mem_map_of_mem (List.mem_of_getElem? place))
    exact ⟨isLive_of_move made live, reloadsOf_le_move roster enrolment made live⟩

/-- What a move makes of a pipeline: it pays for the evaluations of its own turn, and other moves leave it as it is. -/
theorem exists_paid {before : Pipeline} (place : model.pipelines[index]? = some before) (move : Move) :
    ∃ after, (model.move move).pipelines[index]? = some after ∧ after.key = before.key ∧
      model.evaluations index [move] + after.owed (model.scene before) ≤
        before.owed (model.scene before) + model.pollTicks index [move] := by
  simp only [evaluations, pollTicks, total]
  cases taken : model.turn? index move with
  | some turn =>
    obtain ⟨_, at_index, scene⟩ := turn?_eq_some_iff.mp taken
    obtain rfl := Option.some.inj (place.symm.trans at_index)
    refine ⟨turn.step.pipeline, (getElem?_of_turn taken).1, turn.course.key_eq, ?_⟩
    rw [← scene]
    exact Pipeline.evaluations_add_owed_step turn.scene turn.pipeline
  | none =>
    obtain ⟨after, later, resembles⟩ := exists_resembling place taken
    rw [resembles.fields] at later
    exact ⟨_, later, rfl, Nat.le_of_eq (Nat.zero_add _)⟩

/-- A place where there is no pipeline yet goes on to owe the first evaluation. -/
theorem owedAt_move_of_absent (absent : model.pipelines[index]? = none) (move : Move) :
    model.turn? index move = none ∧ (model.move move).owedAt index = 1 := by
  have untaken : model.turn? index move = none := by
    refine Option.eq_none_iff_forall_ne_some.mpr fun turn taken => ?_
    cases absent.symm.trans (turn?_eq_some_iff.mp taken).2.1
  refine ⟨untaken, ?_⟩
  have persists := persists_of_no_turn untaken
  rw [absent] at persists
  unfold owedAt
  generalize (model.move move).pipelines[index]? = after at persists
  cases persists with
  | added new => rw [Option.elim_some, Pipeline.owed, new]
  | absent => rfl

/-- A move makes a pipeline evaluate its trigger no more often than is owed or than there is something to do so for, and
what remains is owed afterwards. -/
theorem evaluations_add_owedAt_move (roster : model.Roster) (enrolment : model.Enrolment) (index : Nat) (move : Move) :
    model.evaluations index [move] + (model.move move).owedAt index ≤
      model.owedAt index + model.stimuli index [move] := by
  cases place : model.pipelines[index]? with
  | none =>
    obtain ⟨untaken, first⟩ := owedAt_move_of_absent place move
    have unmade : model.owedAt index = 1 := by rw [owedAt, place]; rfl
    simp only [evaluations, total, untaken, unmade, first, Option.elim_none]
    omega
  | some before =>
    obtain ⟨after, later, key, paid⟩ := exists_paid place move
    have grows := after.owed_le (succeeds_move roster enrolment place move)
    have scene : (model.move move).scene after = (model.move move).scene before := by simp only [Model.scene, key]
    rw [owedAt_of_place place, owedAt_of_place later, stimuli_eq_news place later key, scene]
    omega

/-- So it does in a run. -/
theorem evaluations_add_owedAt_run (roster : model.Roster) (enrolment : model.Enrolment) (index : Nat)
    (moves : List Move) :
    model.evaluations index moves + (model.run moves).owedAt index ≤
      model.owedAt index + model.stimuli index moves := by
  induction moves generalizing model with
  | nil => exact Nat.le_of_eq (Nat.zero_add _)
  | cons move rest ih =>
    have first := evaluations_add_owedAt_move roster enrolment index move
    have later := ih (roster.move move) (enrolment.move roster move)
    have split : model.evaluations index (move :: rest) =
        model.evaluations index [move] + (model.move move).evaluations index rest :=
      total_append _ model [move] rest
    rw [stimuli_cons, split]
    change _ + ((model.move move).run rest).owedAt index ≤ _
    omega

/-- A pipeline that has looked at every signal owes nothing. -/
theorem owedAt_of_upToDate (host : Host) (config : ModelConfig) (moves : List Move) (index : Nat) {pipeline : Pipeline}
    (place : ((create host config).run moves).pipelines[index]? = some pipeline) (ran : pipeline.phase ≠ .created)
    (upToDate : pipeline.UpToDate (((create host config).run moves).scene pipeline)) :
    ((create host config).run moves).owedAt index = 0 := by
  have noted := ((keepsUp host config moves index pipeline place ran).current upToDate).1
  rw [owedAt_of_place place, Pipeline.owed]
  cases phase : pipeline.phase with
  | created => exact absurd phase ran
  | running =>
    simp only [Pipeline.debt, upToDate.changeNumber, upToDate.latestPatchset, upToDate.visibility, upToDate.reloads,
      ← noted, bne_self_eq_false, Bool.or_self, Bool.and_false, Bool.toNat_false]
  | ended => rfl

end Model

/-- A move that changes nothing but what is known of checks: a step of a pipeline, an answer to one, a pushed result, or
time that passes. -/
def Move.OnlyWrites : Move → Prop
  | .task (.pipeline _) | .operation (.updateResult _ _ _) | .answer _ _ | .elapse _ => True
  | _ => False

namespace Model

variable {model : Model} {index : Nat}

theorem registry_of_onlyWrites (model : Model) {move : Move} (writes : move.OnlyWrites) :
    (model.move move).registry = model.registry := by
  unfold Move.OnlyWrites at writes
  split at writes
  next index =>
    simp only [Model.move, runTask, stepPipeline]
    split <;> rfl
  next plugin run result =>
    simp only [Model.move, perform, updateResult]
    split <;> rfl
  next fetch outcome =>
    simp only [Model.move, answer]
    split <;> rfl
  next => rfl
  next => exact writes.elim

theorem stimuli_move_of_onlyWrites (model : Model) (index : Nat) {move : Move} (writes : move.OnlyWrites) :
    model.stimuli index [move] = model.pollTicks index [move] := by
  have registry := model.registry_of_onlyWrites writes
  have quiet : model.hostAfter move = model.host ∧ model.pinAfter move = model.store.board.pin ∧
      model.newKeys move = [] := by
    unfold Move.OnlyWrites at writes
    split at writes
    next => exact ⟨rfl, rfl, rfl⟩
    next => exact ⟨rfl, rfl, rfl⟩
    next => exact ⟨rfl, rfl, rfl⟩
    next => exact ⟨rfl, rfl, rfl⟩
    next => exact writes.elim
  have host : (model.move move).host = model.host := (model.moved move).host.trans quiet.1
  have pin : (model.move move).store.board.pin = model.store.board.pin := (model.pin_move move).trans quiet.2.1
  have reloads : (model.move move).reloadsAt index = model.reloadsAt index := by
    simp only [reloadsAt, keys_move, quiet.2.2, List.append_nil, reloadsOf, registry]
  simp only [stimuli, growth, pinChanges, total, host, pin, reloads, Nat.sub_self, bne_self_eq_false, Bool.toNat_false,
    Nat.zero_add]

/-- What is written to the store, by whom ever, is nothing that a pipeline evaluates its trigger for. -/
theorem stimuli_of_onlyWrites (model : Model) (index : Nat) {moves : List Move}
    (writes : ∀ move ∈ moves, move.OnlyWrites) : model.stimuli index moves = model.pollTicks index moves := by
  induction moves generalizing model with
  | nil => rfl
  | cons move rest ih =>
    have later := ih (model.move move) fun other member => writes other (List.mem_cons_of_mem _ member)
    rw [stimuli_cons, model.stimuli_move_of_onlyWrites index (writes move (List.mem_cons_self ..)), later]
    exact (total_append _ model [move] rest).symm

/-- The pipeline at a place has worked on some ticks and is on schedule, and without one there were none. -/
structure OnSchedule (model : Model) (index ticks : Nat) : Prop where
  absent : model.pipelines[index]? = none → ticks = 0
  present : ∀ pipeline, model.pipelines[index]? = some pipeline → pipeline.OnSchedule model.clock ticks

theorem OnSchedule.move {ticks : Nat} (onSchedule : model.OnSchedule index ticks) (move : Move) :
    (model.move move).OnSchedule index (ticks + model.pollTicks index [move]) := by
  have passes := model.clock_le_move move
  simp only [pollTicks, total, Nat.add_zero]
  cases taken : model.turn? index move with
  | some turn =>
    obtain ⟨_, at_index, scene⟩ := turn?_eq_some_iff.mp taken
    have later := (getElem?_of_turn taken).1
    refine ⟨fun nowhere => ?_, fun pipeline place => ?_⟩
    · cases later.symm.trans nowhere
    · obtain rfl := Option.some.inj (later.symm.trans place)
      have before : turn.pipeline.OnSchedule turn.scene.now ticks := by
        rw [scene]
        exact onSchedule.present turn.pipeline at_index
      refine before.step.elapse ?_
      rw [scene]
      exact passes
  | none =>
    have persists := persists_of_no_turn taken
    rw [Option.elim_none, Nat.add_zero]
    constructor
    · intro nowhere
      rw [nowhere] at persists
      generalize place : model.pipelines[index]? = before at persists
      cases persists with
      | absent => exact onSchedule.absent place
    · intro pipeline later
      rw [later] at persists
      generalize place : model.pipelines[index]? = before at persists
      cases persists with
      | @kept before _ resembles =>
        refine ((onSchedule.present before place).of_fields ?_ ?_ ?_).elapse passes
        · rw [resembles.fields]
        · rw [resembles.fields]
        · rw [resembles.fields]
      | added new =>
        rw [onSchedule.absent place]
        exact Pipeline.onSchedule_of_created _ new

theorem onSchedule_run (host : Host) (config : ModelConfig) (moves : List Move) (index : Nat) :
    ((create host config).run moves).OnSchedule index ((create host config).pollTicks index moves) := by
  induction moves using List.reverseRecOn with
  | nil => exact ⟨fun _ => rfl, fun _ place => nomatch place⟩
  | append_singleton moves move ih =>
    rw [run_concat, pollTicks, total_append]
    exact ih.move move

/-- How often a pipeline evaluates its trigger in a run, at most: once at first, and once for each thing that happens
outside of the pipelines. Of these the ticks come no more often than once in a polling period, and without polling not
at all. From any time on, only what it owes then and what happens later counts, of which writes by pipelines and pushed
results add nothing; and a pipeline that has looked at every signal owes nothing. -/
theorem evaluations_le_stimuli (host : Host) (config : ModelConfig) (moves : List Move) (index : Nat) :
    let origin := create host config
    origin.evaluations index moves ≤ 1 + origin.stimuli index moves ∧
      (∀ pipeline, (origin.run moves).pipelines[index]? = some pipeline →
        (pipeline.period = none → origin.pollTicks index moves = 0) ∧
        ∀ period, pipeline.period = some period → period * origin.pollTicks index moves ≤ (origin.run moves).clock) ∧
      ∀ earlier later, moves = earlier ++ later →
        let model := origin.run earlier
        model.evaluations index later ≤ model.owedAt index + model.stimuli index later ∧
        ((∀ move ∈ later, move.OnlyWrites) → model.stimuli index later = model.pollTicks index later) ∧
        ∀ pipeline, model.pipelines[index]? = some pipeline → pipeline.phase ≠ .created →
          pipeline.UpToDate (model.scene pipeline) → model.owedAt index = 0 := by
  intro origin
  have roster : origin.Roster := roster_create host config
  have enrolment : origin.Enrolment := enrolment_create host config
  refine ⟨?_, fun pipeline place => ?_, ?_⟩
  · have first : origin.owedAt index = 1 := rfl
    have paid := evaluations_add_owedAt_run roster enrolment index moves
    exact first ▸ Nat.le_trans (Nat.le_add_right ..) paid
  · have paced := (onSchedule_run host config moves index).present pipeline place
    exact ⟨fun unpolled => (paced.unpolled unpolled).1, fun period polled => (paced.polled period polled).1⟩
  · rintro earlier later rfl model
    have paid := evaluations_add_owedAt_run (roster.run earlier) (enrolment_run host config earlier) index later
    exact ⟨Nat.le_trans (Nat.le_add_right ..) paid, model.stimuli_of_onlyWrites index,
      fun pipeline => owedAt_of_upToDate host config earlier index⟩

/-- Both pipelines of a provider have asked for the checks of a change, the second one last. -/
def askedMoves : List Move :=
  [.host (.loadChange ((ChangeInfo.ofNumber 42 "tools").addRevision "first" 1 "")),
    .operation (.register "ci" (fun _ _ _ => .handedOut) none), .task (.pipeline 0), .task (.pipeline 1),
    .task (.pipeline 0), .task (.pipeline 1)]

/-- The first pipeline has its answer and writes it, and a result is pushed. The second pipeline looks at both. -/
def writingMoves : List Move :=
  let failed : RunInfo := { change := 42, patchset := 1, checkName := "build" }
  [.answer 0 (.response (.ok
      [{ info := failed, results := [{ externalId := some "r1", category := .error, summary := "broken" }] }] [] [])),
    .task (.pipeline 0), .task (.pipeline 1),
    .operation (.updateResult "ci" failed { externalId := some "r1", category := .success, summary := "fixed" }),
    .task (.pipeline 1), .elapse 1000, .task (.pipeline 1)]

/-- The store changes twice, and the second pipeline does not evaluate its trigger. -/
theorem evaluations_le_stimuli_writing :
    let model := (create {} {}).run askedMoves
    (model.run writingMoves).store.published = model.store.published + 2 ∧ model.evaluations 1 writingMoves = 0 := by
  intro model
  have computed : (model.pipelines[1]?.any fun pipeline => decide (
      pipeline.phase ≠ .created ∧ pipeline.UpToDate (model.scene pipeline))) = true := by
    decide
  obtain ⟨pipeline, place, facts⟩ := (Option.any_eq_true ..).mp computed
  obtain ⟨ran, upToDate⟩ := of_decide_eq_true facts
  obtain ⟨bound, onlyTicks, owesNothing⟩ :=
    (evaluations_le_stimuli {} {} (askedMoves ++ writingMoves) 1).2.2 askedMoves writingMoves rfl
  have ticks : model.pollTicks 1 writingMoves = 0 := by decide
  rw [owesNothing pipeline place ran upToDate, onlyTicks (by simp [writingMoves, Move.OnlyWrites]), ticks] at bound
  exact ⟨by decide, Nat.le_zero.mp bound⟩

end Model

end ReviewChecks
