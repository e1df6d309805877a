import ReviewChecks.Proofs.Model.Precedence
import ReviewChecks.Proofs.Pipeline.History

/-! # What a pipeline has taken note of

A pipeline remembers how far it has looked at the signals, and the patchset that it resolved when it last looked at a
patchset signal. `Pipeline.KeepsUp` relates this to the history: the last evaluation of the trigger saw at least as many
changes of the number and of the visibility as the pipeline counts, and what the pipeline remembers of the patchset was
right when it last looked. Once every signal has been looked at, it is therefore about what is current
(`Pipeline.KeepsUp.current`). A fetch that is still in flight then is the one of that evaluation, unless the host was
hidden.
-/

namespace ReviewChecks

/-- A request is for the change number and the patchset of the scene, which is visible. -/
theorem Scene.of_trigger_fetch {scene : Scene} {context : PatchsetContext} {request : FetchRequest}
    (comes : scene.trigger context = .fetch request) :
    scene.host.isVisible = true ∧ scene.host.changeNumber.value = some request.changeNumber ∧
      scene.patchset? context = some request.patchset := by
  unfold trigger at comes
  split at comes
  next visible =>
    split at comes
    next asked found =>
      obtain rfl := Trigger.fetch.inj comes
      simp only [request?, bind, Option.bind_eq_some_iff, pure, Option.some.injEq] at found
      obtain ⟨number, known, patchset, resolved, change, _, sha, _, rfl⟩ := found
      exact ⟨visible, known, resolved⟩
    next => cases comes
  next => cases comes

theorem Scene.trigger_ne_suppressed {scene : Scene} {context : PatchsetContext}
    (visible : scene.host.isVisible = true) : scene.trigger context ≠ .suppressed := by
  unfold trigger
  rw [if_pos visible]
  split <;> simp

/-- A turn that settles an outcome is not the first one. -/
theorem Turn.ran_of_settled {turn : Turn} {result : Nat × Outcome} (settled : turn.step.settled? = some result) :
    turn.pipeline.phase ≠ .created := by
  intro new
  obtain ⟨number, outcome⟩ := result
  obtain ⟨_, unevaluated, _⟩ := turn.course.of_settled settled
  have starts : turn.step = turn.pipeline.start turn.scene := by simp only [step, Pipeline.step, new]
  rw [starts, Pipeline.start, (Pipeline.fire_effects ..).1] at unevaluated
  cases unevaluated

/-- Everything that has been signalled was looked at. -/
structure Pipeline.UpToDate (pipeline : Pipeline) (scene : Scene) : Prop where
  changeNumber : pipeline.seenChangeNumber = scene.host.changeNumber.changes
  latestPatchset : pipeline.seenLatestPatchset = scene.host.latestPatchset.changes
  published : pipeline.key.context = .selected → pipeline.seenPublished = scene.store.published
  reloads : pipeline.seenReloads = scene.reloads
  visibility : pipeline.seenVisibility = scene.host.visibility.changes

instance (pipeline : Pipeline) (scene : Scene) : Decidable (pipeline.UpToDate scene) :=
  decidable_of_iff
    (pipeline.seenChangeNumber = scene.host.changeNumber.changes ∧
      pipeline.seenLatestPatchset = scene.host.latestPatchset.changes ∧
      (pipeline.key.context = .selected → pipeline.seenPublished = scene.store.published) ∧
      pipeline.seenReloads = scene.reloads ∧ pipeline.seenVisibility = scene.host.visibility.changes)
    ⟨fun ⟨number, patchset, published, reloads, visibility⟩ => ⟨number, patchset, published, reloads, visibility⟩,
      fun seen => ⟨seen.changeNumber, seen.latestPatchset, seen.published, seen.reloads, seen.visibility⟩⟩

/-- The last turn of a history that evaluated its trigger. -/
def LastEvaluation (turns : List Turn) (turn : Turn) : Prop :=
  ∃ earlier later, turns = earlier ++ turn :: later ∧ turn.step.evaluation?.isSome ∧
    ∀ other ∈ later, other.step.evaluation? = none

theorem LastEvaluation.concat_self {turns : List Turn} {turn : Turn} (evaluated : turn.step.evaluation?.isSome) :
    LastEvaluation (turns ++ [turn]) turn :=
  ⟨turns, [], rfl, evaluated, by simp⟩

theorem LastEvaluation.concat {turns : List Turn} {turn last : Turn} (evaluation : LastEvaluation turns turn)
    (unevaluated : last.step.evaluation? = none) : LastEvaluation (turns ++ [last]) turn := by
  obtain ⟨earlier, later, rfl, evaluated, quiet⟩ := evaluation
  refine ⟨earlier, later ++ [last], by simp, evaluated, fun other member => ?_⟩
  rcases List.mem_append.mp member with member | member
  · exact quiet other member
  · rw [List.mem_singleton.mp member]
    exact unevaluated

/-- If the last evaluation replaced what was in flight, then it is the turn that created the fetch in flight, as no
turn after that has replaced it. -/
theorem LastEvaluation.eq_creator {earlier between : List Turn} {creator turn : Turn}
    (evaluation : LastEvaluation (earlier ++ creator :: between) turn) (evaluated : creator.step.evaluation?.isSome)
    (kept : ∀ other ∈ between, ¬ other.Replaces) (replaces : turn.Replaces) : turn = creator := by
  obtain ⟨before, after, split, _, quiet⟩ := evaluation
  rcases List.append_eq_append_iff.mp split with ⟨middle, rfl, rest⟩ | ⟨middle, rfl, rest⟩
  · cases middle with
    | nil => exact (List.cons.inj rest).1.symm
    | cons head middle =>
      -- the last evaluation comes after the creator and would have replaced its fetch
      obtain ⟨rfl, rfl⟩ := List.cons.inj rest
      exact (kept turn (by simp) replaces).elim
  · cases middle with
    | nil => exact (List.cons.inj rest).1
    | cons head middle =>
      obtain ⟨rfl, rfl⟩ := List.cons.inj rest
      have silent := quiet creator (by simp)
      rw [silent] at evaluated
      cases evaluated

namespace Pipeline

variable {scene : Scene} {pipeline : Pipeline} {branch : Branch}

/-- What a pipeline remembers of the patchset is what a scene resolves, and it has seen no more than that scene. -/
structure Noted (pipeline : Pipeline) (scene : Scene) : Prop where
  patchset : pipeline.patchset = scene.patchset? pipeline.key.context
  latestPatchset : pipeline.seenLatestPatchset ≤ scene.host.latestPatchset.changes
  published : pipeline.seenPublished ≤ scene.store.published

/-- An evaluation of the trigger in a scene is about the same provider and context, it saw at least what the pipeline
counts of the number and the visibility, and the pipeline has remembered the same patchset since. -/
structure Covered (pipeline : Pipeline) (turn : Turn) : Prop where
  key : turn.pipeline.key = pipeline.key
  changeNumber : pipeline.seenChangeNumber ≤ turn.scene.host.changeNumber.changes
  visibility : pipeline.seenVisibility ≤ turn.scene.host.visibility.changes
  patchset : turn.step.pipeline.patchset = pipeline.patchset

/-- A pipeline that has run keeps up with the signals. -/
structure KeepsUp (model : Model) (turns : List Turn) (pipeline : Pipeline) : Prop where
  evaluated : ∃ turn, LastEvaluation turns turn ∧ turn.scene.Precedes model ∧ pipeline.Covered turn
  noted : ∃ scene : Scene, scene.Precedes model ∧ pipeline.Noted scene

theorem noted_started (scene : Scene) (pipeline : Pipeline) : (pipeline.started scene).Noted scene :=
  ⟨rfl, Nat.le_refl _, Nat.le_refl _⟩

/-- A look at a patchset signal takes note of the patchset anew, any other look leaves what was noted. -/
theorem noted_looked {noted : Scene} (known : pipeline.Noted noted)
    (latestPatchset : noted.host.latestPatchset.changes ≤ scene.host.latestPatchset.changes)
    (published : noted.store.published ≤ scene.store.published) (branch : Branch) :
    (pipeline.looked scene branch).Noted scene ∨ (pipeline.looked scene branch).Noted noted := by
  cases branch with
  | latestPatchset => exact .inl ⟨rfl, Nat.le_refl _, Nat.le_trans known.published published⟩
  | published => exact .inl ⟨rfl, Nat.le_trans known.latestPatchset latestPatchset, Nat.le_refl _⟩
  | cancelled | settled | changeNumber | reload | visibility | tick =>
    exact .inr ⟨known.patchset, known.latestPatchset, known.published⟩

/-- A look counts no more changes than there are. -/
theorem looked_seen_le (changeNumber : pipeline.seenChangeNumber ≤ scene.host.changeNumber.changes)
    (visibility : pipeline.seenVisibility ≤ scene.host.visibility.changes) (branch : Branch) :
    (pipeline.looked scene branch).seenChangeNumber ≤ scene.host.changeNumber.changes ∧
      (pipeline.looked scene branch).seenVisibility ≤ scene.host.visibility.changes := by
  cases branch with
  | changeNumber => exact ⟨Nat.le_refl _, visibility⟩
  | visibility => exact ⟨changeNumber, Nat.le_refl _⟩
  | cancelled | settled | latestPatchset | published | reload | tick => exact ⟨changeNumber, visibility⟩

/-- A look that does not evaluate the trigger is not about the number or the visibility and finds the patchset that was
remembered. -/
theorem looked_of_not_fires (quiet : pipeline.fires scene branch = false) :
    (pipeline.looked scene branch).seenChangeNumber = pipeline.seenChangeNumber ∧
      (pipeline.looked scene branch).seenVisibility = pipeline.seenVisibility ∧
      (pipeline.looked scene branch).patchset = pipeline.patchset := by
  cases branch with
  | cancelled | settled | reload => exact ⟨rfl, rfl, rfl⟩
  | latestPatchset | published =>
    have same : scene.patchset? pipeline.key.context = pipeline.patchset := by simpa [fires] using quiet
    exact ⟨rfl, rfl, same⟩
  | changeNumber | visibility | tick => cases quiet

namespace KeepsUp

variable {model : Model} {turns : List Turn}

/-- Only the fetch in flight and the phase do not matter. -/
theorem of_fields {base : Pipeline} (keepsUp : KeepsUp model turns base)
    (same : pipeline = { base with inFlight := pipeline.inFlight, phase := pipeline.phase }) :
    KeepsUp model turns pipeline := by
  obtain ⟨turn, evaluation, precedes, covered⟩ := keepsUp.evaluated
  obtain ⟨scene, before, noted⟩ := keepsUp.noted
  refine ⟨⟨turn, evaluation, precedes, ?_⟩, ⟨scene, before, ?_⟩⟩
  · rw [same]
    exact ⟨covered.key, covered.changeNumber, covered.visibility, covered.patchset⟩
  · rw [same]
    exact ⟨noted.patchset, noted.latestPatchset, noted.published⟩

theorem move (keepsUp : KeepsUp model turns pipeline) (move : Move) : KeepsUp (model.move move) turns pipeline := by
  obtain ⟨turn, evaluation, precedes, covered⟩ := keepsUp.evaluated
  obtain ⟨scene, before, noted⟩ := keepsUp.noted
  exact ⟨⟨turn, evaluation, precedes.move move, covered⟩, ⟨scene, before.move move, noted⟩⟩

/-- Once every signal has been looked at, what is remembered of the patchset is right, and the last evaluation was
about the current change number and the current visibility. -/
theorem current (keepsUp : KeepsUp model turns pipeline) (upToDate : pipeline.UpToDate (model.scene pipeline)) :
    pipeline.patchset = (model.scene pipeline).patchset? pipeline.key.context ∧
      ∃ turn, LastEvaluation turns turn ∧ turn.pipeline.key = pipeline.key ∧
        turn.scene.host.changeNumber = model.host.changeNumber ∧
        turn.scene.host.visibility = model.host.visibility ∧
        turn.step.pipeline.patchset = pipeline.patchset := by
  obtain ⟨turn, evaluation, precedes, covered⟩ := keepsUp.evaluated
  obtain ⟨scene, before, noted⟩ := keepsUp.noted
  refine ⟨?_, turn, evaluation, covered.key, ?_, ?_, covered.patchset⟩
  · have latestPatchset : scene.host.latestPatchset = model.host.latestPatchset :=
      before.host.latestPatchset.eq_of_seen noted.latestPatchset upToDate.latestPatchset
    rw [noted.patchset]
    cases context : pipeline.key.context with
    | latest => simp only [Scene.patchset?, latestPatchset, Model.scene]
    | selected =>
      have store : scene.store = model.store :=
        before.store.eq_of_seen noted.published (upToDate.published context)
      simp only [Scene.patchset?, latestPatchset, store, Model.scene]
  · exact precedes.host.changeNumber.eq_of_seen covered.changeNumber upToDate.changeNumber
  · exact precedes.host.visibility.eq_of_seen covered.visibility upToDate.visibility

/-- What a look makes of a pipeline that keeps up, in a turn that evaluates the trigger exactly when the look asks for
it. -/
private theorem looked {turn : Turn} (keepsUp : KeepsUp model turns turn.pipeline)
    (scene : turn.scene = model.scene turn.pipeline)
    (patchset : turn.step.pipeline.patchset = (turn.pipeline.looked turn.scene branch).patchset)
    (evaluates : turn.step.evaluation?.isSome = turn.pipeline.fires turn.scene branch) :
    KeepsUp model (turns ++ [turn]) (turn.pipeline.looked turn.scene branch) := by
  have present : turn.scene.Precedes model := scene ▸ model.scene_precedes turn.pipeline
  obtain ⟨last, evaluation, precedes, covered⟩ := keepsUp.evaluated
  obtain ⟨known, before, noted⟩ := keepsUp.noted
  have host : turn.scene.host = model.host := by rw [scene]; rfl
  have store : turn.scene.store = model.store := by rw [scene]; rfl
  constructor
  · cases fires : turn.pipeline.fires turn.scene branch with
    | true =>
      have changeNumber : turn.pipeline.seenChangeNumber ≤ turn.scene.host.changeNumber.changes :=
        Nat.le_trans covered.changeNumber (host ▸ precedes.host.changeNumber.changes)
      have visibility : turn.pipeline.seenVisibility ≤ turn.scene.host.visibility.changes :=
        Nat.le_trans covered.visibility (host ▸ precedes.host.visibility.changes)
      obtain ⟨seenNumber, seenVisibility⟩ := looked_seen_le changeNumber visibility branch
      refine ⟨turn, .concat_self (evaluates.trans fires), present, ?_⟩
      exact ⟨(looked_key ..).symm, seenNumber, seenVisibility, patchset⟩
    | false =>
      have unevaluated : turn.step.evaluation? = none := by
        rw [fires] at evaluates
        exact Option.not_isSome_iff_eq_none.mp (by simp [evaluates])
      obtain ⟨changeNumber, visibility, same⟩ := looked_of_not_fires fires
      refine ⟨last, evaluation.concat unevaluated, precedes, ?_⟩
      exact ⟨covered.key.trans (looked_key ..).symm, changeNumber ▸ covered.changeNumber,
        visibility ▸ covered.visibility, covered.patchset.trans same.symm⟩
  · have latestPatchset : known.host.latestPatchset.changes ≤ turn.scene.host.latestPatchset.changes :=
      host ▸ before.host.latestPatchset.changes
    have published : known.store.published ≤ turn.scene.store.published := store ▸ before.store.published
    rcases noted_looked noted latestPatchset published branch with anew | still
    · exact ⟨turn.scene, present, anew⟩
    · exact ⟨known, before, still⟩

/-- A turn of a pipeline that keeps up, or its first turn, leaves it keeping up. -/
theorem turn {turn : Turn} (keepsUp : turn.pipeline.phase ≠ .created → KeepsUp model turns turn.pipeline)
    (scene : turn.scene = model.scene turn.pipeline) : KeepsUp model (turns ++ [turn]) turn.step.pipeline := by
  obtain ⟨base, same, course⟩ := turn.course.exists_base
  have patchset : turn.step.pipeline.patchset = base.patchset := by rw [same]
  refine KeepsUp.of_fields ?_ same
  rcases course with ⟨rfl, ran, unevaluated⟩ | ⟨rfl, evaluated⟩ | ⟨branch, _, rfl, running, evaluates⟩
  · obtain ⟨last, evaluation, precedes, covered⟩ := (keepsUp ran).evaluated
    exact ⟨⟨last, evaluation.concat unevaluated, precedes, covered⟩, (keepsUp ran).noted⟩
  · have present : turn.scene.Precedes model := scene ▸ model.scene_precedes turn.pipeline
    refine ⟨⟨turn, .concat_self evaluated, present, ?_⟩, ⟨turn.scene, present, noted_started ..⟩⟩
    exact ⟨rfl, Nat.le_refl _, Nat.le_refl _, patchset⟩
  · exact looked (keepsUp (by simp [running])) scene patchset evaluates

end KeepsUp

end Pipeline

namespace Model

/-- In every run, every pipeline that has run keeps up. -/
theorem keepsUp (host : Host) (config : ModelConfig) (moves : List Move) (index : Nat) (pipeline : Pipeline)
    (at_index : ((create host config).run moves).pipelines[index]? = some pipeline)
    (ran : pipeline.phase ≠ .created) :
    Pipeline.KeepsUp ((create host config).run moves) ((create host config).turns index moves) pipeline := by
  induction moves using List.reverseRecOn generalizing pipeline with
  | nil => cases at_index
  | append_singleton moves move ih =>
    rw [run_concat] at at_index ⊢
    rw [turns_concat]
    cases comesFrom at_index with
    | turned turn taken =>
      obtain ⟨_, at_place, scene⟩ := turn?_eq_some_iff.mp taken
      rw [taken]
      exact (Pipeline.KeepsUp.turn (ih turn.pipeline at_place) scene).move move
    | kept before _ untaken place resembles =>
      have fields := resembles.fields
      have keepsUp := ih before place (by rw [fields] at ran; exact ran)
      rw [untaken, Option.toList_none, List.append_nil]
      refine (keepsUp.of_fields ?_).move move
      rw [fields]
    | added _ _ _ new => exact (ran new).elim

/-- A change with two patchsets is loaded, and the first pipeline of a provider asks for its checks. -/
def askingMoves : List Move :=
  [.host (.loadChange (((ChangeInfo.ofNumber 42 "tools").addRevision "first" 1 "").addRevision "second" 2 "")),
    .operation (.register "ci" (fun _ _ _ => .handedOut) none), .task (.pipeline 0), .task (.pipeline 0)]

/-- While the host is hidden it shows another change, of which the pipeline takes note; then the answer comes. -/
def hiddenMoves : List Move :=
  askingMoves ++
    [.host (.setVisibility .hidden), .host (.setChangeNumber (some 43)), .task (.pipeline 0), .task (.pipeline 0),
      .answer 0 (.response .empty)]

/-- The number and the patchset change. The pipeline looks at the number first, and so evaluates its trigger with the
new patchset; before it looks at the patchset, that changes back. -/
def returningMoves : List Move :=
  askingMoves ++
    [.host (.setChangeNumber (some 43)), .host (.setLatestPatchset (some 1)), .task (.pipeline 0),
      .host (.setLatestPatchset (some 2)), .task (.pipeline 0)]

/-- The turn that the pipeline at a place takes next. -/
theorem turns_concat_pipeline {model : Model} {moves : List Move} {index : Nat} {pipeline : Pipeline}
    (at_index : (model.run moves).pipelines[index]? = some pipeline) :
    model.turns index (moves ++ [.task (.pipeline index)]) =
      model.turns index moves ++ [⟨(model.run moves).scene pipeline, pipeline⟩] := by
  simp only [turns_concat, turn?, ↓reduceIte, at_index, Option.map_some, Option.toList_some]

/-- Whenever a pipeline has looked at every signal and the host can be seen, the last evaluation of its trigger was
about the current change number. It was about the current patchset exactly if it saw the patchset that the pipeline
remembers after it: an evaluation on another signal may run ahead of the patchset signal, and if the patchset changes
back before that is looked at, the pipeline finds nothing new. -/
theorem lastEvaluation_current (host : Host) (config : ModelConfig) (moves : List Move) (index : Nat)
    (pipeline : Pipeline) (at_index : ((create host config).run moves).pipelines[index]? = some pipeline)
    (ran : pipeline.phase ≠ .created)
    (upToDate : pipeline.UpToDate (((create host config).run moves).scene pipeline))
    (visible : ((create host config).run moves).host.isVisible = true) :
    ∃ turn patchset, LastEvaluation ((create host config).turns index moves) turn ∧
      turn.scene.host.isVisible = true ∧
      turn.step.evaluation? = some (((create host config).run moves).host.changeNumber.value, patchset) ∧
      (patchset = (((create host config).run moves).scene pipeline).patchset? pipeline.key.context ↔
        patchset = turn.step.pipeline.patchset) := by
  obtain ⟨known, turn, evaluation, _, number, visibility, remembered⟩ :=
    (keepsUp host config moves index pipeline at_index ran).current upToDate
  have evaluated : turn.step.evaluation?.isSome := by
    obtain ⟨_, _, _, evaluated, _⟩ := evaluation
    exact evaluated
  refine ⟨turn, turn.scene.patchset? turn.pipeline.key.context, evaluation, ?_, ?_, ?_⟩
  · rw [Host.isVisible, visibility]
    exact visible
  · rw [Turn.evaluation?_eq evaluated, number]
  · rw [remembered, known]

/-- A patchset that changes back in time leaves a pipeline with every signal looked at and a trigger that was evaluated
last with another patchset than the current one. -/
theorem lastEvaluation_returning :
    ∃ pipeline turn, ((create {} {}).run returningMoves).pipelines[0]? = some pipeline ∧
      pipeline.UpToDate (((create {} {}).run returningMoves).scene pipeline) ∧
      ((create {} {}).run returningMoves).host.isVisible = true ∧
      LastEvaluation ((create {} {}).turns 0 returningMoves) turn ∧
      turn.step.evaluation? = some (some 43, some 1) ∧
      (((create {} {}).run returningMoves).scene pipeline).patchset? pipeline.key.context = some 2 := by
  let first := askingMoves ++ [.host (.setChangeNumber (some 43)), .host (.setLatestPatchset (some 1))]
  let second := first ++ [.task (.pipeline 0)] ++ [.host (.setLatestPatchset (some 2))]
  have evaluating : (((create {} {}).run first).pipelines[0]?.any fun pipeline => decide (
      (pipeline.step (((create {} {}).run first).scene pipeline)).evaluation? = some (some 43, some 1))) = true := by
    decide
  have resting : (((create {} {}).run second).pipelines[0]?.any fun pipeline => decide (
      (pipeline.step (((create {} {}).run second).scene pipeline)).evaluation? = none)) = true := by
    decide
  have looked : (((create {} {}).run returningMoves).pipelines[0]?.any fun pipeline => decide (
      pipeline.UpToDate (((create {} {}).run returningMoves).scene pipeline) ∧
      (((create {} {}).run returningMoves).scene pipeline).patchset? pipeline.key.context = some 2)) = true := by
    decide
  obtain ⟨before, at_first, fires⟩ := (Option.any_eq_true ..).mp evaluating
  obtain ⟨after, at_second, rests⟩ := (Option.any_eq_true ..).mp resting
  obtain ⟨pipeline, at_end, facts⟩ := (Option.any_eq_true ..).mp looked
  obtain ⟨upToDate, current⟩ := of_decide_eq_true facts
  let turn : Turn := ⟨((create {} {}).run first).scene before, before⟩
  let last : Turn := ⟨((create {} {}).run second).scene after, after⟩
  have ahead : turn.step.evaluation? = some (some 43, some 1) := of_decide_eq_true fires
  have evaluation : LastEvaluation ((create {} {}).turns 0 first ++ [turn]) turn :=
    .concat_self (Option.isSome_iff_exists.mpr ⟨_, ahead⟩)
  have unevaluated : last.step.evaluation? = none := of_decide_eq_true rests
  have history : (create {} {}).turns 0 returningMoves = (create {} {}).turns 0 first ++ [turn] ++ [last] := by
    rw [← turns_concat_pipeline at_first]
    exact turns_concat_pipeline at_second
  refine ⟨pipeline, turn, at_end, upToDate, by decide, ?_, ahead, current⟩
  rw [history]
  exact evaluation.concat unevaluated

/-- A pipeline that has looked at every signal and then writes what came of a fetch writes it for the fetch of the last
trigger that was not suppressed. Unless the host is hidden by now, that fetch is about the current change number, and
about the current patchset provided that its trigger saw the patchset that the pipeline remembers after it. -/
theorem landed_current (host : Host) (config : ModelConfig) (moves : List Move) (index : Nat)
    (earlier later : List Turn) (turn : Turn)
    (split : (create host config).turns index moves = earlier ++ turn :: later)
    (number : Nat) (outcome : Outcome) (settled : turn.step.settled? = some (number, outcome))
    (upToDate : turn.pipeline.UpToDate turn.scene) :
    ∃ before creator between request, earlier = before ++ creator :: between ∧
      creator.created? = some number ∧ creator.trigger = .fetch request ∧
      (∀ other ∈ between, ¬ other.Replaces) ∧
      (turn.scene.host.isVisible = true →
        turn.scene.host.changeNumber.value = some request.changeNumber ∧
        (creator.scene.patchset? creator.pipeline.key.context = creator.step.pipeline.patchset →
          turn.scene.patchset? turn.pipeline.key.context = some request.patchset)) := by
  obtain ⟨first, move, _, _, rfl, taken, _⟩ := exists_move_of_turn split
  obtain ⟨_, at_index, scene⟩ := turn?_eq_some_iff.mp taken
  obtain ⟨⟨request, holds⟩, _⟩ := turn.course.of_settled settled
  obtain ⟨before, creator, between, history, created, comes, kept⟩ :=
    ((ledger host config first).holds index _ at_index number request).mp holds
  have unreplaced : ∀ other ∈ between, ¬ other.Replaces := fun other member replaces =>
    kept other member (.inl replaces)
  refine ⟨before, creator, between, request, history, created, comes, unreplaced, fun visible => ?_⟩
  rw [scene] at upToDate visible ⊢
  obtain ⟨known, last, evaluation, key, current, visibility, patchset⟩ :=
    (keepsUp host config first index _ at_index (turn.ran_of_settled settled)).current upToDate
  -- the last evaluation was not for a hidden host, since the host has not been hidden since
  have replaces : last.Replaces := by
    obtain ⟨_, _, _, evaluated, _⟩ := evaluation
    refine ⟨evaluated, fun suppressed => ?_⟩
    have seen : last.scene.host.isVisible = true := by
      rw [Host.isVisible, visibility]
      exact visible
    exact Scene.trigger_ne_suppressed seen suppressed
  rw [history] at evaluation
  obtain rfl := evaluation.eq_creator (Turn.replaces_of_created created).1 unreplaced replaces
  obtain ⟨_, askedNumber, askedPatchset⟩ := Scene.of_trigger_fetch comes
  refine ⟨?_, fun remembered => ?_⟩
  · rw [← askedNumber, current]
    rfl
  · rw [← known, ← patchset, ← remembered, askedPatchset]

/-- Whatever response a pipeline writes with every signal looked at is about what is current. -/
def LandsCurrent (model : Model) (moves : List Move) (index : Nat) : Prop :=
  ∀ earlier turn later, model.turns index moves = earlier ++ turn :: later →
    ∀ number response, turn.step.settled? = some (number, .response response) → turn.pipeline.UpToDate turn.scene →
      ∀ request, UnderWay earlier (number, request) →
        turn.scene.host.changeNumber.value = some request.changeNumber ∧
        turn.scene.patchset? turn.pipeline.key.context = some request.patchset

/-- A hidden host lets a pipeline write the response for a change that it has taken note of leaving. -/
theorem not_landsCurrent_hidden :
    ¬ LandsCurrent (create {} {}) (hiddenMoves ++ [.task (.pipeline 0)]) 0 := by
  intro lands
  let model := (create {} {}).run hiddenMoves
  have computed : (model.pipelines[0]?.any fun pipeline => decide (
      (pipeline.step (model.scene pipeline)).settled? = some (0, .response .empty) ∧
      pipeline.UpToDate (model.scene pipeline) ∧
      pipeline.inFlight.map (fun held => (held.number, held.request.changeNumber)) = some (0, 42))) = true := by
    decide
  obtain ⟨pipeline, at_index, facts⟩ := (Option.any_eq_true ..).mp computed
  obtain ⟨settled, upToDate, inFlight⟩ := of_decide_eq_true facts
  obtain ⟨held, holds, asked⟩ := Option.map_eq_some_iff.mp inFlight
  obtain ⟨number, change⟩ := Prod.mk.inj asked
  have underWay := ((ledger {} {} hiddenMoves).holds 0 pipeline at_index 0 held.request).mp
    (Pipeline.holds_iff.mpr ⟨held, holds, number, rfl⟩)
  have current := (lands _ _ [] (turns_concat_pipeline at_index) 0 _ settled upToDate held.request underWay).1
  rw [change] at current
  have moved_on : model.host.changeNumber.value ≠ some 42 := by decide
  exact moved_on current

/-- The pipeline takes note of another change at its first patchset and asks again; then the answer comes. -/
def movedMoves : List Move :=
  askingMoves ++
    [.host (.setChangeNumber (some 43)), .host (.setLatestPatchset (some 1)), .task (.pipeline 0), .task (.pipeline 0),
      .task (.pipeline 0), .answer 2 (.response .empty)]

/-- The answer is written for the change and the patchset that the host has moved to. -/
theorem landed_current_moved :
    ∃ (turn : Turn) (request : FetchRequest), turn.step.settled? = some (2, .response .empty) ∧
      turn.scene.host.changeNumber.value = some request.changeNumber ∧
      turn.scene.patchset? turn.pipeline.key.context = some request.patchset ∧
      (request.changeNumber, request.patchset) = (43, 1) := by
  let model := (create {} {}).run movedMoves
  have computed : (model.pipelines[0]?.any fun pipeline => decide (
      (pipeline.step (model.scene pipeline)).settled? = some (2, .response .empty) ∧
      pipeline.UpToDate (model.scene pipeline) ∧
      (model.scene pipeline).patchset? pipeline.key.context = some 1)) = true := by
    decide
  obtain ⟨pipeline, at_index, facts⟩ := (Option.any_eq_true ..).mp computed
  obtain ⟨settled, upToDate, newest⟩ := of_decide_eq_true facts
  let turn : Turn := ⟨model.scene pipeline, pipeline⟩
  obtain ⟨before, creator, between, request, history, created, _, _, current⟩ :=
    landed_current {} {} (movedMoves ++ [.task (.pipeline 0)]) 0 ((create {} {}).turns 0 movedMoves) [] turn
      (turns_concat_pipeline at_index) 2 (.response .empty) settled upToDate
  have remembered : ∀ other ∈ (create {} {}).turns 0 movedMoves, other.created? = some 2 →
      other.scene.patchset? other.pipeline.key.context = other.step.pipeline.patchset := by
    decide
  have visible : (model.scene pipeline).host.isVisible = true := by
    simp only [scene]
    decide
  have number : model.host.changeNumber.value = some 43 := by decide
  obtain ⟨change, patchset⟩ := current visible
  have patchset := patchset (remembered creator (history ▸ by simp) created)
  refine ⟨turn, request, settled, change, patchset, ?_⟩
  rw [← Option.some.inj (number.symm.trans change), ← Option.some.inj (newest.symm.trans patchset)]

end Model

end ReviewChecks
