import ReviewChecks.Model.Agenda
import ReviewChecks.Proofs.Model.Awaiting
import ReviewChecks.Proofs.Model.Navigation

/-! # Rounds

A round is something that happens to a model and the steps of its tasks that follow on it, until there is nothing left to
do for any of them. A step of a task with nothing to do changes nothing (`Model.runTask_of_not_isReady`). What it means
that a pipeline has nothing left to do is told in the terms of its signals (`Pipeline.isReady_eq_false_iff`). The other
tasks then have nothing left to do for as long as only tasks take steps, so that each such step is one of a pipeline or
changes nothing (`Model.Idle.move_task`).
-/

namespace ReviewChecks

/-- A pipeline that runs has nothing to do: its registration stands, its provider has been asked for what it wants, that
has not come, every signal has been looked at, and no tick is due. -/
structure Pipeline.Rests (scene : Scene) (pipeline : Pipeline) : Prop where
  running : pipeline.phase = .running
  live : scene.live = true
  asked : pipeline.hasNewFetch = false
  unended : pipeline.ended? scene = none
  upToDate : pipeline.UpToDate scene
  ahead : pipeline.nextTick.any (· ≤ scene.now) = false

namespace Pipeline

variable {scene : Scene} {pipeline : Pipeline}

/-- No branch is ready if the registration stands, the fetch in flight goes on, and there is nothing to look at. -/
theorem branch?_eq_none_iff :
    pipeline.branch? scene = none ↔ scene.live = true ∧ pipeline.ended? scene = none ∧ pipeline.UpToDate scene ∧
      pipeline.nextTick.any (· ≤ scene.now) = false := by
  constructor
  · intro idle
    unfold branch? at idle
    split at idle
    next live =>
      split at idle
      next => cases idle
      next unended =>
        split_ifs at idle with number latest published reload visibility tick
        exact ⟨live, unended, ⟨not_not.mp number, not_not.mp latest, fun selected => not_not.mp fun unseen =>
          published ⟨selected, unseen⟩, not_not.mp reload, not_not.mp visibility⟩, Bool.eq_false_iff.mpr tick⟩
    next => cases idle
  · rintro ⟨live, unended, upToDate, ahead⟩
    unfold branch?
    rw [if_pos live, unended]
    simp only [upToDate.changeNumber, upToDate.latestPatchset, upToDate.reloads, upToDate.visibility, ahead, ne_eq,
      not_true_eq_false, Bool.false_eq_true, ↓reduceIte, ite_eq_right_iff, reduceCtorEq, imp_false, not_and]
    exact fun selected unseen => unseen (upToDate.published selected)

theorem isReady_eq_false_iff (going : pipeline.phase ≠ .ended) :
    pipeline.isReady scene = false ↔ pipeline.Rests scene := by
  unfold isReady
  split
  next created => exact ⟨nofun, fun rests => nomatch created.symm.trans rests.running⟩
  next running =>
    rw [Bool.or_eq_false_iff, Option.isSome_eq_false_iff, Option.isNone_iff_eq_none, branch?_eq_none_iff]
    constructor
    · exact fun ⟨asked, live, unended, upToDate, ahead⟩ => ⟨running, live, asked, unended, upToDate, ahead⟩
    · exact fun rests => ⟨rests.asked, rests.live, rests.unended, rests.upToDate, rests.ahead⟩
  next ended => exact absurd ended going

/-- A step of a pipeline that has nothing to do comes to nothing. -/
theorem step_of_not_isReady (idle : pipeline.isReady scene = false) : pipeline.step scene = { pipeline } := by
  by_cases ended : pipeline.phase = .ended
  · rw [step, ended]
  have rests : pipeline.Rests scene := (isReady_eq_false_iff ended).mp idle
  have unready : pipeline.branch? scene = none :=
    branch?_eq_none_iff.mpr ⟨rests.live, rests.unended, rests.upToDate, rests.ahead⟩
  have asked : pipeline.request scene = (pipeline, []) := by
    have nothing := rests.asked
    unfold hasNewFetch at nothing
    unfold request
    split
    next fetch holds =>
      rw [holds, Option.any_some, decide_eq_false_iff_not] at nothing
      rw [if_neg nothing]
    next => rfl
  simp only [step, rests.running, iterate, rests.live, ↓reduceIte, asked, unready]

end Pipeline

namespace Model

/-- There is nothing to do for any task. -/
def AtRest (model : Model) : Prop :=
  ∀ task, model.isReady task = false

/-- There is nothing to do for any task besides those of the pipelines. -/
def Idle (model : Model) : Prop :=
  ∀ task, (∀ index, task ≠ .pipeline index) → model.isReady task = false

variable {model : Model}

/-- A step of a task that has nothing to do changes nothing. -/
theorem runTask_of_not_isReady {task : Task} (nothing : model.isReady task = false) : model.runTask task = model := by
  cases task with
  | pipeline index =>
    simp only [runTask, stepPipeline]
    split
    next => rfl
    next pipeline place =>
      have idle : pipeline.isReady (model.scene pipeline) = false := by simpa [isReady, place] using nothing
      obtain ⟨inside, held⟩ := List.getElem?_eq_some_iff.mp place
      have same : model.pipelines.set index pipeline = model.pipelines := by
        rw [← held]
        exact List.set_getElem_self inside
      simp only [Pipeline.step_of_not_isReady idle, same, Store.applyAll, List.foldl_nil, ite_self, Nat.add_zero,
        List.reverse_nil, List.nil_append]
  | followRouter => exact if_neg (Bool.eq_false_iff.mp nothing)
  | followLatest => exact if_neg (Bool.eq_false_iff.mp nothing)
  | stopFollowing =>
    simp only [runTask]
    split
    next => rfl
    next ended =>
      have stopped : model.followsPatchset = false := by simpa [isReady, ended] using nothing
      exact congrArg (fun followsPatchset => { model with followsPatchset }) stopped.symm
  | relayReload =>
    simp only [runTask, relayReload]
    split
    next follows =>
      have read : model.host.reloads ≤ model.reloadsRead := by simpa [isReady, follows] using nothing
      rw [Broadcast.receive?, if_pos read]
    next => rfl
  | stopRelaying =>
    simp only [runTask]
    split
    next => rfl
    next ended =>
      have stopped : model.followsReloads = false := by simpa [isReady, ended] using nothing
      exact congrArg (fun followsReloads => { model with followsReloads }) stopped.symm
  | action number =>
    refine stepAction_of_idle fun pending awaits => ?_
    have idle : (model.awaited? number).any (·.isReady model.clock) = false := nothing
    rwa [Option.mem_def.mp awaits] at idle

/-- Only the actors that a model has can have anything to do. -/
theorem atRest_iff : model.AtRest ↔ ∀ actor ∈ model.actors, model.steps actor = [] := by
  constructor
  · intro rest actor _
    exact List.filter_eq_nil_iff.mpr fun task _ => Bool.eq_false_iff.mp (rest task)
  · intro rest task
    refine Bool.eq_false_iff.mpr fun ready => ?_
    obtain ⟨actor, held, own⟩ := exists_actor_of_isReady ready
    exact List.filter_eq_nil_iff.mp (rest actor held) task own ready

instance : Decidable model.AtRest :=
  decidable_of_iff _ atRest_iff.symm

namespace AtRest

/-- A pipeline of a model at rest has ended, or has nothing to do. -/
theorem rests (rest : model.AtRest) {index : Nat} {pipeline : Pipeline}
    (place : model.pipelines[index]? = some pipeline) (going : pipeline.phase ≠ .ended) :
    pipeline.Rests (model.scene pipeline) := by
  have idle := rest (.pipeline index)
  simp only [isReady, place, Option.any_some] at idle
  exact (Pipeline.isReady_eq_false_iff going).mp idle

theorem idle (rest : model.AtRest) : model.Idle :=
  fun task _ => rest task

end AtRest

theorem atRest_create (host : Host) (config : ModelConfig) : (create host config).AtRest := by
  intro task
  cases task <;> simp [isReady, routerChanged, latestChanged, create, setPatchset]

namespace Idle

theorem stepPipeline (idle : model.Idle) (index : Nat) : (model.stepPipeline index).Idle := by
  unfold Model.stepPipeline
  split
  · exact idle
  · intro task other
    rw [← idle task other]
    cases task with
    | pipeline index => exact (other index rfl).elim
    | followRouter | followLatest | stopFollowing | relayReload | stopRelaying | action number => rfl

/-- A step of a task is one of a pipeline or changes nothing. -/
theorem move_task (idle : model.Idle) (task : Task) :
    (∃ index, task = .pipeline index) ∨ model.move (.task task) = model := by
  refine or_iff_not_imp_left.mpr fun other => runTask_of_not_isReady (idle task fun index same => ?_)
  exact other ⟨index, same⟩

theorem move (idle : model.Idle) (task : Task) : (model.move (.task task)).Idle := by
  rcases idle.move_task task with ⟨index, rfl⟩ | same
  · exact idle.stepPipeline index
  · rwa [same]

end Idle

end Model

/-- Something that happens to a model, and the steps of its tasks that follow on it. -/
structure Round where
  move : Move
  tasks : List Task

/-- The moves of a round. -/
def Round.moves (round : Round) : List Move :=
  round.move :: round.tasks.map .task

/-- The moves of some rounds. -/
def movesOf (rounds : List Round) : List Move :=
  rounds.flatMap Round.moves

theorem movesOf_append (first second : List Round) : movesOf (first ++ second) = movesOf first ++ movesOf second :=
  List.flatMap_append

namespace Model

/-- In each of some rounds the tasks handle everything. -/
def Handles : Model → List Round → Prop
  | _, [] => True
  | model, round :: rest => (model.run round.moves).AtRest ∧ Handles (model.run round.moves) rest

instance decidableHandles : ∀ (model : Model) (rounds : List Round), Decidable (model.Handles rounds)
  | _, [] => isTrue trivial
  | model, round :: rest =>
    have := decidableHandles (model.run round.moves) rest
    inferInstanceAs (Decidable ((model.run round.moves).AtRest ∧ (model.run round.moves).Handles rest))

/-- A model that is at rest before some rounds is so after them. -/
theorem Handles.atRest {model : Model} {rounds : List Round} (rest : model.AtRest) (handled : model.Handles rounds) :
    (model.run (movesOf rounds)).AtRest := by
  induction rounds generalizing model with
  | nil => exact rest
  | cons round rounds ih =>
    rw [movesOf, List.flatMap_cons, run_append]
    exact ih handled.1 handled.2

theorem Handles.of_append {model : Model} {first second : List Round} (handled : model.Handles (first ++ second)) :
    model.Handles first := by
  induction first generalizing model with
  | nil => trivial
  | cons round first ih => exact ⟨handled.1, ih handled.2⟩

end Model

/-- What a trigger comes to is read off the host and the patchset. -/
theorem Scene.trigger_congr {scene other : Scene} {context : PatchsetContext} (host : scene.host = other.host)
    (patchset : scene.patchset? context = other.patchset? context) : scene.trigger context = other.trigger context := by
  unfold trigger request?
  rw [host, patchset]

namespace Model

/-- What the steps of tasks leave as it is when the actors besides the pipelines have nothing to do. -/
structure Proceeds (earlier later : Model) : Prop where
  host : later.host = earlier.host
  clock : later.clock = earlier.clock
  registry : later.registry = earlier.registry
  pin : later.store.board.pin = earlier.store.board.pin

variable {model : Model} {index : Nat}

namespace Proceeds

theorem refl (model : Model) : Proceeds model model :=
  ⟨rfl, rfl, rfl, rfl⟩

variable {earlier later : Model}

theorem trans {latest : Model} (first : Proceeds earlier later) (second : Proceeds later latest) :
    Proceeds earlier latest :=
  ⟨second.host.trans first.host, second.clock.trans first.clock, second.registry.trans first.registry,
    second.pin.trans first.pin⟩

theorem live (proceeds : Proceeds earlier later) (pipeline : Pipeline) :
    (later.scene pipeline).live = (earlier.scene pipeline).live := by
  simp only [scene, isLive, proceeds.registry]

theorem patchset? (proceeds : Proceeds earlier later) (pipeline : Pipeline) (context : PatchsetContext) :
    (later.scene pipeline).patchset? context = (earlier.scene pipeline).patchset? context := by
  simp only [Scene.patchset?, scene, proceeds.host, proceeds.pin]

end Proceeds

namespace Idle

theorem proceeds (idle : model.Idle) (task : Task) : Proceeds model (model.move (.task task)) := by
  rcases idle.move_task task with ⟨index, rfl⟩ | same
  · have kept : (model.stepPipeline index).host = model.host ∧ (model.stepPipeline index).clock = model.clock ∧
        (model.stepPipeline index).registry = model.registry := by
      unfold Model.stepPipeline
      split <;> exact ⟨rfl, rfl, rfl⟩
    exact ⟨kept.1, kept.2.1, kept.2.2, model.pin_move _⟩
  · rw [same]
    exact .refl model

theorem proceeds_run (idle : model.Idle) (tasks : List Task) : Proceeds model (model.run (tasks.map .task)) := by
  induction tasks generalizing model with
  | nil => exact .refl model
  | cons task rest ih => exact (idle.proceeds task).trans (ih (idle.move task))

/-- Without a turn of its own a pipeline stays as it is. -/
theorem getElem?_of_no_turn (idle : model.Idle) {pipeline : Pipeline}
    (place : model.pipelines[index]? = some pipeline) {task : Task} (untaken : model.turn? index (.task task) = none) :
    (model.move (.task task)).pipelines[index]? = some pipeline := by
  rcases idle.move_task task with ⟨taken, rfl⟩ | same
  · exact getElem?_stepPipeline place untaken
  · rwa [same]

/-- Nothing happens that a pipeline evaluates its trigger for, unless a tick is due. -/
theorem stimuli_task (idle : model.Idle) (index : Nat) (task : Task) :
    model.stimuli index [.task task] = model.pollTicks index [.task task] := by
  have proceeds := idle.proceeds task
  have reloads : (model.move (.task task)).reloadsAt index = model.reloadsAt index := by
    simp only [reloadsAt, keys_move, newKeys, List.append_nil, reloadsOf, proceeds.registry]
  simp only [stimuli, growth, pinChanges, total, proceeds.host, proceeds.pin, reloads, Nat.sub_self,
    bne_self_eq_false, Bool.toNat_false, Nat.zero_add]

/-- A pipeline that has run and whose next tick is not due works on none. -/
theorem stimuli_tasks (idle : model.Idle) {pipeline : Pipeline}
    (place : model.pipelines[index]? = some pipeline) (ran : pipeline.phase ≠ .created)
    (ahead : pipeline.nextTick.any (· ≤ model.clock) = false) (tasks : List Task) :
    model.stimuli index (tasks.map .task) = 0 := by
  induction tasks generalizing model pipeline with
  | nil => rfl
  | cons task rest ih =>
    have clock := (idle.proceeds task).clock
    rw [List.map_cons, stimuli_cons, idle.stimuli_task]
    simp only [pollTicks, total]
    cases taken : model.turn? index (.task task) with
    | some turn =>
      obtain ⟨_, at_index, scene⟩ := turn?_eq_some_iff.mp taken
      obtain rfl := Option.some.inj (place.symm.trans at_index)
      have due : turn.pipeline.nextTick.any (· ≤ turn.scene.now) = false := by rwa [scene]
      obtain ⟨unpolled, next, still⟩ := Pipeline.nextTick_step ran due
      have aheadAfter : turn.step.pipeline.nextTick.any (· ≤ (model.move (.task task)).clock) = false := by
        rw [clock, Turn.step, next]
        exact ahead
      rw [ih (idle.move task) (getElem?_of_turn taken).1 still aheadAfter, Option.elim_some, unpolled]
      rfl
    | none =>
      rw [ih (idle.move task) (idle.getElem?_of_no_turn place taken) ran (clock ▸ ahead)]
      rfl

end Idle

end Model

theorem PipelineStep.evaluations_pos {step : PipelineStep} (evaluated : step.evaluation?.isSome) :
    0 < step.evaluations := by
  obtain ⟨values, evaluation⟩ := Option.isSome_iff_exists.mp evaluated
  obtain ⟨effect, member, comes⟩ := List.exists_of_findSome?_eq_some evaluation
  exact List.countP_pos_iff.mpr ⟨effect, member, Option.isSome_iff_exists.mpr ⟨values, comes⟩⟩

namespace Turn

/-- How often some turns evaluate their triggers. -/
def evaluationsIn (turns : List Turn) : Nat :=
  (turns.flatMap (·.step.effects)).countP fun effect => effect.evaluation?.isSome

theorem evaluationsIn_append (first second : List Turn) :
    evaluationsIn (first ++ second) = evaluationsIn first + evaluationsIn second := by
  rw [evaluationsIn, List.flatMap_append, List.countP_append]
  rfl

theorem evaluationsIn_cons (turn : Turn) (rest : List Turn) :
    evaluationsIn (turn :: rest) = turn.step.evaluations + evaluationsIn rest := by
  rw [evaluationsIn, List.flatMap_cons, List.countP_append]
  rfl

/-- If there is one evaluation in some turns, then all turns but one have none. -/
theorem exists_single_evaluation {turns : List Turn} {turn : Turn} (member : turn ∈ turns)
    (evaluated : turn.step.evaluation?.isSome) (once : evaluationsIn turns ≤ 1) :
    evaluationsIn turns = 1 ∧
      ∃ before after, turns = before ++ turn :: after ∧ ∀ other ∈ before ++ after, other.step.evaluation? = none := by
  obtain ⟨before, after, rfl⟩ := List.append_of_mem member
  have counts := PipelineStep.evaluations_pos evaluated
  rw [evaluationsIn_append, evaluationsIn_cons] at once ⊢
  refine ⟨by omega, before, after, rfl, fun other held => ?_⟩
  by_contra evaluates
  have more := PipelineStep.evaluations_pos (Option.isSome_iff_ne_none.mpr evaluates)
  obtain ⟨front, back, others⟩ := List.append_of_mem held
  have within : evaluationsIn (before ++ after) =
      evaluationsIn front + (other.step.evaluations + evaluationsIn back) := by
    rw [others, evaluationsIn_append, evaluationsIn_cons]
  rw [evaluationsIn_append] at within
  omega

end Turn

/-- The evaluations of a run are those of its turns. -/
theorem Model.evaluations_eq (index : Nat) (model : Model) (moves : List Move) :
    model.evaluations index moves = Turn.evaluationsIn (model.turns index moves) := by
  induction moves generalizing model with
  | nil => rfl
  | cons move rest ih =>
    have split : model.evaluations index (move :: rest) =
        model.evaluations index [move] + (model.move move).evaluations index rest :=
      total_append _ model [move] rest
    rw [split, ih, turns, Turn.evaluationsIn_append]
    congr 1
    simp only [evaluations, total]
    cases model.turn? index move with
    | none => rfl
    | some turn => exact (Turn.evaluationsIn_cons turn []).symm

end ReviewChecks
