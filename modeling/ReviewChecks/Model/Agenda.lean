import ReviewChecks.Model.Move

/-!
# Agendas

The parts of a model that act by themselves are its actors: each pipeline, the task that follows patchsets, the task
that relays the host's requests to reload, and each awaited action. An agenda says whose turn it is. An actor joins the
end of a queue as soon as there is something for it to do, or when one of its alarms goes off. The one at the front
takes steps until it has nothing left to do; then it leaves the queue, and its alarms are set.

Time only moves when nobody is in the queue (`Agenda.settle`). It either stops at each alarm on the way
(`Agenda.advance`) or passes at once (`Agenda.jump`).

A task that waits for several things at once takes any of those that are there (`Agenda.next?`).

The order of turns is one of those that the model allows anyway: what the actors do until nobody is in the queue is a
run of the model's tasks (`Agenda.exists_model_settle`). No actor stands in the queue twice (`Agenda.nodup_change`).
-/

namespace ReviewChecks

/-- A part of a model that acts by itself. -/
inductive Actor where
  /-- The pipeline at a place. -/
  | pipeline (index : Nat)
  /-- The task that follows the router's and the latest patchset. -/
  | follower
  /-- The task that passes the host's requests to reload on. -/
  | relay
  /-- The awaited action of a number. -/
  | action (number : Nat)
deriving DecidableEq, Repr

def Actor.tasks : Actor → List Task
  | .pipeline index => [.pipeline index]
  | .follower => [.followLatest, .stopFollowing, .followRouter]
  | .relay => [.stopRelaying, .relayReload]
  | .action number => [.action number]

namespace Model

def actors (model : Model) : List Actor :=
  (List.range model.pipelines.length).map .pipeline ++ [.follower, .relay] ++
    model.pending.map fun pending => .action pending.number

/-- The steps that an actor can take now. -/
def steps (model : Model) (actor : Actor) : List Task :=
  actor.tasks.filter model.isReady

/-- Whatever there is to do is a step of one of the model's actors. -/
theorem exists_actor_of_isReady {model : Model} {task : Task} (ready : model.isReady task = true) :
    ∃ actor ∈ model.actors, task ∈ actor.tasks := by
  cases task with
  | pipeline index =>
    obtain ⟨pipeline, place, _⟩ := (Option.any_eq_true ..).mp ready
    obtain ⟨inside, _⟩ := List.getElem?_eq_some_iff.mp place
    exact ⟨.pipeline index, by simp [actors, inside], by simp [Actor.tasks]⟩
  | followRouter | followLatest | stopFollowing => exact ⟨.follower, by simp [actors], by simp [Actor.tasks]⟩
  | relayReload | stopRelaying => exact ⟨.relay, by simp [actors], by simp [Actor.tasks]⟩
  | action number =>
    obtain ⟨pending, found, _⟩ := (Option.any_eq_true ..).mp ready
    have numbered : pending.number = number := by simpa using List.find?_some found
    exact ⟨.action number, by simpa [actors] using ⟨pending, List.mem_of_find?_eq_some found, numbered⟩,
      by simp [Actor.tasks]⟩

def timers (model : Model) : Actor → List Timer
  | .pipeline index => (model.pipelines[index]?.map Pipeline.timers).getD []
  | .follower | .relay => []
  | .action number => ((model.pending.find? (·.number = number)).map PendingAction.timers).getD []

end Model

/-- A point in time at which an actor is woken. -/
structure Alarm where
  owner : Actor
  timer : Timer
deriving DecidableEq, Repr

/-- A model with the order in which its actors take turns. -/
structure Agenda where
  model : Model
  /-- The actors that wait for their turn, none of them twice. -/
  queue : List Actor := []
  /-- The alarms in the order in which they were set. -/
  alarms : List Alarm := []
  /-- Which one is taken of several steps that an actor could take. It is drawn at random: any of them may be. -/
  draw : Model → Nat := fun _ => 0

namespace Agenda

/-- Puts an actor at the end of the queue, unless it is in it. -/
def wake (agenda : Agenda) (actor : Actor) : Agenda :=
  if actor ∈ agenda.queue then agenda else { agenda with queue := agenda.queue ++ [actor] }

@[simp] theorem model_wake (agenda : Agenda) (actor : Actor) : (agenda.wake actor).model = agenda.model := by
  unfold wake
  split <;> rfl

theorem nodup_wake {agenda : Agenda} (nodup : agenda.queue.Nodup) (actor : Actor) :
    (agenda.wake actor).queue.Nodup := by
  unfold wake
  split
  · exact nodup
  · next absent => simpa [List.nodup_append, nodup] using fun other held => ne_of_mem_of_not_mem held absent

/-- Wakes some actors, one after another. -/
def wakeAll (agenda : Agenda) (actors : List Actor) : Agenda :=
  actors.foldl wake agenda

@[simp] theorem model_wakeAll (agenda : Agenda) (actors : List Actor) :
    (agenda.wakeAll actors).model = agenda.model := by
  induction actors generalizing agenda with
  | nil => rfl
  | cons actor rest ih => exact (ih (agenda.wake actor)).trans (model_wake agenda actor)

theorem nodup_wakeAll {agenda : Agenda} (nodup : agenda.queue.Nodup) (actors : List Actor) :
    (agenda.wakeAll actors).queue.Nodup := by
  induction actors generalizing agenda with
  | nil => exact nodup
  | cons actor rest ih => exact ih (nodup_wake nodup actor)

/-- Wakes every actor, whether there is something for it to do or not. -/
def rouse (agenda : Agenda) : Agenda :=
  agenda.wakeAll agenda.model.actors

/-- Whether an actor should have a turn: there is something for it to do, or its alarms are not set yet. -/
def wants (agenda : Agenda) (actor : Actor) : Bool :=
  agenda.model.steps actor ≠ [] ||
    (agenda.model.timers actor).any fun timer => ⟨actor, timer⟩ ∉ agenda.alarms

/-- The agenda after its model has changed in one go. -/
def change (agenda : Agenda) (model : Model) : Agenda :=
  let changed := { agenda with model }
  changed.wakeAll (model.actors.filter changed.wants)

@[simp] theorem model_change (agenda : Agenda) (model : Model) : (agenda.change model).model = model :=
  model_wakeAll { agenda with model } _

theorem nodup_change {agenda : Agenda} (nodup : agenda.queue.Nodup) (model : Model) :
    (agenda.change model).queue.Nodup :=
  @nodup_wakeAll { agenda with model } nodup _

/-- Sets the alarms of an actor: those that it still waits for stay, and new ones come last. -/
def setAlarms (agenda : Agenda) (actor : Actor) : Agenda :=
  let timers := agenda.model.timers actor
  let kept := agenda.alarms.filter fun alarm => alarm.owner ≠ actor ∨ alarm.timer ∈ timers
  { agenda with alarms := kept ++ (timers.map (Alarm.mk actor)).filter (· ∉ kept) }

/-- The step that an actor takes next, if there is something for it to do. -/
def next? (agenda : Agenda) (actor : Actor) : Option Task :=
  let steps := agenda.model.steps actor
  steps[agenda.draw agenda.model % steps.length]?

/-- Of the steps that an actor can take now any may be drawn, and nothing else. -/
theorem mem_steps_iff (agenda : Agenda) {actor : Actor} {task : Task} :
    task ∈ agenda.model.steps actor ↔ ∃ draw, next? { agenda with draw } actor = some task := by
  constructor
  · intro member
    obtain ⟨place, inside, taken⟩ := List.mem_iff_getElem.mp member
    refine ⟨fun _ => place, ?_⟩
    simp only [next?, Nat.mod_eq_of_lt inside, List.getElem?_eq_getElem inside, taken]
  · rintro ⟨_, taken⟩
    exact List.mem_of_getElem? taken

/-- Lets actors take their turns, with at most as many steps as there is fuel, until the queue is empty. -/
def settleWith : Nat → Agenda → Agenda
  | 0, agenda => agenda
  | fuel + 1, agenda =>
    match agenda.queue with
    | [] => agenda
    | actor :: rest =>
      match agenda.next? actor with
      | some task => settleWith fuel (agenda.change (agenda.model.runTask task))
      | none => settleWith fuel ({ agenda with queue := rest }.setAlarms actor)

theorem exists_model_settleWith (fuel : Nat) (agenda : Agenda) :
    ∃ tasks : List Task, (settleWith fuel agenda).model = agenda.model.run (tasks.map .task) := by
  induction fuel generalizing agenda with
  | zero => exact ⟨[], rfl⟩
  | succ fuel ih =>
    rw [settleWith]
    split
    · exact ⟨[], rfl⟩
    · next actor rest _ =>
      split
      · next task _ =>
        obtain ⟨tasks, run⟩ := ih (agenda.change (agenda.model.runTask task))
        exact ⟨task :: tasks, run.trans (congrArg (Model.run · _) (model_change ..))⟩
      · exact ih ({ agenda with queue := rest }.setAlarms actor)

/-- A number of steps within which the actors come to rest. A pipeline fires at most once for its start, each of its
signals and a poll, and once for each reload that is relayed or asked for by an action; each fire leads to at most two
publications, of which each makes every pipeline look up once more. -/
def settleBound (agenda : Agenda) : Nat :=
  let model := agenda.model
  let pipelines := model.pipelines.length + 1
  let reloads := model.pending.length + (model.host.reloads - model.reloadsRead)
  16 * pipelines * pipelines * (reloads + 16) + agenda.queue.length

/-- Lets actors take their turns until nobody is in the queue. -/
def settle (agenda : Agenda) : Agenda :=
  settleWith agenda.settleBound agenda

/-- What the actors do until nobody is in the queue is a run of the model's tasks. -/
theorem exists_model_settle (agenda : Agenda) :
    ∃ tasks : List Task, agenda.settle.model = agenda.model.run (tasks.map .task) :=
  exists_model_settleWith _ _

/-- Moves the clock to a point in time. The alarms that go off wake their owners, the earliest alarm first; of those at
the same time the one that was set first. -/
def moveTo (agenda : Agenda) (time : Nat) : Agenda :=
  let (due, later) := agenda.alarms.partition (·.timer.time ≤ time)
  let ringing := due.mergeSort fun left right => left.timer.time ≤ right.timer.time
  let woken := wakeAll { agenda with alarms := later } (ringing.map (·.owner))
  (woken.change { agenda.model with clock := time }).settle

/-- Lets time pass up to a point, starting from the given one, with a stop at every alarm on the way. -/
def advanceFrom (now target : Nat) (agenda : Agenda) : Agenda :=
  match ((agenda.alarms.map (·.timer.time)).filter (now < ·)).min? with
  | some stop =>
    if now < stop ∧ stop < target then advanceFrom stop target (agenda.moveTo stop) else agenda.moveTo target
  | none => agenda.moveTo target
termination_by target - now

def advance (agenda : Agenda) (duration : Nat) : Agenda :=
  advanceFrom agenda.model.clock (agenda.model.clock + duration) agenda

/-- Lets some milliseconds pass at once: what became due on the way happens at the end, each alarm once. -/
def jump (agenda : Agenda) (duration : Nat) : Agenda :=
  agenda.moveTo (agenda.model.clock + duration)

end Agenda

end ReviewChecks
