import ReviewChecks.Model.Task

/-!
# Moves

Everything that changes a model is a move: an operation, what the host does, the answer to a fetch, a step of a task,
or time that passes. A run of a model is any list of moves.
-/

namespace ReviewChecks

inductive Move where
  | operation (operation : Operation)
  | host (action : HostAction)
  | answer (fetch : Nat) (outcome : Outcome)
  | task (task : Task)
  /-- Some milliseconds pass. -/
  | elapse (duration : Nat)

namespace Model

def move (model : Model) : Move → Model
  | .operation operation => (model.perform operation).2
  | .host action => model.hostActs action
  | .answer fetch outcome => (model.answer fetch outcome).2
  | .task task => model.runTask task
  | .elapse duration => { model with clock := model.clock + duration }

def run (model : Model) (moves : List Move) : Model :=
  moves.foldl move model

end Model

end ReviewChecks
