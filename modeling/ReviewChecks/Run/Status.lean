import ReviewChecks.Error

/-!
# Status, category and icon

The stage that a run has reached, how severe one of its findings is, and the icon that sums up an attempt. Each is
written by name.
-/

namespace ReviewChecks

inductive RunStatus where
  | runnable
  | scheduled
  | running
  | completed
deriving DecidableEq, Repr

namespace RunStatus

def name : RunStatus → String
  | .runnable => "RUNNABLE"
  | .scheduled => "SCHEDULED"
  | .running => "RUNNING"
  | .completed => "COMPLETED"

def ofName? : String → Option RunStatus
  | "RUNNABLE" => some .runnable
  | "SCHEDULED" => some .scheduled
  | "RUNNING" => some .running
  | "COMPLETED" => some .completed
  | _ => none

def parse (name : String) : Except UnknownName RunStatus :=
  match ofName? name with
  | some status => .ok status
  | none => .error ⟨.runStatus, name⟩

theorem ofName?_name (status : RunStatus) : ofName? status.name = some status := by
  cases status <;> rfl

end RunStatus

inductive Category where
  | success
  | info
  | warning
  | error
deriving DecidableEq, Repr

namespace Category

/-- All categories, from the least severe to the most severe. -/
def all : List Category :=
  [.success, .info, .warning, .error]

/-- The place of a category in the order of severity. -/
def severity : Category → Nat
  | .success => 0
  | .info => 1
  | .warning => 2
  | .error => 3

/-- The more severe of two categories. -/
def worse (left right : Category) : Category :=
  if left.severity < right.severity then right else left

/-- The most severe category of a list, none when the list is empty. -/
def worst? : List Category → Option Category
  | [] => none
  | category :: rest => some (rest.foldl worse category)

def name : Category → String
  | .success => "SUCCESS"
  | .info => "INFO"
  | .warning => "WARNING"
  | .error => "ERROR"

def ofName? : String → Option Category
  | "SUCCESS" => some .success
  | "INFO" => some .info
  | "WARNING" => some .warning
  | "ERROR" => some .error
  | _ => none

def parse (name : String) : Except UnknownName Category :=
  match ofName? name with
  | some category => .ok category
  | none => .error ⟨.category, name⟩

theorem ofName?_name (category : Category) : ofName? category.name = some category := by
  cases category <;> rfl

end Category

/-- The icon that sums up one attempt of a check. -/
inductive StatusIcon where
  | error
  | warning
  | info
  | success
  | runnable
  | scheduled
  | running
deriving DecidableEq, Repr

namespace StatusIcon

/-- The icon of a finished attempt whose worst finding has the given category. -/
def ofCategory : Category → StatusIcon
  | .error => .error
  | .warning => .warning
  | .info => .info
  | .success => .success

/-- The icon of an attempt of the given status and findings: the status itself until the run is completed, then the
worst finding, and success when there is none. -/
def ofOutcome (status : RunStatus) (findings : List Category) : StatusIcon :=
  match status with
  | .runnable => .runnable
  | .scheduled => .scheduled
  | .running => .running
  | .completed => ((Category.worst? findings).map ofCategory).getD .success

def name : StatusIcon → String
  | .error => "error"
  | .warning => "warning"
  | .info => "info"
  | .success => "success"
  | .runnable => "runnable"
  | .scheduled => "scheduled"
  | .running => "running"

def ofName? : String → Option StatusIcon
  | "error" => some .error
  | "warning" => some .warning
  | "info" => some .info
  | "success" => some .success
  | "runnable" => some .runnable
  | "scheduled" => some .scheduled
  | "running" => some .running
  | _ => none

theorem ofName?_name (icon : StatusIcon) : ofName? icon.name = some icon := by
  cases icon <;> rfl

end StatusIcon

end ReviewChecks
