import SchemaQuery.Execution.Record
import SchemaQuery.Query.Argument
import SchemaQuery.Time.Instant

/-!
Tasks. A task follows one execution from its start to its end. It starts running and ends once, in one
of three ways, and never changes after that. Clients are shown a cancelled task as a failed one.
The engine is asked how the execution of a task goes, and it may also report that unasked.
-/

namespace SchemaQuery

/-- The status of a task. -/
inductive TaskStatus where
  | running
  | succeeded
  | failed
  | cancelled
deriving DecidableEq, Repr

namespace TaskStatus

/-- Every status. -/
def all : List TaskStatus := [.running, .succeeded, .failed, .cancelled]

/-- The name of a status. -/
def name : TaskStatus → String
  | .running => "RUNNING"
  | .succeeded => "SUCCEEDED"
  | .failed => "FAILED"
  | .cancelled => "CANCELLED"

end TaskStatus

/-- How a task ends. -/
inductive Outcome where
  | succeeded (rows : List Record)
  | failed (error : String)
  | cancelled

/-- A task. -/
structure Task where
  id : TaskId
  /-- The field whose query the task runs. -/
  field : String
  arguments : Arguments
  status : TaskStatus
  execution : ExecutionId
  startedAt : Instant
  finishedAt : Option Instant
  result : Option (List Record)
  error : Option String

/-- The status of a task that a client is shown. -/
inductive ViewStatus where
  | running
  | succeeded
  | failed
deriving DecidableEq, Repr

namespace ViewStatus

/-- Every status that is shown. -/
def all : List ViewStatus := [.running, .succeeded, .failed]

/-- The name of a status that is shown. -/
def name : ViewStatus → String
  | .running => "RUNNING"
  | .succeeded => "SUCCEEDED"
  | .failed => "FAILED"

end ViewStatus

/-- What a client is shown of a task. -/
structure StatusView where
  status : ViewStatus
  result : Option (List Record)
  startedAt : Instant
  finishedAt : Option Instant
  error : Option String

namespace Task

/-- A task that starts to run now. -/
def start (id : TaskId) (field : String) (arguments : Arguments) (execution : ExecutionId)
    (now : Instant) : Task :=
  ⟨id, field, arguments, .running, execution, now, none, none, none⟩

/-- Whether the task has ended. -/
def isFinished (t : Task) : Bool := t.status ≠ .running

/-- The task ended in the given way now, whatever it was before. -/
def finish (t : Task) (now : Instant) : Outcome → Task
  | .succeeded rows =>
    { t with status := .succeeded, result := some rows, finishedAt := some now }
  | .failed error => { t with status := .failed, error := some error, finishedAt := some now }
  | .cancelled => { t with status := .cancelled, finishedAt := some now }

/-- The task ended in the given way, if it is still running; a task that has ended stays as it is. -/
def settle (t : Task) (now : Instant) (outcome : Outcome) : Task :=
  if t.isFinished then t else t.finish now outcome

/-- The time since the task started. -/
def age (t : Task) (now : Instant) : Span := now.since t.startedAt

/-- What the error of a task begins with that became too old. -/
def timeoutMark : String := "timeout"

/-- Whether the task failed with an error that begins like that of a task that became too old. -/
def timedOut (t : Task) : Bool :=
  t.status = .failed && t.error.any fun e => timeoutMark.toList.isPrefixOf e.toList

/-- What a client is shown of the task. -/
def view (t : Task) : StatusView where
  status := match t.status with
    | .running => .running
    | .succeeded => .succeeded
    | .failed => .failed
    | .cancelled => .failed
  result := if t.status = .succeeded then t.result else none
  startedAt := t.startedAt
  finishedAt := t.finishedAt
  error := match t.status with
    | .failed => t.error
    | .cancelled => some (t.error.getD "cancelled")
    | _ => none

theorem settle_of_isFinished {t : Task} (h : t.isFinished = true) (now : Instant) (o : Outcome) :
    t.settle now o = t := by
  simp [settle, h]

theorem isFinished_settle (t : Task) (now : Instant) (o : Outcome) :
    (t.settle now o).isFinished = true := by
  unfold settle
  split
  · assumption
  · cases o <;> rfl

end Task

/-! ### What the engine reports unasked -/

/-- A report on an execution. -/
structure Notification where
  execution : ExecutionId
  state : ExecutionState
deriving DecidableEq, Repr

/-- The report of a state by the engine's name for it. -/
def Notification.ofReport (execution : ExecutionId) (state : String) (reason : Option String) :
    Except Error Notification :=
  match ExecutionState.parse? state reason with
  | some s => .ok ⟨execution, s⟩
  | none => .error (.validation (.unknownState state))

end SchemaQuery
