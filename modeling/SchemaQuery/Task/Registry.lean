import SchemaQuery.Collection.Keyed
import SchemaQuery.Error
import SchemaQuery.Task.Basic

/-!
The registry of tasks: the tasks with a mark for those a client has seen the end of, the task to which
each execution belongs, and the ids that are reserved while their executions are being started. A task
stays for ever; the entry of its execution leaves once the task has ended and that has been seen.
-/

namespace SchemaQuery

/-! ### Which task an execution belongs to -/

/-- The tasks to which executions belong. -/
structure Correlator where
  entries : Keyed ExecutionId TaskId

namespace Correlator

/-- The correlator without entries. -/
def empty : Correlator := ⟨∅⟩

instance : EmptyCollection Correlator := ⟨empty⟩
instance : Inhabited Correlator := ⟨empty⟩

/-- Whether an execution belongs to a task. -/
def contains (c : Correlator) (execution : ExecutionId) : Bool := c.entries.contains execution

/-- The task to which an execution belongs. -/
def taskFor? (c : Correlator) (execution : ExecutionId) : Option TaskId := c.entries.get? execution

/-- Records that an execution belongs to a task, and tells whether that was new. An execution that
belongs to a task already goes on to belong to it. -/
def insert (c : Correlator) (execution : ExecutionId) (task : TaskId) : Correlator × Bool :=
  (⟨c.entries.add execution task⟩, !c.contains execution)

/-- Forgets an execution, and tells to which task it belonged. -/
def remove (c : Correlator) (execution : ExecutionId) : Correlator × Option TaskId :=
  (⟨c.entries.erase execution⟩, c.taskFor? execution)

/-- How many executions belong to tasks. -/
def size (c : Correlator) : Nat := c.entries.size

end Correlator

/-! ### The registry -/

/-- A task in the registry. -/
structure Cell where
  task : Task
  /-- Whether a client has seen the task after it ended. -/
  observed : Bool

/-- Whether the execution of a task need not be known any more. -/
def Cell.isReleasable (c : Cell) : Bool := c.observed && c.task.isFinished

/-- The registry. -/
structure Registry where
  cells : Keyed TaskId Cell
  correlator : Correlator
  /-- The ids whose executions are being started. -/
  reserved : List TaskId

namespace Registry

/-- The registry without tasks. -/
def empty : Registry := ⟨∅, ∅, []⟩

instance : EmptyCollection Registry := ⟨empty⟩
instance : Inhabited Registry := ⟨empty⟩

/-- The task with an id, and whether its end was seen. -/
def cell? (r : Registry) (id : TaskId) : Option Cell := r.cells.get? id

/-- The task with an id. -/
def task? (r : Registry) (id : TaskId) : Option Task := (r.cell? id).map (·.task)

/-- Whether there is a task with an id. -/
def contains (r : Registry) (id : TaskId) : Bool := r.cells.contains id

/-- The ids of all tasks. -/
def ids (r : Registry) : List TaskId := r.cells.keys

/-- How many tasks there are. -/
def size (r : Registry) : Nat := r.cells.size

/-- Reserves an id for an execution that is about to start, unless a task has it or it is reserved. -/
def reserve (r : Registry) (id : TaskId) : Registry × Except Error Unit :=
  if r.contains id ∨ id ∈ r.reserved then (r, .error (.taskExists id))
  else ({ r with reserved := id :: r.reserved }, .ok ())

/-- Gives a reserved id back. -/
def release (r : Registry) (id : TaskId) : Registry :=
  { r with reserved := r.reserved.filter (· ≠ id) }

/-- Stores a task together with the entry of its execution. This uses up a reservation of the id, also
where the task is refused: because its id is taken, or because its execution belongs to a task. -/
def create (r : Registry) (t : Task) : Registry × Except Error Unit :=
  let r := r.release t.id
  if r.contains t.id then (r, .error (.taskExists t.id))
  else if r.correlator.contains t.execution then
    (r, .error (.engine (.alreadyCorrelated t.execution)))
  else
    ({ r with
        cells := r.cells.add t.id ⟨t, false⟩
        correlator := (r.correlator.insert t.execution t.id).1 }, .ok ())

/-- Ends a task in the given way, if it is still running. -/
def settle (r : Registry) (id : TaskId) (now : Instant) (outcome : Outcome) : Registry :=
  { r with cells := r.cells.modify id fun c => { c with task := c.task.settle now outcome } }

/-- Sets or clears the mark of a task whose end was seen. -/
def mark (r : Registry) (id : TaskId) (observed : Bool) : Registry :=
  { r with cells := r.cells.modify id fun c => { c with observed := observed } }

/-- Forgets some executions, one after the other, and counts those that belonged to tasks. -/
def forget (r : Registry) : List ExecutionId → Registry × Nat
  | [] => (r, 0)
  | execution :: executions =>
    let (correlator, task) := r.correlator.remove execution
    let (r, n) := forget { r with correlator := correlator } executions
    (r, if task.isSome then n + 1 else n)

/-- The executions that need not be known any more. -/
def releasable (r : Registry) : List ExecutionId :=
  (r.cells.entries.filter fun e => e.2.isReleasable).map fun e => e.2.task.execution

/-- Forgets the executions that need not be known any more, and counts those that were known. -/
def collectGarbage (r : Registry) : Registry × Nat := r.forget r.releasable

end Registry

end SchemaQuery
