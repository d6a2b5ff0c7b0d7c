import SchemaQuery.Query.Template
import SchemaQuery.Task.Registry

/-!
Calls of the tracker as trees of requests. A call does one thing at a time: it asks the registry, the
clock or the engine for something and goes on with the answer. Between two requests of one call other
calls may make requests of theirs, but a single request is never divided, with one exception: while a
result is being fetched for a task, other calls run on, and the task itself is locked.

Keeping calls as trees lets one text of the protocol be run alone, be interleaved with others in every
possible way, and be run against a clock.
-/

namespace SchemaQuery

/-- What a call may ask for. -/
inductive Request where
  /-- The time. -/
  | clock
  /-- An id that no task has. -/
  | newId
  /-- The ids of all tasks. -/
  | ids
  /-- To reserve an id. -/
  | reserve (id : TaskId)
  /-- To give a reserved id back. -/
  | release (id : TaskId)
  /-- To store a task. -/
  | create (task : Task)
  /-- The task to which an execution belongs. -/
  | lookup (execution : ExecutionId)
  /-- A task, and whether its end was seen. -/
  | cell (id : TaskId)
  /-- To mark that the end of a task was seen. -/
  | observe (id : TaskId)
  /-- To apply a report to a task, which may mean fetching its result. -/
  | converge (id : TaskId) (report : ExecutionState)
  /-- To forget executions. -/
  | forget (executions : List ExecutionId)
  /-- To start a query at the engine. -/
  | start (query : CompiledQuery)
  /-- The state of an execution at the engine. -/
  | state (execution : ExecutionId)

/-- What a request is answered with. -/
abbrev Request.Answer : Request → Type
  | .clock => Instant
  | .newId => TaskId
  | .ids => List TaskId
  | .reserve _ => Except Error Unit
  | .release _ => Unit
  | .create _ => Except Error Unit
  | .lookup _ => Option TaskId
  | .cell _ => Option Cell
  | .observe _ => Unit
  | .converge _ _ => Except Error Task
  | .forget _ => Nat
  | .start _ => Except Error ExecutionId
  | .state _ => Except Error ExecutionState

/-- A call that ends with a value of type `α`. -/
inductive Call (α : Type) where
  /-- The call has ended. -/
  | done (value : α)
  /-- The call makes a request and goes on with its answer. -/
  | ask (request : Request) (next : request.Answer → Call α)

namespace Call

variable {α β : Type}

/-- One call after another. -/
def bind (c : Call α) (f : α → Call β) : Call β :=
  match c with
  | .done a => f a
  | .ask r next => .ask r fun answer => (next answer).bind f

instance : Monad Call where
  pure := .done
  bind := bind

/-- The call that makes one request. -/
def request (r : Request) : Call r.Answer := .ask r .done

@[simp] theorem bind_done (a : α) (f : α → Call β) : (Call.done a >>= f) = f a := rfl

@[simp] theorem bind_ask (r : Request) (next : r.Answer → Call α) (f : α → Call β) :
    (Call.ask r next >>= f) = .ask r fun answer => next answer >>= f := rfl

@[simp] theorem pure_eq_done (a : α) : (pure a : Call α) = .done a := rfl

@[simp] theorem bind_request (r : Request) (f : r.Answer → Call β) :
    (request r >>= f) = .ask r f := rfl

end Call

/-! ### Applying a report -/

/-- What a report means for a task. -/
inductive Verdict where
  /-- There is no such task. -/
  | missing
  /-- The task stays as it is. -/
  | unchanged (task : Task)
  /-- The task ends in this way. -/
  | ends (outcome : Outcome)
  /-- The result of the task has to be fetched. -/
  | fetches (task : Task)

/-- What a report means for a task: nothing if the task has ended or the execution runs on. -/
def Task.judge (t : Task) (report : ExecutionState) : Verdict :=
  if t.isFinished then .unchanged t
  else match report with
    | .running => .unchanged t
    | .succeeded => .fetches t
    | .failed reason => .ends (.failed (reason.getD "execution failed"))
    | .cancelled => .ends .cancelled

/-- What a report means for the task with an id. -/
def Registry.judge (r : Registry) (id : TaskId) (report : ExecutionState) : Verdict :=
  match r.task? id with
  | none => .missing
  | some t => t.judge report

/-- The task with an id once it is ended in the given way, as an answer. -/
def Registry.settleAnswer (r : Registry) (id : TaskId) (now : Instant) (outcome : Outcome) :
    Registry × Except Error Task :=
  let r := r.settle id now outcome
  (r, match r.task? id with
    | some t => .ok t
    | none => .error (.notFound id))

end SchemaQuery
