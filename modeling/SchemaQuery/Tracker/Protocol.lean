import SchemaQuery.Schema.Operation
import SchemaQuery.Task.Basic
import SchemaQuery.Tracker.Call

/-!
The calls of the tracker. A task is triggered by starting its query at the engine. After that the engine
may report its end, and a client may ask for it, in which case a running task is looked up at the
engine. Both ways end in one request, which applies a report to a task, so that reports which come late,
twice or in the wrong order change nothing. A task that is too old is failed, but only after the engine
was asked and does not know its end.
-/

namespace SchemaQuery

/-- What a tracker is set up with. -/
structure Tracker where
  config : TaskConfig
  /-- The declared fields of the response types of tasks, by the fields that trigger them. -/
  declared : Dictionary (List String)

namespace Tracker

/-- A tracker that stores rows as they are fetched. -/
def plain (config : TaskConfig) : Tracker := ⟨config, ∅⟩

/-- The declared fields once an operation of a task is taken up. Only an object type declares any. -/
def declare (m : Metadata) (declared : Dictionary (List String)) (op : Operation) :
    Dictionary (List String) :=
  match m.type? op.responseType with
  | some t => if t.primitive then declared else declared.insert op.field (t.fields.map (·.name))
  | none => declared

/-- A tracker that stores the declared fields of rows. -/
def ofSchema (config : TaskConfig) (schema : CompiledSchema) : Tracker :=
  ⟨config, schema.set.tasks.foldl (declare schema.metadata) ∅⟩

/-- The rows that are stored for a task. -/
def shapeRows (t : Tracker) (field : String) (rows : List Record) : List Record :=
  match t.declared.get? field with
  | some fields => rows.map (Record.shape fields)
  | none => rows

/-- How a task ends whose execution succeeded, by what fetching its result gave. -/
def outcomeOfFetch (t : Tracker) (field : String) : Except Error (List Record) → Outcome
  | .ok rows => .succeeded (t.shapeRows field rows)
  | .error e => .failed ("result fetch failed: " ++ e.message)

/-- The greatest age, if a task has reached it. -/
def expired? (t : Tracker) (task : Task) (now : Instant) : Option Span :=
  t.config.maxAge.filter fun maxAge => maxAge.toNanos ≤ (task.age now).toNanos

/-! ### Triggering -/

/-- Gives a reserved id back and ends with an error. -/
def giveUp (id : TaskId) (e : Error) : Call (Except Error Task) := do
  Call.request (.release id)
  return .error e

/-- Stores the task of an execution that has started. -/
def record (op : Operation) (args : Arguments) (id : TaskId) (execution : ExecutionId) :
    Call (Except Error Task) := do
  let now ← Call.request .clock
  let task := Task.start id op.field args execution now
  return (← Call.request (.create task)).map fun _ => task

/-- Starts the query of a task whose id is reserved. -/
def submit (op : Operation) (args : Arguments) (id : TaskId) (query : CompiledQuery) :
    Call (Except Error Task) := do
  match ← Call.request (.start query) with
  | .ok execution => record op args id execution
  | .error e => giveUp id e

/-- Reserves the id of a task and starts its query. -/
def enter (op : Operation) (args : Arguments) (query : CompiledQuery) (id : TaskId) :
    Call (Except Error Task) := do
  match ← Call.request (.reserve id) with
  | .ok _ => submit op args id query
  | .error e => return .error e

/-- Triggers a task for an operation. -/
def trigger (op : Operation) (args : Arguments) (id : Option TaskId) : Call (Except Error Task) :=
  if op.task then
    match op.render args with
    | .error e => return .error e
    | .ok query => do
      match id with
      | some id => enter op args query id
      | none => enter op args query (← Call.request .newId)
  else return .error (.validation (.notATask op.owner op.field))

/-! ### Following a task -/

/-- A task as it is known, without asking the engine. -/
def get (id : TaskId) : Call (Except Error Task) := do
  match ← Call.request (.cell id) with
  | some cell => return .ok cell.task
  | none => return .error (.notFound id)

/-- Applies a report of the engine; an execution that belongs to no task is passed over. -/
def push (n : Notification) : Call (Except Error (Option Task)) := do
  match ← Call.request (.lookup n.execution) with
  | some id => return (← Call.request (.converge id n.state)).map some
  | none => return .ok none

/-- Applies a report to a task. -/
def converge (id : TaskId) (report : ExecutionState) : Call (Except Error Task) :=
  Call.request (.converge id report)

/-- The report by which a task is failed that has reached the greatest age. -/
def expiry (maxAge : Span) : ExecutionState :=
  .failed (some (Task.timeoutMark ++ ": no terminal status within "
    ++ String.ofList (Decimal.digits maxAge.seconds) ++ "s"))

/-- Looks a running task up at the engine and applies what it says. The greatest age counts only if the
engine says that the execution runs, or cannot be asked. -/
def refresh (t : Tracker) (id : TaskId) (task : Task) : Call (Except Error Task) := do
  let answer ← Call.request (.state task.execution)
  let now ← Call.request .clock
  match answer, t.expired? task now with
  | .ok .running, some maxAge => converge id (expiry maxAge)
  | .ok state, _ => converge id state
  | .error _, some maxAge => converge id (expiry maxAge)
  | .error e, none => return .error e

/-- Marks the end of a task as seen, if it has ended, and ends with what the client is shown. -/
def present (id : TaskId) (task : Task) : Call (Except Error StatusView) := do
  if task.isFinished then
    Call.request (.observe id)
  return .ok task.view

/-- Looks a task up for a client. -/
def poll (t : Tracker) (id : TaskId) : Call (Except Error StatusView) := do
  match ← Call.request (.cell id) with
  | none => return .error (.notFound id)
  | some cell =>
    if cell.task.isFinished then present id cell.task
    else
      match ← t.refresh id cell.task with
      | .error e => return .error e
      | .ok task => present id task

/-! ### Sweeping -/

/-- Looks one task up if it has reached the greatest age, and tells whether it is now one that became
too old. -/
def sweepOne (t : Tracker) (id : TaskId) : Call Bool := do
  match ← Call.request (.cell id) with
  | none => return false
  | some cell =>
    if cell.task.isFinished then return false
    else
      match t.expired? cell.task (← Call.request .clock) with
      | none => return false
      | some _ =>
        match ← t.refresh id cell.task with
        | .ok task => return task.timedOut
        | .error _ => return false

/-- Looks tasks up one after the other, and counts those that became too old. -/
def sweepEach (t : Tracker) : List TaskId → Call Nat
  | [] => return 0
  | id :: ids => do
    let timedOut ← t.sweepOne id
    let rest ← t.sweepEach ids
    return (if timedOut then rest + 1 else rest)

/-- Looks all tasks up that have reached the greatest age, and counts those that became too old. -/
def sweepExpired (t : Tracker) : Call Nat :=
  match t.config.maxAge with
  | none => return 0
  | some _ => do t.sweepEach (← Call.request .ids)

/-- The executions among those of some tasks that need not be known any more. -/
def releasableOf : List TaskId → Call (List ExecutionId)
  | [] => return []
  | id :: ids => do
    let cell ← Call.request (.cell id)
    let rest ← releasableOf ids
    return match cell with
      | some c => if c.isReleasable then c.task.execution :: rest else rest
      | none => rest

/-- Forgets the executions that need not be known any more, and counts them. -/
def collectGarbage : Call Nat := do
  let executions ← releasableOf (← Call.request .ids)
  Call.request (.forget executions)

end Tracker

end SchemaQuery
