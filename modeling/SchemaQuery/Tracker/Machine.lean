import SchemaQuery.Tracker.Run

/-!
Calls that run together. A machine holds the registry and the calls in progress, and moves by events:
a call begins, a call makes its next request of the registry, or an answer from outside arrives, from
the clock, the engine or the order of the tasks. Which call moves next is open, so the lists of events
that a machine accepts are all the ways in which calls can interleave, under all answers that the engine
may give.

A call that applies a success locks its task while the result is fetched. Other calls that need this
task have to wait; everything else goes on.
-/

namespace SchemaQuery

namespace Tracker

/-- A call of a client or of the engine. -/
inductive Job where
  | trigger (op : Operation) (args : Arguments) (id : Option TaskId)
  | get (id : TaskId)
  | push (notification : Notification)
  | poll (id : TaskId)
  | converge (id : TaskId) (report : ExecutionState)
  | sweep
  | collect

/-- What a job ends with. -/
abbrev Job.Result : Job → Type
  | .trigger _ _ _ => Except Error Task
  | .get _ => Except Error Task
  | .push _ => Except Error (Option Task)
  | .poll _ => Except Error StatusView
  | .converge _ _ => Except Error Task
  | .sweep => Nat
  | .collect => Nat

/-- The call of a job. -/
def Job.call (t : Tracker) : (job : Job) → Call job.Result
  | .trigger op args id => Tracker.trigger op args id
  | .get id => Tracker.get id
  | .push n => Tracker.push n
  | .poll id => t.poll id
  | .converge id report => Tracker.converge id report
  | .sweep => t.sweepExpired
  | .collect => Tracker.collectGarbage

/-- How far a call is. -/
inductive Progress (α : Type) where
  /-- The call has ended or is about to make a request. -/
  | at (call : Call α)
  /-- The call fetches the result of a task that it has locked. -/
  | fetching (task : Task) (id : TaskId) (next : Except Error Task → Call α)

/-- A job in progress. -/
structure Thread where
  job : Job
  progress : Progress job.Result

/-- The task that a thread has locked. -/
def Thread.locked? (th : Thread) : Option TaskId :=
  match th.progress with
  | .at _ => none
  | .fetching _ id _ => some id

/-- The registry and the calls in progress. -/
structure Machine where
  registry : Registry
  threads : List Thread

/-- Whether a task is locked. -/
def Machine.isLocked (m : Machine) (id : TaskId) : Bool :=
  m.threads.any fun th => th.locked? = some id

/-- What arrives from outside. -/
inductive Reply where
  /-- The clock is read. -/
  | time (now : Instant)
  /-- A new id is made. -/
  | newId (id : TaskId)
  /-- The tasks are listed in some order. -/
  | order (ids : List TaskId)
  /-- The engine answers a start. -/
  | started (answer : Except Error ExecutionId)
  /-- The engine answers for the state of an execution. -/
  | state (answer : Except Error ExecutionState)
  /-- The engine answers for a result, which is stored at this time. -/
  | rows (now : Instant) (answer : Except Error (List Record))

/-- A move of the machine. -/
inductive Event where
  /-- A job begins. -/
  | begin (job : Job)
  /-- A batch begins: the pushes of its notifications, all at once and in their order. -/
  | beginBatch (notifications : List Notification)
  /-- The call at this place makes its request of the registry, at this time. -/
  | serve (place : Nat) (now : Instant)
  /-- The call at this place receives an answer from outside. -/
  | reply (place : Nat) (answer : Reply)

/-- A request of the registry once it is made: the registry after it and how the call goes on. Nothing
if the request is not one of the registry, or has to wait for a locked task. -/
def serveLocal {α : Type} (r : Registry) (isLocked : TaskId → Bool) (now : Instant) :
    (request : Request) → (request.Answer → Call α) → Option (Registry × Progress α)
  | .reserve id, next => some ((r.reserve id).1, .at (next (r.reserve id).2))
  | .release id, next => some (r.release id, .at (next ()))
  | .create task, next => some ((r.create task).1, .at (next (r.create task).2))
  | .lookup execution, next => some (r, .at (next (r.correlator.taskFor? execution)))
  | .forget executions, next => some ((r.forget executions).1, .at (next (r.forget executions).2))
  | .cell id, next => if isLocked id then none else some (r, .at (next (r.cell? id)))
  | .observe id, next => if isLocked id then none else some (r.mark id true, .at (next ()))
  | .converge id report, next =>
    if isLocked id then none
    else match r.judge id report with
      | .missing => some (r, .at (next (.error (.notFound id))))
      | .unchanged task => some (r, .at (next (.ok task)))
      | .ends outcome =>
        let (r, answer) := r.settleAnswer id now outcome
        some (r, .at (next answer))
      | .fetches task => some (r, .fetching task id next)
  | .clock, _ | .newId, _ | .ids, _ | .start _, _ | .state _, _ => none

/-- An answer from outside once it is received. Nothing if the call does not wait for it; an order of
the tasks has to list them all. -/
def receive {α : Type} (t : Tracker) (r : Registry) :
    Progress α → Reply → Option (Registry × Progress α)
  | .at (.ask .clock next), .time now => some (r, .at (next now))
  | .at (.ask .newId next), .newId id => some (r, .at (next id))
  | .at (.ask .ids next), .order ids => if ids.isPerm r.ids then some (r, .at (next ids)) else none
  | .at (.ask (.start _) next), .started answer => some (r, .at (next answer))
  | .at (.ask (.state _) next), .state answer => some (r, .at (next answer))
  | .fetching task id next, .rows now answer =>
    let (r, answer) := r.settleAnswer id now (t.outcomeOfFetch task.field answer)
    some (r, .at (next answer))
  | _, _ => none

/-- A job whose call makes its first request next. -/
def Thread.start (t : Tracker) (job : Job) : Thread := ⟨job, .at (job.call t)⟩

/-- The machine after an event, if it can happen. -/
def Machine.step? (t : Tracker) (m : Machine) : Event → Option Machine
  | .begin job => some { m with threads := m.threads ++ [.start t job] }
  | .beginBatch notifications =>
    some { m with threads := m.threads ++ notifications.map fun n => .start t (.push n) }
  | .serve place now => do
    let ⟨job, progress⟩ ← m.threads[place]?
    let .at (.ask request next) := progress | none
    let (r, progress) ← serveLocal m.registry m.isLocked now request next
    some ⟨r, m.threads.set place ⟨job, progress⟩⟩
  | .reply place answer => do
    let ⟨job, progress⟩ ← m.threads[place]?
    let (r, progress) ← receive t m.registry progress answer
    some ⟨r, m.threads.set place ⟨job, progress⟩⟩

/-- The machine after some events, if they can happen one after the other. -/
def Machine.run? (t : Tracker) (m : Machine) (events : List Event) : Option Machine :=
  events.foldlM (Machine.step? t) m

end Tracker

end SchemaQuery
