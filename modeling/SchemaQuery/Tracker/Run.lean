import SchemaQuery.Tracker.Protocol

/-!
Calls that run alone, from beginning to end. What lies outside the registry is given by the
surroundings: the time, new ids, the order in which tasks are listed, and the answers of the engine.
-/

namespace SchemaQuery

/-- What a call finds outside the registry while it runs. -/
structure Surroundings where
  now : Instant
  newId : TaskId
  /-- The order in which the ids of the tasks are listed. -/
  order : List TaskId → List TaskId
  start : CompiledQuery → Except Error ExecutionId
  state : ExecutionId → Except Error ExecutionState
  fetch : ExecutionId → Except Error (List Record)

namespace Tracker

/-- Answers one request on the registry. -/
def serve (t : Tracker) (around : Surroundings) (r : Registry) :
    (request : Request) → Registry × request.Answer
  | .clock => (r, around.now)
  | .newId => (r, around.newId)
  | .ids => (r, around.order r.ids)
  | .reserve id => r.reserve id
  | .release id => (r.release id, ())
  | .create task => r.create task
  | .lookup execution => (r, r.correlator.taskFor? execution)
  | .cell id => (r, r.cell? id)
  | .observe id => (r.mark id true, ())
  | .converge id report =>
    match r.judge id report with
    | .missing => (r, .error (.notFound id))
    | .unchanged task => (r, .ok task)
    | .ends outcome => r.settleAnswer id around.now outcome
    | .fetches task =>
      r.settleAnswer id around.now (t.outcomeOfFetch task.field (around.fetch task.execution))
  | .forget executions => r.forget executions
  | .start query => (r, around.start query)
  | .state execution => (r, around.state execution)

/-- Runs a call on the registry. -/
def run {α : Type} (t : Tracker) (around : Surroundings) (r : Registry) : Call α → Registry × α
  | .done a => (r, a)
  | .ask request next =>
    let (r, answer) := t.serve around r request
    t.run around r (next answer)

/-- Running one call after another is running the first and then the second. -/
theorem run_bind {α β : Type} (t : Tracker) (around : Surroundings) (r : Registry) (c : Call α)
    (f : α → Call β) :
    t.run around r (c >>= f) = t.run around (t.run around r c).1 (f (t.run around r c).2) := by
  induction c generalizing r with
  | done a => rfl
  | ask request next ih => simp only [Call.bind_ask, run]; exact ih _ _

end Tracker

end SchemaQuery
