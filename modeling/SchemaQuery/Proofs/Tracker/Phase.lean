import SchemaQuery.Proofs.Task.Registry
import SchemaQuery.Tracker.Machine

/-!
How far a trigger is. Between two of its requests a trigger is in one of seven phases, and what a phase
leaves to be done is one of the calls that a trigger is made of. From the reservation of its id to the
end the trigger holds the id; from the answer of the engine to the end it has the execution in hand; and
in the end it has made a task, or has not. Every move of a trigger leads from one phase to another.
-/

namespace SchemaQuery

namespace Tracker

/-! ### Phases -/

/-- How far a trigger is. -/
inductive Phase where
  /-- It has yet to be given an id. -/
  | naming (query : CompiledQuery)
  /-- It is about to reserve its id. -/
  | entering (id : TaskId) (query : CompiledQuery)
  /-- It has reserved its id, and asks the engine to start its query. -/
  | starting (id : TaskId) (query : CompiledQuery)
  /-- Its execution has started, and it is about to read the clock. -/
  | recording (id : TaskId) (execution : ExecutionId)
  /-- It is about to store its task. -/
  | storing (task : Task)
  /-- Its execution was not started, and it is about to give its id back. -/
  | leaving (id : TaskId) (e : Error)
  | ended (result : Except Error Task)

namespace Phase

/-- What is left of a trigger that is in a phase. -/
def call (op : Operation) (args : Arguments) : Phase → Call (Except Error Task)
  | .naming query => .ask .newId (enter op args query)
  | .entering id query => enter op args query id
  | .starting id query => submit op args id query
  | .recording id execution => record op args id execution
  | .storing task => .ask (.create task) fun created => .done (created.map fun _ => task)
  | .leaving id e => giveUp id e
  | .ended result => .done result

/-- The phase of a trigger, read off what is left of it. -/
def read? : Call (Except Error Task) → Option Phase
  | .done result => some (.ended result)
  | .ask (.create task) _ => some (.storing task)
  | .ask (.release id) next =>
    match next () with
    | .done (.error e) => some (.leaving id e)
    | _ => none
  | .ask .clock next =>
    match next default with
    | .ask (.create task) _ => some (.recording task.id task.execution)
    | _ => none
  | .ask (.start query) next =>
    match next (.error (.io "")) with
    | .ask (.release id) _ => some (.starting id query)
    | _ => none
  | .ask (.reserve id) next =>
    match next (.ok ()) with
    | .ask (.start query) _ => some (.entering id query)
    | _ => none
  | .ask .newId next =>
    match next ⟨""⟩ with
    | .ask (.reserve _) next =>
      match next (.ok ()) with
      | .ask (.start query) _ => some (.naming query)
      | _ => none
    | _ => none
  | _ => none

theorem read?_call (op : Operation) (args : Arguments) (phase : Phase) :
    read? (phase.call op args) = some phase := by
  cases phase <;> rfl

/-- Different phases leave different calls. -/
theorem call_injective {op : Operation} {args : Arguments} {phase phase' : Phase}
    (h : phase.call op args = phase'.call op args) : phase = phase' := by
  have hread := congrArg read? h
  rw [read?_call, read?_call] at hread
  exact Option.some.inj hread

/-- The id that a trigger holds: the one that it has reserved and neither given back nor used. -/
def held? : Phase → Option TaskId
  | .starting id _ | .recording id _ | .leaving id _ => some id
  | .storing task => some task.id
  | .naming _ | .entering _ _ | .ended _ => none

/-- The execution that a trigger has in hand: the one it was given and has not stored. -/
def inHand? : Phase → Option ExecutionId
  | .recording _ execution => some execution
  | .storing task => some task.execution
  | .naming _ | .entering _ _ | .starting _ _ | .leaving _ _ | .ended _ => none

/-- The task that a trigger has made. -/
def made? : Phase → Option Task
  | .ended (.ok task) => some task
  | _ => none

/-- The execution that a trigger was given and has not lost. -/
def execution? (phase : Phase) : Option ExecutionId :=
  phase.inHand?.or (phase.made?.map (·.execution))

/-- A trigger with these inputs can be in the phase: the id is the one that was given, if one was, and
the task is one for these inputs. -/
def Fits (op : Operation) (args : Arguments) (given : Option TaskId) : Phase → Prop
  | .naming _ => given = none
  | .entering id _ | .starting id _ | .recording id _ | .leaving id _ =>
    ∀ k, given = some k → id = k
  | .storing task | .ended (.ok task) =>
    (∀ k, given = some k → task.id = k) ∧ task.field = op.field ∧ task.arguments = args
  | .ended (.error _) => True

/-- A trigger in this phase has done nothing that others could see. -/
def IsFresh (phase : Phase) : Prop :=
  phase.held? = none ∧ phase.inHand? = none ∧ phase.made? = none

/-- A trigger begins in a phase in which it has done nothing. -/
theorem exists_isFresh (op : Operation) (args : Arguments) (given : Option TaskId) :
    ∃ phase : Phase, trigger op args given = phase.call op args ∧ phase.Fits op args given ∧
      phase.IsFresh := by
  unfold trigger
  split
  · split
    · exact ⟨.ended (.error _), rfl, trivial, rfl, rfl, rfl⟩
    · split
      · exact ⟨.entering _ _, rfl, fun _ hk => Option.some.inj hk, rfl, rfl, rfl⟩
      · exact ⟨.naming _, rfl, rfl, rfl, rfl, rfl⟩
  · exact ⟨.ended (.error _), rfl, trivial, rfl, rfl, rfl⟩

/-! ### Moves of a trigger -/

/-- A move of a trigger: its phase and the registry before it, the registry and the phase after it, and
the execution that the engine gives to it by it. -/
inductive Moves (op : Operation) (args : Arguments) (r : Registry) :
    Phase → Registry → Phase → Option ExecutionId → Prop where
  | names {query : CompiledQuery} (id : TaskId) :
    Moves op args r (.naming query) r (.entering id query) none
  | reserves {id : TaskId} {query : CompiledQuery} (hid : r.cell? id = none)
      (hfree : id ∉ r.reserved) :
    Moves op args r (.entering id query) { r with reserved := id :: r.reserved }
      (.starting id query) none
  | refused {id : TaskId} {query : CompiledQuery} (e : Error) :
    Moves op args r (.entering id query) r (.ended (.error e)) none
  | started {id : TaskId} {query : CompiledQuery} (execution : ExecutionId) :
    Moves op args r (.starting id query) r (.recording id execution) (some execution)
  | failed {id : TaskId} {query : CompiledQuery} (e : Error) :
    Moves op args r (.starting id query) r (.leaving id e) none
  | timed {id : TaskId} {execution : ExecutionId} (now : Instant) :
    Moves op args r (.recording id execution) r
      (.storing (.start id op.field args execution now)) none
  | stores {task : Task} {r' : Registry} {answer : Except Error Unit}
      (hcreate : r.create task = (r', answer)) :
    Moves op args r (.storing task) r' (.ended (answer.map fun _ => task)) none
  | leaves {id : TaskId} {e : Error} :
    Moves op args r (.leaving id e) (r.release id) (.ended (.error e)) none

/-- A trigger goes on to fit its inputs. -/
theorem Moves.fits {op : Operation} {args : Arguments} {given : Option TaskId} {r r' : Registry}
    {phase phase' : Phase} {got : Option ExecutionId} (h : phase.Moves op args r r' phase' got)
    (hfits : phase.Fits op args given) : phase'.Fits op args given := by
  cases h with
  | names id =>
    intro k hk
    rw [show given = none from hfits] at hk
    cases hk
  | reserves | started | failed => exact hfits
  | timed => exact ⟨hfits, rfl, rfl⟩
  | refused | leaves => trivial
  | @stores task r' answer hcreate =>
    cases answer with
    | ok => exact hfits
    | error e => trivial

end Phase

/-- The execution that an answer gives to a trigger. -/
def Reply.execution? : Reply → Option ExecutionId
  | .started (.ok execution) => some execution
  | _ => none

namespace Phase

variable {t : Tracker} {op : Operation} {args : Arguments} {phase : Phase} {r r' : Registry}
  {p' : Progress (Except Error Task)}

/-- A request that a trigger makes of the registry is a move of the trigger. -/
theorem moves_of_serveLocal {isLocked : TaskId → Bool} {now : Instant} {request : Request}
    {next : request.Answer → Call (Except Error Task)} (hcall : phase.call op args = .ask request next)
    (h : serveLocal r isLocked now request next = some (r', p')) :
    ∃ phase' : Phase, p' = .at (phase'.call op args) ∧ phase.Moves op args r r' phase' none := by
  cases phase with
  | naming query => cases hcall; cases h
  | starting id query => cases hcall; cases h
  | recording id execution => cases hcall; cases h
  | ended result => cases hcall
  | entering id query =>
    cases hcall
    rcases r.reserve_cases id with hr | ⟨hid, hfree, hr⟩
    · rw [serveLocal, hr] at h
      cases h
      exact ⟨_, rfl, .refused _⟩
    · rw [serveLocal, hr] at h
      cases h
      exact ⟨_, rfl, .reserves hid hfree⟩
  | storing task =>
    cases hcall
    cases h
    exact ⟨_, rfl, .stores rfl⟩
  | leaving id e =>
    cases hcall
    cases h
    exact ⟨_, rfl, .leaves⟩

/-- An answer from outside that a trigger receives is a move of the trigger. -/
theorem moves_of_receive {reply : Reply}
    (h : receive t r (.at (phase.call op args)) reply = some (r', p')) :
    ∃ phase' : Phase, p' = .at (phase'.call op args) ∧
      phase.Moves op args r r' phase' reply.execution? := by
  cases phase with
  | entering id query => cases reply <;> cases h
  | storing task => cases reply <;> cases h
  | leaving id e => cases reply <;> cases h
  | ended result => cases reply <;> cases h
  | naming query =>
    cases reply with
    | newId id => cases h; exact ⟨_, rfl, .names id⟩
    | time | order | started | state | rows => cases h
  | starting id query =>
    cases reply with
    | started answer =>
      cases h
      cases answer with
      | ok execution => exact ⟨.recording id execution, rfl, .started execution⟩
      | error e => exact ⟨.leaving id e, rfl, .failed e⟩
    | time | newId | order | state | rows => cases h
  | recording id execution =>
    cases reply with
    | time now => cases h; exact ⟨_, rfl, .timed now⟩
    | newId | order | started | state | rows => cases h

end Phase

end Tracker

end SchemaQuery
