import SchemaQuery.Collection.Keyed
import SchemaQuery.Error
import SchemaQuery.Execution.Record
import SchemaQuery.Query.Template
import SchemaQuery.Time.Instant

/-!
An engine in memory, whose executions are ended by hand. Each accepted start makes a new running
execution; a refused one makes none and takes no id. Fetching counts whether it succeeds or not. Both
counts are machine numbers and begin again at zero behind the largest one.
-/

namespace SchemaQuery

/-- An execution of the engine in memory. -/
structure MemoryExecution where
  query : String
  state : ExecutionState
  rows : List Record
  /-- Why the result cannot be fetched, if it cannot. -/
  broken : Option String

/-- The engine in memory. -/
structure MemoryEngine where
  executions : Keyed ExecutionId MemoryExecution
  /-- How many starts were accepted, counted in 64 bits. -/
  accepted : UInt64
  /-- How many times a result was asked for, counted in 64 bits. -/
  asked : UInt64
  /-- Why starts are refused, if they are. -/
  refusal : Option String

namespace MemoryEngine

/-- The engine before its first start. -/
def empty : MemoryEngine := ⟨∅, 0, 0, none⟩

instance : Inhabited MemoryEngine := ⟨empty⟩

/-- The id of the `n`th execution: its number in at least four digits. -/
def idOf (n : Nat) : ExecutionId := ⟨"exec-" ++ String.ofList (Instant.padded 4 n)⟩

/-! ### The calls of an engine -/

/-- Starts a query. If its id was ever given before, it is that of the new execution from now on. -/
def start (e : MemoryEngine) (q : CompiledQuery) : MemoryEngine × Except Error ExecutionId :=
  match e.refusal with
  | some reason => (e, .error (.engine (.other reason)))
  | none =>
    let id := idOf (e.accepted + 1).toNat
    ({ e with
        executions := (e.executions.erase id).add id ⟨q.query, .running, [], none⟩
        accepted := e.accepted + 1 }, .ok id)

/-- The state of an execution. -/
def state (e : MemoryEngine) (id : ExecutionId) : Except Error ExecutionState :=
  match e.executions.get? id with
  | some x => .ok x.state
  | none => .error (.engine (.unknownExecution id))

/-- The result of an execution, as it can be fetched now. -/
def result (e : MemoryEngine) (id : ExecutionId) : Except Error (List Record) :=
  match e.executions.get? id with
  | none => .error (.engine (.unknownExecution id))
  | some x =>
    match x.broken with
    | some reason => .error (.engine (.other reason))
    | none =>
      if x.state = .succeeded then .ok x.rows else .error (.engine (.noResult id x.state))

/-- Fetches the result of an execution. -/
def fetch (e : MemoryEngine) (id : ExecutionId) : MemoryEngine × Except Error (List Record) :=
  ({ e with asked := e.asked + 1 }, e.result id)

/-! ### What is done to executions by hand -/

/-- Changes an execution, and tells whether there is one. -/
def update (e : MemoryEngine) (id : ExecutionId) (f : MemoryExecution → MemoryExecution) :
    MemoryEngine × Bool :=
  ({ e with executions := e.executions.modify id f }, e.executions.contains id)

/-- Ends an execution with rows. -/
def complete (e : MemoryEngine) (id : ExecutionId) (rows : List Record) : MemoryEngine × Bool :=
  e.update id fun x => { x with state := .succeeded, rows := rows }

/-- Ends an execution with a failure. -/
def fail (e : MemoryEngine) (id : ExecutionId) (reason : String) : MemoryEngine × Bool :=
  e.update id fun x => { x with state := .failed (some reason) }

/-- Ends an execution by cancelling it. -/
def cancel (e : MemoryEngine) (id : ExecutionId) : MemoryEngine × Bool :=
  e.update id fun x => { x with state := .cancelled }

/-- Makes the result of an execution impossible to fetch. -/
def breakResult (e : MemoryEngine) (id : ExecutionId) (reason : String) : MemoryEngine × Bool :=
  e.update id fun x => { x with broken := some reason }

/-- Refuses all starts from now on, or accepts them again. -/
def refuseStarts (e : MemoryEngine) (reason : Option String) : MemoryEngine :=
  { e with refusal := reason }

/-! ### What can be seen of the engine -/

/-- The query of an execution. -/
def query? (e : MemoryEngine) (id : ExecutionId) : Option String :=
  (e.executions.get? id).map (·.query)

/-- How many executions there are. -/
def started (e : MemoryEngine) : Nat := e.executions.size

/-- How many times a result was asked for, as far as it was counted. -/
def fetches (e : MemoryEngine) : Nat := e.asked.toNat

end MemoryEngine

end SchemaQuery
