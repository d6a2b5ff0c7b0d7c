import SchemaQuery.Query.JoinTable
import SchemaQuery.Time.Span

/-!
The configuration: names of join tables, and how long tasks and calls may take. Numbers of seconds fit
64 bits without sign.
-/

namespace SchemaQuery

/-- How tasks are kept. -/
structure TaskConfig where
  /-- Tasks that run longer than this are failed; without it they may run for ever. -/
  maxAgeSecs : Option UInt64
  /-- The time between two sweeps. -/
  sweepIntervalSecs : UInt64
  /-- How long a call of the engine may take. -/
  engineTimeoutSecs : UInt64
deriving DecidableEq, Repr

namespace TaskConfig

/-- No greatest age, a sweep every minute, half a minute for the engine. -/
def standard : TaskConfig := ⟨none, 60, 30⟩

instance : Inhabited TaskConfig := ⟨standard⟩

/-- The greatest age of a running task. -/
def maxAge (c : TaskConfig) : Option Span := c.maxAgeSecs.map fun n => .ofSeconds n.toNat

/-- The time between two sweeps, at least one second. -/
def sweepInterval (c : TaskConfig) : Span := .ofSeconds (max 1 c.sweepIntervalSecs.toNat)

/-- How long a call of the engine may take. -/
def engineTimeout (c : TaskConfig) : Span := .ofSeconds c.engineTimeoutSecs.toNat

end TaskConfig

/-- A configuration. -/
structure Config where
  joinTables : TableNaming
  tasks : TaskConfig
deriving DecidableEq

instance : Inhabited Config := ⟨default, default⟩

end SchemaQuery
