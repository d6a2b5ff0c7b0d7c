/-!
Executions: the engine names each with an id and reports its state. Engines use names of their own
for the states; a queued or submitted execution counts as running.
-/

namespace SchemaQuery

/-- The id that the engine gives to one execution. -/
structure ExecutionId where
  text : String
deriving DecidableEq, Repr

/-- The state of an execution as the engine reports it. -/
inductive ExecutionState where
  | running
  | succeeded
  | failed (reason : Option String)
  | cancelled
deriving DecidableEq, Repr

namespace ExecutionState

/-- The state behind an engine's name for it, in any letter case; a reason is kept for a failure. -/
def parse? (name : String) (reason : Option String) : Option ExecutionState :=
  let name := String.ofList (name.toList.map Char.toUpper)
  if name ∈ ["QUEUED", "SUBMITTED", "PENDING", "RUNNING"] then some .running
  else if name ∈ ["SUCCEEDED", "SUCCESS", "COMPLETED"] then some .succeeded
  else if name ∈ ["FAILED", "ERROR"] then some (.failed reason)
  else if name ∈ ["CANCELLED", "CANCELED"] then some .cancelled
  else none

/-- Whether the execution has ended. -/
def isTerminal : ExecutionState → Bool
  | .running => false
  | _ => true

/-- The state in words. -/
def text : ExecutionState → String
  | .running => "running"
  | .succeeded => "succeeded"
  | .failed (some reason) => "failed: " ++ reason
  | .failed none => "failed"
  | .cancelled => "cancelled"

end ExecutionState

end SchemaQuery
