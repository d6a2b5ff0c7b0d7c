import SchemaQuery.Execution.Record
import SchemaQuery.Task.Basic
import SchemaQuery.Wire.Decoder

/-!
The JSON forms of executions: states, records of results, and what an engine sends as a report. A state
is a record of its name and, for a failure, the reason.
-/

namespace SchemaQuery

open Decoder (member memberOrNull)

/-- Reads the id of an execution. -/
def ExecutionId.decoder : Decoder ExecutionId := fun room node =>
  (Decoder.string room node).map .mk

/-- A state is written by its name and the reason of a failure. -/
def ExecutionState.toJson : ExecutionState → Json
  | .running => .ofFields [("state", .string "running")]
  | .succeeded => .ofFields [("state", .string "succeeded")]
  | .failed reason =>
    .ofFields [("state", .string "failed"), ("reason", .ofOption .string reason)]
  | .cancelled => .ofFields [("state", .string "cancelled")]

/-- Reads a state. -/
def ExecutionState.decoder : Decoder ExecutionState :=
  .tagged "state" fun room state content =>
    match state with
    | "running" => (Decoder.noContent content).map fun _ => .running
    | "succeeded" => (Decoder.noContent content).map fun _ => .succeeded
    | "cancelled" => (Decoder.noContent content).map fun _ => .cancelled
    | "failed" =>
      Decoder.record ["reason"] (fun room slot => do
        return .failed (← memberOrNull Decoder.string room (slot "reason"))) room content
    | _ => none

/-- Records are written as objects. -/
def Record.listToJson (rows : List Record) : Json := .array (rows.map Json.ofDictionary)

/-- Reads records. -/
def Record.listDecoder : Decoder (List Record) := .list (.dictionary .json)

/-- A notification is written as a record. -/
def Notification.toJson (n : Notification) : Json :=
  .ofFields [("executionId", .string n.execution.text), ("status", n.state.toJson)]

/-- Reads a notification. -/
def Notification.decoder : Decoder Notification :=
  .record ["executionId", "status"] fun room slot => do
    return {
      execution := ← member ExecutionId.decoder room (slot "executionId")
      state := ← member ExecutionState.decoder room (slot "status") }

/-- A report as an engine sends it: the execution, the engine's name for its state, and a reason. -/
structure Report where
  execution : ExecutionId
  state : String
  reason : Option String
deriving DecidableEq, Repr

/-- Reads a report. -/
def Report.decoder : Decoder Report :=
  .record ["executionId", "state", "reason"] fun room slot => do
    return {
      execution := ← member ExecutionId.decoder room (slot "executionId")
      state := ← member Decoder.string room (slot "state")
      reason := ← memberOrNull Decoder.string room (slot "reason") }

/-- The notification that a text reports: first it has to be a report, then its state has to be known. -/
def Notification.ofText (s : String) : Except Error Notification := do
  let report ← Report.decoder.read s
  Notification.ofReport report.execution report.state report.reason

end SchemaQuery
