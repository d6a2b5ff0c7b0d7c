import SchemaQuery.Task.Basic
import SchemaQuery.Wire.Argument
import SchemaQuery.Wire.Execution

/-!
The JSON forms of tasks and of what clients are shown of them. Times are texts. What a client is shown
leaves an error out that there is not.
-/

namespace SchemaQuery

open Decoder (member memberOrNull memberOr)

/-- An instant is written as its text. -/
def Instant.toJson (t : Instant) : Json := .string t.text

/-- Reads an instant. -/
def Instant.decoder : Decoder Instant := fun room node => (Decoder.string room node).bind Instant.read?

/-- Reads the id of a task. -/
def TaskId.decoder : Decoder TaskId := fun room node => (Decoder.string room node).map .mk

/-- A status is written by its name. -/
def TaskStatus.toJson (status : TaskStatus) : Json := .string status.name

/-- Reads a status. -/
def TaskStatus.decoder : Decoder TaskStatus := .choice (all.map fun status => (status.name, status))

/-- A status that is shown is written by its name. -/
def ViewStatus.toJson (status : ViewStatus) : Json := .string status.name

/-- Reads a status that is shown. -/
def ViewStatus.decoder : Decoder ViewStatus := .choice (all.map fun status => (status.name, status))

/-- A task is written as a record. -/
def Task.toJson (t : Task) : Json :=
  .ofFields [("id", .string t.id.text), ("field", .string t.field),
    ("arguments", t.arguments.toJson), ("status", t.status.toJson),
    ("execution_id", .string t.execution.text), ("started_at", t.startedAt.toJson),
    ("finished_at", .ofOption Instant.toJson t.finishedAt),
    ("result", .ofOption Record.listToJson t.result), ("error", .ofOption .string t.error)]

/-- Reads a task. -/
def Task.decoder : Decoder Task :=
  .record ["id", "field", "arguments", "status", "execution_id", "started_at", "finished_at",
      "result", "error"]
    fun room slot => do
      return {
        id := ← member TaskId.decoder room (slot "id")
        field := ← member Decoder.string room (slot "field")
        arguments := ← member Arguments.decoder room (slot "arguments")
        status := ← member TaskStatus.decoder room (slot "status")
        execution := ← member ExecutionId.decoder room (slot "execution_id")
        startedAt := ← member Instant.decoder room (slot "started_at")
        finishedAt := ← memberOrNull Instant.decoder room (slot "finished_at")
        result := ← memberOrNull Record.listDecoder room (slot "result")
        error := ← memberOrNull Decoder.string room (slot "error") }

/-- What a client is shown is written as a record, with an error only if there is one. -/
def StatusView.toJson (v : StatusView) : Json :=
  .ofFields <|
    [("status", v.status.toJson), ("result", .ofOption Record.listToJson v.result),
      ("startedAt", v.startedAt.toJson), ("finishedAt", .ofOption Instant.toJson v.finishedAt)]
    ++ match v.error with
      | some error => [("error", .string error)]
      | none => []

/-- Reads what a client is shown. -/
def StatusView.decoder : Decoder StatusView :=
  .record ["status", "result", "startedAt", "finishedAt", "error"] fun room slot => do
    return {
      status := ← member ViewStatus.decoder room (slot "status")
      result := ← memberOrNull Record.listDecoder room (slot "result")
      startedAt := ← member Instant.decoder room (slot "startedAt")
      finishedAt := ← memberOrNull Instant.decoder room (slot "finishedAt")
      error := ← memberOr (Decoder.nullable Decoder.string) none room (slot "error") }

end SchemaQuery
