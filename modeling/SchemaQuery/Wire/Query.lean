import SchemaQuery.Query.Template
import SchemaQuery.Wire.Argument

/-!
The JSON forms of kinds, prepared templates and compiled queries.
-/

namespace SchemaQuery

/-- A kind is written by its name. -/
def QueryKind.toJson (kind : QueryKind) : Json := .string kind.name

/-- Reads a kind. -/
def QueryKind.decoder : Decoder QueryKind := .choice (all.map fun kind => (kind.name, kind))

/-- A prepared template is written as its text and its kind. -/
def PreparedTemplate.toJson (t : PreparedTemplate) : Json :=
  .ofFields [("text", .string t.text), ("kind", t.kind.toJson)]

/-- Reads a prepared template. -/
def PreparedTemplate.decoder : Decoder PreparedTemplate :=
  .record ["text", "kind"] fun room slot => do
    return ⟨← Decoder.member Decoder.string room (slot "text"),
      ← Decoder.member QueryKind.decoder room (slot "kind")⟩

/-- A compiled query is written as its text and its kind. -/
def CompiledQuery.toJson (q : CompiledQuery) : Json :=
  .ofFields [("query", .string q.query), ("kind", q.kind.toJson)]

/-- Reads a compiled query. -/
def CompiledQuery.decoder : Decoder CompiledQuery :=
  .record ["query", "kind"] fun room slot => do
    return ⟨← Decoder.member Decoder.string room (slot "query"),
      ← Decoder.member QueryKind.decoder room (slot "kind")⟩

end SchemaQuery
