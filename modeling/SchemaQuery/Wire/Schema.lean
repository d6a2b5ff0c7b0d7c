import SchemaQuery.Schema.Operation
import SchemaQuery.Wire.Query

/-!
The JSON forms of metadata and operations. An owner is a record of its kind and, for a type, the name of
the type; a behaviour is a record of its kind and, for a data access, the template.
-/

namespace SchemaQuery

open Decoder (member memberOrNull)
open Json (Node)

/-- A set of names is written as an array. -/
def NameSet.toJson (s : NameSet) : Json := .array (s.names.map .string)

/-! ### Owners -/

namespace FieldOwner

/-- An owner is written by its kind and the name of a type. -/
def toJson : FieldOwner → Json
  | .query => .ofFields [("kind", .string "query")]
  | .mutation => .ofFields [("kind", .string "mutation")]
  | .type name => .ofFields [("kind", .string "type"), ("type", .string name)]

/-- The kinds of owners. -/
inductive Kind where
  | query
  | mutation
  | type

/-- Reads the kind of an owner. -/
def Kind.decoder : Decoder Kind :=
  .choice [("query", .query), ("mutation", .mutation), ("type", .type)]

/-- The owner of a kind with the given content. The roots have none: it is null, or, where it is given
before the kind, an object without members. -/
def ofContent (kind : Kind) (contentFirst : Bool) (content : Node) : Option FieldOwner :=
  let empty := match content with
    | .null => true
    | .object [] => contentFirst
    | _ => false
  match kind, content with
  | .type, .string (some name) => some (.type name)
  | .type, _ => none
  | .query, _ => if empty then some .query else none
  | .mutation, _ => if empty then some .mutation else none

/-- The owner of a kind without content. -/
def ofKind : Kind → Option FieldOwner
  | .query => some .query
  | .mutation => some .mutation
  | .type => none

/-- Reads an owner. -/
def decoder : Decoder FieldOwner := fun room node =>
  if room = 0 then none
  else match node with
    | .object ms => do
      match (← Decoder.members ms).filter fun m => m.1 = "kind" ∨ m.1 = "type" with
      | [("kind", kind)] => ofKind (← Kind.decoder (room - 1) kind)
      | [("kind", kind), ("type", content)] =>
        ofContent (← Kind.decoder (room - 1) kind) false content
      | [("type", content), ("kind", kind)] =>
        let _ ← Decoder.json (room - 1) content
        ofContent (← Kind.decoder (room - 1) kind) true content
      | _ => none
    | .array [kind, content] => do ofContent (← Kind.decoder (room - 1) kind) false content
    | _ => none

end FieldOwner

/-! ### Metadata -/

/-- A shape is written by its name. -/
def ReturnShape.toJson (shape : ReturnShape) : Json := .string shape.name

/-- Reads a shape. -/
def ReturnShape.decoder : Decoder ReturnShape := .choice (all.map fun shape => (shape.name, shape))

/-- A behaviour is written by its kind and the template. -/
def Behaviour.toJson : Behaviour → Json
  | .plain => .ofFields [("kind", .string "no_directive")]
  | .dataAccess template => .ofFields [("kind", .string "data_access"), ("template", .string template)]
  | .taskResponse => .ofFields [("kind", .string "task_response")]
  | .resolver => .ofFields [("kind", .string "resolver")]

/-- Reads a behaviour. -/
def Behaviour.decoder : Decoder Behaviour :=
  .tagged "kind" fun room kind content =>
    match kind with
    | "no_directive" => (Decoder.noContent content).map fun _ => .plain
    | "task_response" => (Decoder.noContent content).map fun _ => .taskResponse
    | "resolver" => (Decoder.noContent content).map fun _ => .resolver
    | "data_access" =>
      Decoder.record ["template"] (fun room slot => do
        return .dataAccess (← member Decoder.string room (slot "template"))) room content
    | _ => none

/-- An argument is written as a record. -/
def ArgumentInfo.toJson (a : ArgumentInfo) : Json :=
  .ofFields [("name", .string a.name), ("type_name", .string a.typeName),
    ("required", .bool a.required), ("list", .bool a.list)]

/-- Reads an argument. -/
def ArgumentInfo.decoder : Decoder ArgumentInfo :=
  .record ["name", "type_name", "required", "list"] fun room slot => do
    return {
      name := ← member Decoder.string room (slot "name")
      typeName := ← member Decoder.string room (slot "type_name")
      required := ← member Decoder.bool room (slot "required")
      list := ← member Decoder.bool room (slot "list") }

/-- A field is written as a record. -/
def FieldInfo.toJson (f : FieldInfo) : Json :=
  .ofFields [("name", .string f.name), ("type_name", .string f.typeName),
    ("required", .bool f.required), ("list", .bool f.list),
    ("arguments", .array (f.arguments.map ArgumentInfo.toJson)),
    ("directive", f.behaviour.toJson), ("task", .bool f.task),
    ("return_shape", .ofOption ReturnShape.toJson f.returnShape)]

/-- Reads a field. -/
def FieldInfo.decoder : Decoder FieldInfo :=
  .record ["name", "type_name", "required", "list", "arguments", "directive", "task", "return_shape"]
    fun room slot => do
      return {
        name := ← member Decoder.string room (slot "name")
        typeName := ← member Decoder.string room (slot "type_name")
        required := ← member Decoder.bool room (slot "required")
        list := ← member Decoder.bool room (slot "list")
        arguments := ← member (Decoder.list ArgumentInfo.decoder) room (slot "arguments")
        behaviour := ← member Behaviour.decoder room (slot "directive")
        task := ← member Decoder.bool room (slot "task")
        returnShape := ← memberOrNull ReturnShape.decoder room (slot "return_shape") }

/-- A type is written as a record. -/
def TypeInfo.toJson (t : TypeInfo) : Json :=
  .ofFields [("name", .string t.name), ("fields", .array (t.fields.map FieldInfo.toJson)),
    ("resolver", .bool t.resolver), ("primitive", .bool t.primitive),
    ("task_response", .bool t.taskResponse)]

/-- Reads a type. -/
def TypeInfo.decoder : Decoder TypeInfo :=
  .record ["name", "fields", "resolver", "primitive", "task_response"] fun room slot => do
    return {
      name := ← member Decoder.string room (slot "name")
      fields := ← member (Decoder.list FieldInfo.decoder) room (slot "fields")
      resolver := ← member Decoder.bool room (slot "resolver")
      primitive := ← member Decoder.bool room (slot "primitive")
      taskResponse := ← member Decoder.bool room (slot "task_response") }

/-- Metadata is written as a record. -/
def Metadata.toJson (m : Metadata) : Json :=
  .ofFields [("types", .array (m.types.map TypeInfo.toJson)),
    ("queries", .array (m.queries.map FieldInfo.toJson)),
    ("mutations", .array (m.mutations.map FieldInfo.toJson)),
    ("enums", .array (m.enums.map .string)), ("join_tables", m.joinTables.toJson)]

/-- Reads metadata. -/
def Metadata.decoder : Decoder Metadata :=
  .record ["types", "queries", "mutations", "enums", "join_tables"] fun room slot => do
    return {
      types := ← member (Decoder.list TypeInfo.decoder) room (slot "types")
      queries := ← member (Decoder.list FieldInfo.decoder) room (slot "queries")
      mutations := ← member (Decoder.list FieldInfo.decoder) room (slot "mutations")
      enums := ← member (Decoder.list Decoder.string) room (slot "enums")
      joinTables := ← member Decoder.nameSet room (slot "join_tables") }

/-! ### Operations -/

/-- An operation is written as a record. -/
def Operation.toJson (op : Operation) : Json :=
  .ofFields [("owner", op.owner.toJson), ("field", .string op.field),
    ("template", op.template.toJson), ("task", .bool op.task),
    ("response_type", .string op.responseType), ("list", .bool op.list),
    ("return_shape", .ofOption ReturnShape.toJson op.returnShape)]

/-- Reads an operation. -/
def Operation.decoder : Decoder Operation :=
  .record ["owner", "field", "template", "task", "response_type", "list", "return_shape"]
    fun room slot => do
      return {
        owner := ← member FieldOwner.decoder room (slot "owner")
        field := ← member Decoder.string room (slot "field")
        template := ← member PreparedTemplate.decoder room (slot "template")
        task := ← member Decoder.bool room (slot "task")
        responseType := ← member Decoder.string room (slot "response_type")
        list := ← member Decoder.bool room (slot "list")
        returnShape := ← memberOrNull ReturnShape.decoder room (slot "return_shape") }

/-- A set of operations is written as a record. -/
def OperationSet.toJson (s : OperationSet) : Json :=
  .ofFields [("operations", .array (s.operations.map Operation.toJson)),
    ("join_tables", s.joinTables.toJson)]

/-- Reads a set of operations. -/
def OperationSet.decoder : Decoder OperationSet :=
  .record ["operations", "join_tables"] fun room slot => do
    return {
      operations := ← member (Decoder.list Operation.decoder) room (slot "operations")
      joinTables := ← member Decoder.nameSet room (slot "join_tables") }

end SchemaQuery
