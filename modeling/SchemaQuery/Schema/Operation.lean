import SchemaQuery.Config
import SchemaQuery.Query.Template
import SchemaQuery.Schema.Extraction
import SchemaQuery.Schema.Shape

/-!
Operations: the fields that have templates, all prepared together. The order is that of the queries,
the mutations and the fields of the types. If one template cannot be prepared there are no operations at
all, so a set of operations never lacks a field.
-/

namespace SchemaQuery

/-- A field with its prepared template. -/
structure Operation where
  owner : FieldOwner
  field : String
  template : PreparedTemplate
  /-- Whether the operation runs as a task; the queries of the root do. -/
  task : Bool
  responseType : String
  list : Bool
  returnShape : Option ReturnShape
deriving DecidableEq

/-- The query of an operation with arguments. -/
def Operation.render (op : Operation) (args : Arguments) : Except Error CompiledQuery :=
  op.template.render args

/-- All fields of a schema with their owners, in the order in which they are prepared. -/
def Metadata.ownedFields (m : Metadata) : List (FieldOwner × FieldInfo) :=
  m.queries.map (FieldOwner.query, ·) ++ m.mutations.map (FieldOwner.mutation, ·)
    ++ m.types.flatMap fun t => t.fields.map (FieldOwner.type t.name, ·)

/-- The operation of a field, or nothing if the field has no template. -/
def Operation.prepare? (tables : JoinTables) (owner : FieldOwner) (f : FieldInfo) :
    Except Error (Option Operation) :=
  match f.template? with
  | none => .ok none
  | some template =>
    match tables.prepare template with
    | .error fault => .error (.compile (.ofField owner f.name fault))
    | .ok prepared =>
      .ok (some ⟨owner, f.name, prepared, owner = .query, f.typeName, f.list, f.returnShape⟩)

/-- The operations of a schema. -/
structure OperationSet where
  operations : List Operation
  joinTables : NameSet
deriving DecidableEq

namespace OperationSet

/-- The operations of all fields; the first field whose template cannot be prepared decides the
error. -/
def build (m : Metadata) (tables : JoinTables) : Except Error OperationSet := do
  let prepared ← m.ownedFields.mapM fun (owner, f) => Operation.prepare? tables owner f
  return ⟨prepared.filterMap id, m.joinTables⟩

/-- The first operation of a field. -/
def get? (s : OperationSet) (owner : FieldOwner) (field : String) : Option Operation :=
  s.operations.find? fun op => op.owner = owner ∧ op.field = field

/-- The operations that run as tasks. -/
def tasks (s : OperationSet) : List Operation := s.operations.filter (·.task)

/-- The operation that a text names: `owner.field`, or a field of a root, the query root first. Only
the first point divides, and the standard names of the roots always mean the roots. -/
def find? (s : OperationSet) (name : String) : Option Operation :=
  let owner := name.toList.takeWhile (· ≠ '.')
  match name.toList.dropWhile (· ≠ '.') with
  | [] => (s.get? .query name).or (s.get? .mutation name)
  | _ :: field =>
    let field := String.ofList field
    if owner = FieldOwner.query.text.toList then s.get? .query field
    else if owner = FieldOwner.mutation.text.toList then s.get? .mutation field
    else s.get? (.type (String.ofList owner)) field

end OperationSet

/-- A schema with its join tables and operations. -/
structure CompiledSchema where
  metadata : Metadata
  joinTables : JoinTables
  set : OperationSet

namespace CompiledSchema

/-- Compiles metadata: the join tables first, then the operations. -/
def ofMetadata (m : Metadata) (config : Config) : Except Error CompiledSchema := do
  let tables ← (JoinTables.build config.joinTables m.joinTables.names).mapError .config
  let set ← OperationSet.build m tables
  return ⟨m, tables, set⟩

end CompiledSchema

end SchemaQuery
