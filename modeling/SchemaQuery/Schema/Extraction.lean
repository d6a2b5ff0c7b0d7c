import SchemaQuery.Query.JoinTable
import SchemaQuery.Schema.Metadata
import SchemaQuery.Sdl.Document

/-!
From a document to what it says. Blocks of one object type are put together at the place of the first
of them. The roots are the types that the last schema block to name one names, or else `Query` and
`Mutation`; a type that is both counts as the query root. Every other object type, and after those every
scalar, becomes a type of its own. Directives are found by their names, and the first of a name counts.
-/

namespace SchemaQuery

open Sdl (Document Definition Block Field Directive Literal TypeRef)

/-! ### Types and directives -/

namespace Sdl

/-- The name inside all wrappers of a type. -/
def TypeRef.core : TypeRef → String
  | .named name => name
  | .list inner => inner.core
  | .required inner => inner.core

/-- Whether a value always has to be there. -/
def TypeRef.isRequired : TypeRef → Bool
  | .required _ => true
  | _ => false

/-- Whether there is a list among the wrappers of a type. -/
def TypeRef.isList : TypeRef → Bool
  | .named _ => false
  | .list _ => true
  | .required inner => inner.isList

/-- The first directive of a name. -/
def directive? (directives : List Directive) (name : String) : Option Directive :=
  directives.find? (·.name = name)

/-- The first argument of a name. -/
def Directive.argument? (d : Directive) (name : String) : Option Literal := d.arguments.lookup name

/-- The behaviour of a field: a `sql` directive gives it a template, which is its argument `query`. An
argument that is missing or no string is an empty template. -/
def fieldBehaviour (directives : List Directive) : Behaviour :=
  match directive? directives "sql" with
  | none => .plain
  | some sql =>
    match sql.argument? "query" with
    | some (.string template) => .dataAccess template
    | _ => .dataAccess ""

/-- The behaviour of a type; a report counts before a resolver. -/
def typeBehaviour (directives : List Directive) : Behaviour :=
  if (directive? directives "task_response").isSome then .taskResponse
  else if (directive? directives "resolver").isSome then .resolver
  else .plain

/-- The shape that a `returns` directive declares, by an enumeration value or a string. -/
def declaredShape (directives : List Directive) : Option ReturnShape := do
  let returns ← directive? directives "returns"
  match ← returns.argument? "shape" with
  | .enumValue name => ReturnShape.parse? name
  | .string name => ReturnShape.parse? name
  | _ => none

/-- What an argument says. -/
def Argument.info (a : Argument) : ArgumentInfo :=
  ⟨a.name, a.type.core, a.type.isRequired, a.type.isList⟩

/-- What a field says; `task` for the fields of the query root. -/
def Field.info (task : Bool) (f : Field) : FieldInfo where
  name := f.name
  typeName := f.type.core
  required := f.type.isRequired
  list := f.type.isList
  arguments := f.arguments.map Argument.info
  behaviour := fieldBehaviour f.directives
  task := task
  returnShape := declaredShape f.directives

/-! ### Blocks and roots -/

/-- The block of an object type that a definition is. -/
def Definition.block? : Definition → Option Block
  | .object block => some block
  | .extension block => some block
  | _ => none

/-- The scalar that a definition defines. -/
def Definition.scalar? : Definition → Option String
  | .scalar name => some name
  | _ => none

/-- The enumeration that a definition defines. -/
def Definition.enumeration? : Definition → Option String
  | .enumeration name => some name
  | _ => none

/-- Puts a block together with the type it belongs to, or behind all others if it is the first of its
type. -/
def mergeBlock (types : List Block) (block : Block) : List Block :=
  match types with
  | [] => [block]
  | t :: ts =>
    if t.name = block.name then
      ⟨t.name, t.directives ++ block.directives, t.fields ++ block.fields⟩ :: ts
    else t :: mergeBlock ts block

/-- The object types of a document, each with all its blocks. -/
def Document.objects (doc : Document) : List Block :=
  (doc.filterMap Definition.block?).foldl mergeBlock []

/-- The names of the roots. -/
structure Roots where
  query : String
  mutation : String
deriving DecidableEq, Repr

/-- The roots once a definition is read. -/
def Roots.after (roots : Roots) : Definition → Roots
  | .schema query mutation => ⟨query.getD roots.query, mutation.getD roots.mutation⟩
  | _ => roots

/-- The roots of a document. -/
def Document.roots (doc : Document) : Roots := doc.foldl Roots.after ⟨"Query", "Mutation"⟩

end Sdl

/-! ### Metadata -/

/-- The names in the macros of a field's template. -/
def FieldInfo.tableNames (f : FieldInfo) : List String := (f.template?.map JoinMacro.names).getD []

/-- What some fields say, one after the other, and the names of join tables that are known so far
together with those that the fields mention. -/
def Sdl.readFields (task : Bool) : List Field → NameSet → List FieldInfo × NameSet
  | [], known => ([], known)
  | f :: rest, known =>
    let info := f.info task
    let (infos, known) := readFields task rest (known.addAll info.tableNames)
    (info :: infos, known)

namespace TypeInfo

/-- What an object type with these fields says that is no root. -/
def ofBlock (b : Block) (fields : List FieldInfo) : TypeInfo where
  name := b.name
  fields := fields
  resolver := Sdl.typeBehaviour b.directives = .resolver
  primitive := false
  taskResponse := Sdl.typeBehaviour b.directives = .taskResponse

/-- What a scalar says. -/
def ofScalar (name : String) : TypeInfo := ⟨name, [], false, true, false⟩

end TypeInfo

namespace Metadata

/-- All fields, in the order in which templates are prepared: queries, mutations, then every type. -/
def fields (m : Metadata) : List FieldInfo :=
  m.queries ++ m.mutations ++ m.types.flatMap TypeInfo.fields

/-- What is known once one more object type is read. -/
def readType (roots : Sdl.Roots) (m : Metadata) (b : Block) : Metadata :=
  if b.name = roots.query then
    let (queries, joinTables) := Sdl.readFields true b.fields m.joinTables
    { m with queries, joinTables }
  else
    let (fields, joinTables) := Sdl.readFields false b.fields m.joinTables
    if b.name = roots.mutation then { m with mutations := fields, joinTables }
    else { m with types := m.types ++ [.ofBlock b fields], joinTables }

/-- What a document says. The types are read one after the other, and the names of join tables gather
on the way. -/
def ofDocument (doc : Document) : Metadata :=
  let m := doc.objects.foldl (readType doc.roots) ⟨[], [], [], [], ∅⟩
  { m with
    types := m.types ++ (doc.filterMap Definition.scalar?).map .ofScalar
    enums := doc.filterMap Definition.enumeration? }

end Metadata

end SchemaQuery
