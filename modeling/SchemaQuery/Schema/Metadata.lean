import SchemaQuery.Collection.Dictionary

/-!
What a schema says, with all blocks of a type put together: the fields of both roots, the other object
types and the scalars, and for every field how its data is had. Names of types and fields keep the
order in which the schema mentions them.
-/

namespace SchemaQuery

/-- How the answer of a mutation looks. -/
inductive ReturnShape where
  | rows
  | row
  | ack
deriving DecidableEq, Repr

namespace ReturnShape

/-- Every shape. -/
def all : List ReturnShape := [.rows, .row, .ack]

/-- The name of a shape. -/
def name : ReturnShape → String
  | .rows => "rows"
  | .row => "row"
  | .ack => "ack"

/-- The shape with this name, in any letter case. -/
def parse? (s : String) : Option ReturnShape :=
  all.find? fun shape => shape.name.toList.map Char.toUpper = s.toList.map Char.toUpper

end ReturnShape

/-- What the directives of a field or a type ask for. -/
inductive Behaviour where
  /-- Nothing. -/
  | plain
  /-- The field is had by a query with this template. -/
  | dataAccess (template : String)
  /-- The type reports on a task. -/
  | taskResponse
  /-- The type has a resolver of its own. -/
  | resolver
deriving DecidableEq, Repr

/-- The query template, if there is one. -/
def Behaviour.template? : Behaviour → Option String
  | .dataAccess template => some template
  | _ => none

/-- An argument of a field. -/
structure ArgumentInfo where
  name : String
  /-- The name inside all wrappers of the type. -/
  typeName : String
  required : Bool
  list : Bool
deriving DecidableEq, Repr

/-- A field of a root or an object type. -/
structure FieldInfo where
  name : String
  /-- The name inside all wrappers of the type. -/
  typeName : String
  required : Bool
  list : Bool
  arguments : List ArgumentInfo
  behaviour : Behaviour
  /-- Whether the field is a query of the root, which runs as a task. -/
  task : Bool
  returnShape : Option ReturnShape
deriving DecidableEq, Repr

namespace FieldInfo

/-- The query template of a field, if it has one. -/
def template? (f : FieldInfo) : Option String := f.behaviour.template?

/-- The argument with this name. -/
def argument? (f : FieldInfo) (name : String) : Option ArgumentInfo :=
  f.arguments.find? (·.name = name)

end FieldInfo

/-- A type other than the roots: an object type or a scalar. -/
structure TypeInfo where
  name : String
  fields : List FieldInfo
  resolver : Bool
  /-- Whether the type is a scalar. -/
  primitive : Bool
  taskResponse : Bool
deriving DecidableEq, Repr

namespace TypeInfo

/-- Whether the type stands for stored records: it is no scalar, no report and has no resolver. -/
def isStored (t : TypeInfo) : Bool := !(t.primitive || t.resolver || t.taskResponse)

/-- The field with this name. -/
def field? (t : TypeInfo) (name : String) : Option FieldInfo := t.fields.find? (·.name = name)

end TypeInfo

/-- What a schema says. -/
structure Metadata where
  types : List TypeInfo
  queries : List FieldInfo
  mutations : List FieldInfo
  enums : List String
  /-- The names of the join tables that the templates mention. -/
  joinTables : NameSet
deriving DecidableEq

namespace Metadata

/-- The type with this name. -/
def type? (m : Metadata) (name : String) : Option TypeInfo := m.types.find? (·.name = name)

/-- The query with this name. -/
def query? (m : Metadata) (name : String) : Option FieldInfo := m.queries.find? (·.name = name)

/-- The mutation with this name. -/
def mutation? (m : Metadata) (name : String) : Option FieldInfo :=
  m.mutations.find? (·.name = name)

/-- The types that stand for stored records. -/
def storedTypes (m : Metadata) : List TypeInfo := m.types.filter TypeInfo.isStored

end Metadata

end SchemaQuery
