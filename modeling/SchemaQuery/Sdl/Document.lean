/-!
Schema documents: the definitions of a document in their order, with as much of each as gives a schema
its meaning. What says nothing about objects, scalars, enumerations or roots is kept only as a place in
the order.
-/

namespace SchemaQuery.Sdl

/-- The type of a field or an argument as it is written. -/
inductive TypeRef where
  | named (name : String)
  | list (inner : TypeRef)
  | required (inner : TypeRef)
deriving DecidableEq, Repr

/-- A value that is written as an argument of a directive. -/
inductive Literal where
  | null
  | bool (b : Bool)
  | number (text : String)
  | string (text : String)
  | enumValue (name : String)
  | variableRef (name : String)
  | list (items : List Literal)
  | object (fields : List (String × Literal))
deriving Repr

/-- A directive with its arguments. -/
structure Directive where
  name : String
  arguments : List (String × Literal)
deriving Repr

/-- An argument of a field. -/
structure Argument where
  name : String
  type : TypeRef
deriving DecidableEq, Repr

/-- A field of an object type. -/
structure Field where
  name : String
  arguments : List Argument
  type : TypeRef
  directives : List Directive
deriving Repr

/-- One block of an object type; a type may have several. -/
structure Block where
  name : String
  directives : List Directive
  fields : List Field
deriving Repr

/-- A definition of a document. -/
inductive Definition where
  /-- A schema block with the root types that it names. -/
  | schema (query mutation : Option String)
  /-- A block that defines an object type. -/
  | object (block : Block)
  /-- A block that extends an object type. -/
  | extension (block : Block)
  | scalar (name : String)
  | enumeration (name : String)
  /-- An interface, union, input type or directive, or an extension of anything but an object. -/
  | other
deriving Repr

/-- A schema document. -/
abbrev Document := List Definition

end SchemaQuery.Sdl
