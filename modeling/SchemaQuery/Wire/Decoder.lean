import SchemaQuery.Error
import SchemaQuery.Json.Value

/-!
Decoders of JSON documents. A decoder is given the part of a document that it reads and how many
containers may still be nested in it. What nobody reads only has to be well-formed.

A record may be an object of its fields or an array of them in their order. As an object it may have
other members too, but no field twice; a field that may be null may be missing. As an array it has no
more items than fields, and only a field with a value of its own may be missing at the end.
-/

namespace SchemaQuery

open Json (Node)

/-- A decoder: from the room for nested containers and a part of a document to a value. -/
abbrev Decoder (α : Type) := Nat → Node → Option α

namespace Decoder

variable {α : Type}

/-- Any JSON value. -/
def json : Decoder Json := Json.ofNode?

/-- A string. -/
def string : Decoder String := fun _ node =>
  match node with
  | .string text => text
  | _ => none

/-- A truth value. -/
def bool : Decoder Bool := fun _ node =>
  match node with
  | .bool b => some b
  | _ => none

/-- An integer of 64 bits without sign. -/
def word : Decoder UInt64 := fun _ node =>
  match node with
  | .number n => n.integer?.bind fun i => if 0 ≤ i.value then some (.ofNat i.value.toNat) else none
  | _ => none

/-- Null, or what another decoder reads. -/
def nullable (d : Decoder α) : Decoder (Option α) := fun room node =>
  match node with
  | .null => some none
  | node => (d room node).map some

/-- An array. -/
def list (d : Decoder α) : Decoder (List α) := fun room node =>
  match node with
  | .array items => if room = 0 then none else items.mapM (d (room - 1))
  | _ => none

/-- The members of an object whose names all have text. -/
def members (members : List (Option String × Node)) : Option (List (String × Node)) :=
  members.mapM fun (name, node) => name.map (·, node)

/-- An object as a dictionary; the last member of a name counts. -/
def dictionary (d : Decoder α) : Decoder (Dictionary α) := fun room node =>
  match node with
  | .object ms =>
    if room = 0 then none
    else do
      let entries ← (← members ms).mapM fun (name, node) => (d (room - 1) node).map (name, ·)
      return Dictionary.ofList entries
  | _ => none

/-- An array of names as a set. -/
def nameSet : Decoder NameSet := fun room node => (list string room node).map NameSet.ofNames

/-- A choice by name: the name as a string, or an object of the name alone, with null. -/
def choice (options : List (String × α)) : Decoder α := fun room node =>
  match node with
  | .string text => text.bind fun name => options.lookup name
  | .object [(some name, .null)] => if room = 0 then none else options.lookup name
  | _ => none

/-! ### Records -/

/-- Where a field of a record is. -/
inductive Slot where
  /-- The field is given. -/
  | given (node : Node)
  /-- The record is an object without the field. -/
  | absent
  /-- The record is an array that ends before the field. -/
  | lacking

/-- The field of a name among the members of an object. -/
def Slot.ofMembers (ms : List (String × Node)) (name : String) : Slot :=
  match ms.lookup name with
  | some node => .given node
  | none => .absent

/-- The field of a name among the items of an array. -/
def Slot.ofItems (names : List String) (items : List Node) (name : String) : Slot :=
  match (names.zip items).lookup name with
  | some node => .given node
  | none => .lacking

/-- Whether no name of a list occurs twice among some members. -/
def onceEach (names : List String) (ms : List (String × Node)) : Bool :=
  names.all fun name => ms.countP (·.1 = name) ≤ 1

/-- A record with these fields, made from their slots. -/
def record (names : List String) (build : Nat → (String → Slot) → Option α) : Decoder α :=
  fun room node =>
    if room = 0 then none
    else match node with
      | .object ms => do
        let ms ← members ms
        if onceEach names ms then build (room - 1) (Slot.ofMembers ms) else none
      | .array items =>
        if items.length ≤ names.length then build (room - 1) (Slot.ofItems names items) else none
      | _ => none

/-- A field that has to be given. -/
def member (d : Decoder α) (room : Nat) : Slot → Option α
  | .given node => d room node
  | _ => none

/-- A field that may be null, or be missing in an object. -/
def memberOrNull (d : Decoder α) (room : Nat) : Slot → Option (Option α)
  | .given node => nullable d room node
  | .absent => some none
  | .lacking => none

/-- A field that has a value of its own where it is missing. -/
def memberOr (d : Decoder α) (standard : α) (room : Nat) : Slot → Option α
  | .given node => d room node
  | _ => some standard

/-! ### Tagged choices -/

/-- The string that a node is. -/
def text? : Node → Option String
  | .string text => text
  | _ => none

/-- A choice whose name is a field of the record with its content. Its content is read as a whole even
where nothing of it counts. The record may be an array that begins with the name. -/
def tagged (tag : String) (build : Nat → String → Node → Option α) : Decoder α :=
  fun room node =>
    if room = 0 then none
    else match node with
      | .object ms => do
        let ms ← members ms
        let [(_, name)] := ms.filter (·.1 = tag) | none
        let rest := ms.filter (·.1 ≠ tag)
        if rest.all fun m => (json (room - 1) m.2).isSome then
          build room (← text? name) (.object (rest.map fun (k, v) => (some k, v)))
        else none
      | .array (name :: items) =>
        if items.all fun item => (json (room - 1) item).isSome then do
          build room (← text? name) (.array items)
        else none
      | _ => none

/-- The content of a choice that has none: any members, but no items. -/
def noContent : Node → Option Unit
  | .object _ => some ()
  | .array [] => some ()
  | _ => none

/-- Reads a text with a decoder. -/
def read? (d : Decoder α) (s : String) : Option α := do d Json.depthLimit (← Node.read? s.toList)

/-- Reads a text with a decoder, as a fallible call. -/
def read (d : Decoder α) (s : String) : Except Error α :=
  match d.read? s with
  | some a => .ok a
  | none => .error (.json "")

end Decoder

end SchemaQuery
