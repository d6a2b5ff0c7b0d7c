import SchemaQuery.Json.Node
import SchemaQuery.Number.Binary64
import SchemaQuery.Collection.Dictionary

/-!
JSON values: what a document means. An object has each name once, in increasing order, and the last of
several members with one name counts. A number is an integer if it is written as one and fits 64 bits,
with or without sign; every other number is the nearest binary number. A document in which containers
are nested too deeply, or a number is too great, means nothing.
-/

namespace SchemaQuery

/-- An integer of 64 bits, of either signedness. -/
structure Json.Integer where
  value : Int
  lower : Int64.minValue.toInt ≤ value
  upper : value < UInt64.size
deriving DecidableEq, Repr

/-- A JSON value. -/
inductive Json where
  | null
  | bool (b : Bool)
  | int (n : Json.Integer)
  | float (x : Finite64)
  | string (s : String)
  | array (items : List Json)
  | object (fields : List (String × Json))

namespace Json

instance : Inhabited Json := ⟨.null⟩

/-- The integer with this value, if it fits. -/
def Integer.ofInt? (n : Int) : Option Integer :=
  if h : Int64.minValue.toInt ≤ n ∧ n < UInt64.size then some ⟨n, h.1, h.2⟩ else none

/-- The integer of a natural number, which is taken modulo 2 ^ 64. -/
def Integer.ofNat (n : Nat) : Integer :=
  ⟨(n % UInt64.size : Nat), Int.le_trans (by decide) (Int.natCast_nonneg _),
    Int.ofNat_lt.mpr (Nat.mod_lt n (by decide))⟩

/-- A natural number as a value; only its last 64 bits count. -/
def nat (n : Nat) : Json := .int (.ofNat n)

/-- The integer that a numeral is. A negative zero is not one, because integers have no sign of zero. -/
def Numeral.integer? (n : Numeral) : Option Integer :=
  let magnitude := Decimal.ofDigits n.whole
  if n.isInteger && !(n.negative && magnitude = 0) then
    Integer.ofInt? (if n.negative then -(magnitude : Int) else magnitude)
  else none

/-- The value of a numeral. -/
def ofNumeral? (n : Numeral) : Option Json :=
  match n.integer? with
  | some i => some (.int i)
  | none => (Finite64.ofDecimal? n.value).map .float

/-- How many containers may be nested in each other. -/
def depthLimit : Nat := 127

mutual

/-- What a document means, if at most `room` containers are nested in it. -/
def ofNode? (room : Nat) : Node → Option Json
  | .null => some .null
  | .bool b => some (.bool b)
  | .number n => ofNumeral? n
  | .string text => text.map .string
  | .array items => if room = 0 then none else (ofNodes? (room - 1) items).map .array
  | .object members =>
    if room = 0 then none else (ofMembers? (room - 1) members).map fun m => .object m.entries

/-- What the items of an array mean. -/
def ofNodes? (room : Nat) : List Node → Option (List Json)
  | [] => some []
  | node :: nodes => do
    let item ← ofNode? room node
    let items ← ofNodes? room nodes
    return item :: items

/-- What the members of an object mean: an earlier member gives way to a later one of its name. -/
def ofMembers? (room : Nat) : List (Option String × Node) → Option (Dictionary Json)
  | [] => some ∅
  | (name, node) :: members => do
    let name ← name
    let item ← ofNode? room node
    let rest ← ofMembers? room members
    return if rest.contains name then rest else rest.insert name item

end

/-- The value that a text means. -/
def read? (s : String) : Option Json := do ofNode? depthLimit (← Node.read? s.toList)

/-- The object with these fields. -/
def ofFields (fields : List (String × Json)) : Json := .object (Dictionary.ofList fields).entries

/-- The object of a dictionary. -/
def ofDictionary (d : Dictionary Json) : Json := .object d.entries

/-- Null for nothing. -/
def ofOption {α : Type} (f : α → Json) : Option α → Json
  | none => .null
  | some a => f a

/-- The value of a field of an object. -/
def field? (v : Json) (name : String) : Option Json :=
  match v with
  | .object fields => fields.lookup name
  | _ => none

end Json

end SchemaQuery
