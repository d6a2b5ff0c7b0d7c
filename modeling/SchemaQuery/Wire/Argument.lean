import SchemaQuery.Query.Argument
import SchemaQuery.Wire.Decoder

/-!
Argument values as JSON. An integer of JSON that does not fit 64 bits with a sign becomes the nearest
binary number, and a number that is infinite or none at all is written as null.
-/

namespace SchemaQuery

/-- The binary number nearest to an integer of 64 bits, which is always finite. -/
def Json.Integer.toFloat (n : Json.Integer) : Finite64 :=
  (Finite64.ofDecimal? ⟨n.value < 0, n.value.natAbs, 0⟩).getD default

/-- The integer of 64 bits without loss. -/
def Json.Integer.ofInt64 (n : Int64) : Json.Integer :=
  ⟨n.toInt, n.minValue_le_toInt, Int.lt_of_le_of_lt n.toInt_le (by decide)⟩

namespace Value

/-- The argument value of an integer. -/
def ofInteger (n : Json.Integer) : Value :=
  if n.value ≤ Int64.maxValue.toInt then .int (Int64.ofInt n.value) else .float (.finite n.toFloat)

mutual

/-- The argument value that a JSON value stands for. -/
def ofJson : Json → Value
  | .null => .null
  | .bool b => .bool b
  | .int n => ofInteger n
  | .float x => .float (.finite x)
  | .string s => .text s
  | .array items => .list (ofJsonItems items)
  | .object fields => .object (ofJsonFields fields)

/-- The argument values of the items of an array. -/
def ofJsonItems : List Json → List Value
  | [] => []
  | item :: items => ofJson item :: ofJsonItems items

/-- The argument values of the fields of an object. -/
def ofJsonFields : List (String × Json) → List (String × Value)
  | [] => []
  | (name, item) :: fields => (name, ofJson item) :: ofJsonFields fields

end

mutual

/-- The JSON value of an argument value. -/
def toJson : Value → Json
  | .null => .null
  | .bool b => .bool b
  | .int n => .int (.ofInt64 n)
  | .float (.finite x) => .float x
  | .float _ => .null
  | .text s => .string s
  | .list items => .array (toJsonItems items)
  | .object fields => .object (toJsonFields fields)

/-- The JSON values of the items of a list. -/
def toJsonItems : List Value → List Json
  | [] => []
  | item :: items => toJson item :: toJsonItems items

/-- The JSON values of the fields of an object. -/
def toJsonFields : List (String × Value) → List (String × Json)
  | [] => []
  | (name, item) :: fields => (name, toJson item) :: toJsonFields fields

end

/-- Reads an argument value: any JSON value. -/
def decoder : Decoder Value := fun room node => (Decoder.json room node).map ofJson

end Value

/-- The arguments that the fields of a JSON object give. -/
def Arguments.ofFields (fields : List (String × Json)) : Arguments :=
  Dictionary.ofList (fields.map fun (name, item) => (name, Value.ofJson item))

/-- The JSON object of the arguments. -/
def Arguments.toJson (args : Arguments) : Json := .ofDictionary (args.map Value.toJson)

/-- Reads arguments: an object. -/
def Arguments.decoder : Decoder Arguments := .dictionary Value.decoder

end SchemaQuery
