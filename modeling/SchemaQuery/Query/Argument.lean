import SchemaQuery.Error
import SchemaQuery.Number.Shortest
import SchemaQuery.Collection.Dictionary

/-!
Argument values and their text in a query. A value outside a string literal becomes a literal of its
own; inside one it becomes text with every quote doubled. Only the quote character ever changes, so
undoubling the quotes gives the value back. Lists and objects have no text in a query.
-/

namespace SchemaQuery

/-- A value that is supplied for an argument. -/
inductive Value where
  | null
  | bool (b : Bool)
  | int (n : Int64)
  | float (x : Binary64)
  | text (s : String)
  | list (items : List Value)
  | object (fields : List (String × Value))

/-- The sorts of values. -/
inductive ValueKind where
  | null
  | boolean
  | integer
  | float
  | string
  | list
  | object
deriving DecidableEq, Repr

/-- The name of a sort of values. -/
def ValueKind.name : ValueKind → String
  | .null => "null"
  | .boolean => "boolean"
  | .integer => "integer"
  | .float => "float"
  | .string => "string"
  | .list => "list"
  | .object => "object"

/-- Argument values by the names of their arguments. -/
abbrev Arguments := Dictionary Value

namespace Value

/-- The sort of a value. -/
def kind : Value → ValueKind
  | .null => .null
  | .bool _ => .boolean
  | .int _ => .integer
  | .float _ => .float
  | .text _ => .string
  | .list _ => .list
  | .object _ => .object

/-- A text with every single quote doubled. -/
def escape : List Char → List Char
  | [] => []
  | c :: r => if c = '\'' then '\'' :: '\'' :: escape r else c :: escape r

/-- A text with every doubled single quote, from left to right, made one. -/
def unescape : List Char → List Char
  | '\'' :: '\'' :: r => '\'' :: unescape r
  | c :: r => c :: unescape r
  | [] => []

/-- A text as a string literal. -/
def quote (s : List Char) : List Char := '\'' :: escape s ++ ['\'']

/-- The literal of the value supplied under `key`. -/
def literal (key : String) : Value → Except Error (List Char)
  | .null => .ok ['N', 'U', 'L', 'L']
  | .bool true => .ok ['t', 'r', 'u', 'e']
  | .bool false => .ok ['f', 'a', 'l', 's', 'e']
  | .int n => .ok (Decimal.integerText n.toInt)
  | .float (.finite x) => .ok x.plainText.toList
  | .float _ => .error (.validation (.notFinite key))
  | .text s => .ok (quote s.toList)
  | v => .error (.unsupportedType key v.kind.name)

/-- The text of the value supplied under `key` where it stands inside a string literal. -/
def embedded (key : String) : Value → Except Error (List Char)
  | .null => .error (.validation (.nullInLiteral key))
  | .text s => .ok (escape s.toList)
  | v => v.literal key

theorem unescape_escape (s : List Char) : unescape (escape s) = s := by
  induction s with
  | nil => rfl
  | cons c r ih =>
    by_cases h : c = '\''
    · simp [escape, h, unescape, ih]
    · simp [escape, h, unescape, ih]

end Value

/-- Accepts arguments all of which have a literal; of those without one, the first in the order of the
keys decides the error. -/
def Arguments.check (args : Arguments) : Except Error Unit :=
  args.entries.forM fun (key, value) => (value.literal key).map fun _ => ()

end SchemaQuery
