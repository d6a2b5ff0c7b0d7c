import SchemaQuery.Json.Value
import SchemaQuery.Number.Shortest

/-!
The text of JSON values: on one line without white space, or on many lines with two spaces for each
level. Only quotes, backslashes and control characters are escaped.
-/

namespace SchemaQuery

namespace Json

/-- A hexadecimal digit in lower case. -/
def hexChar (n : Nat) : Char := Nat.digitChar n

/-- A character inside a string. -/
def escapeChar (c : Char) : List Char :=
  if c = '"' then ['\\', '"']
  else if c = '\\' then ['\\', '\\']
  else if c = '\x08' then ['\\', 'b']
  else if c = '\x0c' then ['\\', 'f']
  else if c = '\n' then ['\\', 'n']
  else if c = '\r' then ['\\', 'r']
  else if c = '\t' then ['\\', 't']
  else if c.toNat < 0x20 then
    ['\\', 'u', '0', '0', hexChar (c.toNat / 16), hexChar (c.toNat % 16)]
  else [c]

/-- A string with its quotes. -/
def stringText (s : String) : List Char := '"' :: s.toList.flatMap escapeChar ++ ['"']

mutual

/-- A value on one line. -/
def compact : Json → List Char
  | .null => ['n', 'u', 'l', 'l']
  | .bool true => ['t', 'r', 'u', 'e']
  | .bool false => ['f', 'a', 'l', 's', 'e']
  | .int n => Decimal.integerText n.value
  | .float x => x.documentText.toList
  | .string s => stringText s
  | .array items => '[' :: compactItems items
  | .object fields => '{' :: compactFields fields

/-- The items of an array and its closing bracket. -/
def compactItems : List Json → List Char
  | [] => [']']
  | [item] => item.compact ++ [']']
  | item :: items => item.compact ++ ',' :: compactItems items

/-- The fields of an object and its closing brace. -/
def compactFields : List (String × Json) → List Char
  | [] => ['}']
  | [(name, item)] => stringText name ++ ':' :: item.compact ++ ['}']
  | (name, item) :: fields => stringText name ++ ':' :: item.compact ++ ',' :: compactFields fields

end

/-- A new line at a level. -/
def newLine (level : Nat) : List Char := '\n' :: List.replicate (2 * level) ' '

mutual

/-- A value on many lines, where `level` containers are open around it. -/
def prettyAt (level : Nat) : Json → List Char
  | .array [] => ['[', ']']
  | .array items => '[' :: prettyItems (level + 1) items
  | .object [] => ['{', '\x7d']
  | .object fields => '{' :: prettyFields (level + 1) fields
  | v => v.compact

/-- The items of an array at a level, and its closing bracket one level further out. -/
def prettyItems (level : Nat) : List Json → List Char
  | [] => newLine (level - 1) ++ [']']
  | [item] => newLine level ++ item.prettyAt level ++ newLine (level - 1) ++ [']']
  | item :: items => newLine level ++ item.prettyAt level ++ ',' :: prettyItems level items

/-- The fields of an object at a level, and its closing brace one level further out. -/
def prettyFields (level : Nat) : List (String × Json) → List Char
  | [] => newLine (level - 1) ++ ['}']
  | [(name, item)] =>
    newLine level ++ stringText name ++ ':' :: ' ' :: item.prettyAt level
      ++ newLine (level - 1) ++ ['}']
  | (name, item) :: fields =>
    newLine level ++ stringText name ++ ':' :: ' ' :: item.prettyAt level
      ++ ',' :: prettyFields level fields

end

/-- A value on one line. -/
def text (v : Json) : String := String.ofList v.compact

/-- A value on many lines. -/
def pretty (v : Json) : String := String.ofList (v.prettyAt 0)

end Json

end SchemaQuery
