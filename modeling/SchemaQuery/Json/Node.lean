import SchemaQuery.Number.Decimal
import SchemaQuery.Text.Word

/-!
JSON documents as they are written. Members of an object stay in their order, repeated names included,
and a number keeps its digits, because who uses a document decides what a repeated name or a number
that is too great means. A string whose escapes name half of a surrogate pair is well-formed but has no
text; only a part of a document that nobody reads may hold one.
-/

namespace SchemaQuery

namespace Json

/-- A number as it is written. -/
structure Numeral where
  negative : Bool
  /-- The digits before the point. -/
  whole : List Char
  /-- The digits behind the point; a number without a point has none. -/
  fraction : List Char
  /-- The exponent, if one is written. -/
  exponent : Option Int
deriving DecidableEq, Repr

/-- A document or a part of one, as it is written. -/
inductive Node where
  | null
  | bool (b : Bool)
  | number (n : Numeral)
  | string (text : Option String)
  | array (items : List Node)
  | object (members : List (Option String × Node))

namespace Numeral

/-- Whether the number is written without a point and without an exponent. -/
def isInteger (n : Numeral) : Bool := n.fraction.isEmpty && n.exponent.isNone

/-- The number that is written. -/
def value (n : Numeral) : Decimal :=
  ⟨n.negative, Decimal.ofDigits (n.whole ++ n.fraction), n.exponent.getD 0 - n.fraction.length⟩

end Numeral

namespace Node

/-- White space between the parts of a document. -/
def isSpace (c : Char) : Bool := c = ' ' || c = '\n' || c = '\t' || c = '\r'

/-- The text without leading white space. -/
def skip (s : List Char) : List Char := s.dropWhile isSpace

/-- The character that a letter behind a backslash stands for. -/
def escaped? : Char → Option Char
  | '"' => some '"'
  | '\\' => some '\\'
  | '/' => some '/'
  | 'b' => some '\x08'
  | 'f' => some '\x0c'
  | 'n' => some '\n'
  | 'r' => some '\r'
  | 't' => some '\t'
  | _ => none

/-- A string being read: its text, unless an escape in it is half of a pair, and what follows it. -/
abbrev StringRead := Option (List Char) × List Char

/-- Puts a character in front of the text that was read. -/
def StringRead.cons (c : Char) (s : StringRead) : StringRead := (s.1.map (c :: ·), s.2)

/-- The string has no text. -/
def StringRead.broken (s : StringRead) : StringRead := (none, s.2)

/-- Reads a string behind its opening quote. `high` is the first half of a surrogate pair whose second
half has to come next. -/
def stringBody (high : Option Nat) : List Char → Option StringRead
  | [] => none
  | '"' :: r => if high.isSome then some (none, r) else some (some [], r)
  | '\\' :: 'u' :: a :: b :: c :: d :: r => do
    let unit ← Text.hex? [a, b, c, d]
    match high with
    | some h =>
      if 0xdc00 ≤ unit ∧ unit ≤ 0xdfff then
        let code := 0x10000 + (h - 0xd800) * 0x400 + (unit - 0xdc00)
        return (← stringBody none r).cons (Char.ofNat code)
      else return (← stringBody none r).broken
    | none =>
      if 0xd800 ≤ unit ∧ unit ≤ 0xdbff then stringBody (some unit) r
      else if 0xdc00 ≤ unit ∧ unit ≤ 0xdfff then return (← stringBody none r).broken
      else return (← stringBody none r).cons (Char.ofNat unit)
  | '\\' :: e :: r => do
    let c ← escaped? e
    let s ← stringBody none r
    return if high.isSome then s.broken else s.cons c
  | c :: r =>
    if c.toNat < 0x20 ∨ c = '\\' then none
    else do
      let s ← stringBody none r
      return if high.isSome then s.broken else s.cons c

/-- Reads a string behind its opening quote. -/
def string? (s : List Char) : Option (Option String × List Char) :=
  (stringBody none s).map fun (text, r) => (text.map String.ofList, r)

/-- Splits off the decimal digits at the front. -/
def digits (s : List Char) : List Char × List Char := (s.takeWhile Char.isDigit, s.dropWhile Char.isDigit)

/-- Reads the digits behind a point, if there is a point. -/
def fraction? : List Char → Option (List Char × List Char)
  | '.' :: r =>
    match digits r with
    | ([], _) => none
    | (ds, r) => some (ds, r)
  | r => some ([], r)

/-- Reads the digits of an exponent with the given sign. -/
def exponentDigits? (negative : Bool) (s : List Char) : Option (Option Int × List Char) :=
  match digits s with
  | ([], _) => none
  | (ds, r) => some (some (if negative then -(Decimal.ofDigits ds : Int) else Decimal.ofDigits ds), r)

/-- Reads an exponent, if there is one. -/
def exponent? : List Char → Option (Option Int × List Char)
  | c :: r =>
    if c = 'e' ∨ c = 'E' then
      match r with
      | '-' :: r => exponentDigits? true r
      | '+' :: r => exponentDigits? false r
      | r => exponentDigits? false r
    else some (none, c :: r)
  | [] => some (none, [])

/-- Reads a number without its sign. A zero in front of further digits is refused. -/
def unsigned? (negative : Bool) (s : List Char) : Option (Numeral × List Char) := do
  let (whole, r) := digits s
  if whole = [] ∨ (whole.head? = some '0' ∧ whole ≠ ['0']) then none
  else
    let (fraction, r) ← fraction? r
    let (exponent, r) ← exponent? r
    some (⟨negative, whole, fraction, exponent⟩, r)

/-- Reads a number. -/
def numeral? : List Char → Option (Numeral × List Char)
  | '-' :: r => unsigned? true r
  | s => unsigned? false s

mutual

/-- Reads a value that begins with the first character, with `fuel` for all that is nested in it. -/
def value? : Nat → List Char → Option (Node × List Char)
  | 0, _ => none
  | fuel + 1, s =>
    match s with
    | 'n' :: 'u' :: 'l' :: 'l' :: r => some (.null, r)
    | 't' :: 'r' :: 'u' :: 'e' :: r => some (.bool true, r)
    | 'f' :: 'a' :: 'l' :: 's' :: 'e' :: r => some (.bool false, r)
    | '"' :: r => (string? r).map fun (text, r) => (.string text, r)
    | '[' :: r =>
      match skip r with
      | ']' :: r => some (.array [], r)
      | r => (items? fuel r).map fun (items, r) => (.array items, r)
    | '{' :: r =>
      match skip r with
      | '}' :: r => some (.object [], r)
      | r => (members? fuel r).map fun (members, r) => (.object members, r)
    | s => (numeral? s).map fun (n, r) => (.number n, r)

/-- Reads the items of an array, at least one, and the bracket that closes it. -/
def items? : Nat → List Char → Option (List Node × List Char)
  | 0, _ => none
  | fuel + 1, s => do
    let (item, r) ← value? fuel s
    match skip r with
    | ']' :: r => some ([item], r)
    | ',' :: r =>
      let (items, r) ← items? fuel (skip r)
      some (item :: items, r)
    | _ => none

/-- Reads the members of an object, at least one, and the brace that closes it. -/
def members? : Nat → List Char → Option (List (Option String × Node) × List Char)
  | 0, _ => none
  | fuel + 1, s => do
    let '"' :: r := s | none
    let (name, r) ← string? r
    let ':' :: r := skip r | none
    let (item, r) ← value? fuel (skip r)
    match skip r with
    | '}' :: r => some ([(name, item)], r)
    | ',' :: r =>
      let (members, r) ← members? fuel (skip r)
      some ((name, item) :: members, r)
    | _ => none

end

/-- Reads a document: one value with nothing but white space around it. Every step inward consumes a
character, so the length of the text bounds the steps. -/
def read? (s : List Char) : Option Node := do
  let (node, r) ← value? (s.length + 1) (skip s)
  if skip r = [] then some node else none

end Node

end Json

end SchemaQuery
