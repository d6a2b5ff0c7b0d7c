import SchemaQuery.Toml.Quoted
import SchemaQuery.Toml.Scalar

/-!
Reading documents of TOML: the text is a run of statements, one on a line, and the statements make a
tree. A document means nothing if one of its lines is no statement, or if a statement cannot stand where
it is. Keys of eighty parts and more are refused, and so are containers that are nested deeper.
-/

namespace SchemaQuery.Toml

/-! ### What lies between values -/

/-- The text without leading spaces and tabs. -/
def skipSpace (s : List Char) : List Char := s.dropWhile fun c => c = ' ' || c = '\t'

/-- The text without a comment at its front. -/
def skipComment : List Char → List Char
  | '#' :: r => r.dropWhile isPlain
  | r => r

/-- What follows the end of a line, which only space and a comment may come before. -/
def lineEnd? (s : List Char) : Option (List Char) :=
  match skipComment (skipSpace s) with
  | [] => some []
  | '\n' :: r => some r
  | '\r' :: '\n' :: r => some r
  | _ => none

/-- The text from the next character on that counts inside an array: not space, line ends and comments.
A comment ends with its line. -/
def skipLines (inComment : Bool) : List Char → Option (List Char)
  | [] => some []
  | c :: r =>
    if c = '\n' then skipLines false r
    else if c = '\r' then if r.head? = some '\n' then skipLines false r else none
    else if inComment then if isPlain c then skipLines true r else none
    else if c = '#' then skipLines true r
    else if c = ' ' ∨ c = '\t' then skipLines false r
    else some (c :: r)

/-! ### Keys -/

/-- A character of a key without quotes. -/
def isBare (c : Char) : Bool := c.isAlphanum || c = '_' || c = '-'

/-- A key as it is written: without quotes where it can be. -/
def keyText (key : String) : List Char :=
  let s := key.toList
  if s ≠ [] ∧ s.all isBare then s else Form.basic.write s

/-- Reads one part of a key. -/
def key? : List Char → Option (String × List Char)
  | [] => none
  | c :: r =>
    if c = '"' ∨ c = '\'' then (lineString? c r).map fun (text, r) => (String.ofList text, r)
    else if isBare c then
      some (String.ofList (c :: r.takeWhile isBare), r.dropWhile isBare)
    else none

/-- Reads a key of at most some parts, which points divide, and the space behind it. -/
def path? : Nat → List Char → Option (List String × List Char)
  | 0, _ => none
  | most + 1, s => do
    let (key, r) ← key? (skipSpace s)
    match skipSpace r with
    | '.' :: r => (path? most r).map fun (path, r) => (key :: path, r)
    | r => some ([key], r)

/-- How many parts a key may have. -/
def mostParts : Nat := 79

/-! ### Values -/

mutual

/-- Reads a value, with `room` for nested containers and `fuel` for all that is nested in it. -/
def value? (room : Nat) : Nat → List Char → Option (Node × List Char)
  | 0, _ => none
  | fuel + 1, s =>
    match s with
    | [] => none
    | c :: r =>
      if c = '"' ∨ c = '\'' then
        (string? c r).map fun (text, r) => (.text (String.ofList text), r)
      else if c = '[' then
        if room = 0 then none
        else (items? (room - 1) fuel r).map fun (items, r) => (.array items, r)
      else if c = '{' then
        if room = 0 then none
        else
          match skipSpace r with
          | '}' :: r => some (.table .inline [], r)
          | r => do
            let (pairs, r) ← pairs? (room - 1) fuel r
            let entries ← Entries.ofPairs? pairs
            some (.table .inline entries, r)
      else (scalar? (run s)).map fun node => (node, s.drop (run s).length)

/-- Reads the items of an array and the bracket that closes it; a comma may follow the last item. -/
def items? (room : Nat) : Nat → List Char → Option (List Node × List Char)
  | 0, _ => none
  | fuel + 1, s => do
    let s ← skipLines false s
    match s with
    | ']' :: r => some ([], r)
    | s =>
      let (item, r) ← value? room fuel s
      match ← skipLines false r with
      | ']' :: r => some ([item], r)
      | ',' :: r =>
        let (items, r) ← items? room fuel r
        some (item :: items, r)
      | _ => none

/-- Reads the keys and values of an inline table, at least one, and the brace that closes it. -/
def pairs? (room : Nat) : Nat → List Char → Option (List (List String × Node) × List Char)
  | 0, _ => none
  | fuel + 1, s => do
    let (path, r) ← path? mostParts s
    let '=' :: r := r | none
    let (value, r) ← value? room fuel (skipSpace r)
    match skipSpace r with
    | '}' :: r => some ([(path, value)], r)
    | ',' :: r =>
      let (pairs, r) ← pairs? room fuel r
      some ((path, value) :: pairs, r)
    | _ => none

end

/-- How deep containers may be nested in a value. -/
def mostNested : Nat := 80

/-! ### Statements -/

/-- Reads a key and its value. -/
def entry? (s : List Char) : Option (Statement × List Char) := do
  let (path, r) ← path? mostParts s
  let '=' :: r := r | none
  let (value, r) ← value? mostNested (r.length + 1) (skipSpace r)
  some (.entry path value, r)

/-- Reads a statement at the front of a line. -/
def statement? : List Char → Option (Statement × List Char)
  | '[' :: '[' :: r => do
    let (path, r) ← path? mostParts r
    let ']' :: ']' :: r := r | none
    some (.nextTable path, r)
  | '[' :: r => do
    let (path, r) ← path? mostParts r
    let ']' :: r := r | none
    some (.header path, r)
  | s => entry? s

/-- Reads the statements of a text, in at most `fuel` lines. -/
def statementsFrom : Nat → List Char → Option (List Statement)
  | 0, _ => none
  | fuel + 1, s =>
    match skipSpace s with
    | [] => some []
    | c :: r =>
      if c = '#' ∨ c = '\n' ∨ c = '\r' then do statementsFrom fuel (← lineEnd? (c :: r))
      else do
        let (statement, r) ← statement? (c :: r)
        let statements ← statementsFrom fuel (← lineEnd? r)
        some (statement :: statements)

/-- The statements of a document. A byte order mark in front does not count. -/
def statements? (s : List Char) : Option (List Statement) :=
  let s := match s with
    | '\ufeff' :: r => r
    | s => s
  statementsFrom (s.length + 1) s

/-- The entries of a document. -/
def read? (s : String) : Option Entries := (statements? s.toList).bind Entries.ofStatements?

end SchemaQuery.Toml
