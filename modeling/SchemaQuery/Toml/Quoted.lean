import SchemaQuery.Text.Word

/-!
Strings of TOML in their four written forms. A basic string stands between double quotes and knows
escapes, a literal string stands between single quotes and means every character as it is, and both
have a form over many lines between tripled quotes, where a line feed right behind the opening does not
count. A text is written in the form that shows it best; whatever the form, control characters are only
ever written as escapes.
-/

namespace SchemaQuery.Toml

open Text

/-- A character that may stand for itself in any string and in a comment: no control character but the
tab. -/
def isPlain (c : Char) : Bool := c = '\t' || (0x20 ≤ c.toNat && c.toNat ≠ 0x7f)

/-! ### Writing -/

/-- The written forms of a string. -/
inductive Form where
  | basic
  | literal
  | basicBlock
  | literalBlock
deriving DecidableEq, Repr

/-- Whether a character occurs three times in a row. -/
def hasTriple (q : Char) : List Char → Bool
  | a :: b :: c :: r => (a = q && b = q && c = q) || hasTriple q (b :: c :: r)
  | _ => false

/-- Whether a text can stand in a form without any escape. A tab in a basic string is written as an
escape all the same. -/
def Form.suits (s : List Char) : Form → Bool
  | .basic => s.all fun c => isPlain c && c ≠ '\\' && c ≠ '"'
  | .literal => s.all fun c => isPlain c && c ≠ '\''
  | .basicBlock => (s.all fun c => (isPlain c || c = '\n') && c ≠ '\\') && !hasTriple '"' s
  | .literalBlock => (s.all fun c => isPlain c || c = '\n') && !hasTriple '\'' s

/-- The forms in the order in which they are tried. A text of one line is rather written as a literal
than with tripled double quotes. -/
def Form.order (s : List Char) : List Form :=
  if s.contains '\n' then [.basicBlock, .literalBlock] else [.basic, .literal, .literalBlock, .basicBlock]

/-- The form in which a text is written: the first that needs no escape, and otherwise one with
escapes. -/
def Form.of (s : List Char) : Form :=
  ((Form.order s).find? (Form.suits s)).getD (if s.contains '\n' then .basicBlock else .basic)

/-- A control character by its number. -/
def codeEscape (c : Char) : List Char :=
  ['\\', 'u', '0', '0', (Nat.digitChar (c.toNat / 16)).toUpper, (Nat.digitChar (c.toNat % 16)).toUpper]

/-- A character of a basic string, its quotes apart. -/
def escapeChar (c : Char) : List Char :=
  if c = '\x08' then ['\\', 'b']
  else if c = '\t' then ['\\', 't']
  else if c = '\n' then ['\\', 'n']
  else if c = '\x0c' then ['\\', 'f']
  else if c = '\r' then ['\\', 'r']
  else if c = '\\' then ['\\', '\\']
  else if isPlain c then [c]
  else codeEscape c

/-- The body of a basic string. -/
def basicBody (s : List Char) : List Char :=
  s.flatMap fun c => if c = '"' then ['\\', '"'] else escapeChar c

/-- The body of a basic string over many lines, where `quotes` double quotes have just been written:
only a third one in a row is escaped. -/
def basicBlockBody (quotes : Nat) : List Char → List Char
  | [] => []
  | c :: r =>
    if c = '"' then
      if quotes = 2 then '\\' :: '"' :: basicBlockBody 0 r else '"' :: basicBlockBody (quotes + 1) r
    else if c = '\n' then '\n' :: basicBlockBody 0 r
    else escapeChar c ++ basicBlockBody 0 r

/-- The line feed behind an opening that does not count, written before a text of many lines. -/
def openingLine (s : List Char) : List Char := if s.contains '\n' then ['\n'] else []

/-- Three of a quote. -/
def tripled (q : Char) : List Char := [q, q, q]

/-- A text in a form. -/
def Form.write (s : List Char) : Form → List Char
  | .basic => '"' :: basicBody s ++ ['"']
  | .literal => '\'' :: s ++ ['\'']
  | .basicBlock => tripled '"' ++ openingLine s ++ basicBlockBody 0 s ++ tripled '"'
  | .literalBlock => tripled '\'' ++ openingLine s ++ s ++ tripled '\''

/-- A text as a string. -/
def quoted (s : List Char) : List Char := (Form.of s).write s

/-! ### Reading -/

/-- A text that was read, and what follows it. -/
abbrev Scan := Option (List Char × List Char)

/-- Puts a character in front of the text that was read. -/
def Scan.cons (c : Char) (s : Scan) : Scan := s.map fun (text, r) => (c :: text, r)

/-- The character that a letter behind a backslash stands for. -/
def escaped? (c : Char) : Option Char :=
  if c = 'b' then some '\x08'
  else if c = 't' then some '\t'
  else if c = 'n' then some '\n'
  else if c = 'f' then some '\x0c'
  else if c = 'r' then some '\r'
  else if c = '"' then some '"'
  else if c = '\\' then some '\\'
  else none

/-- Where the reader of a string with escapes stands. -/
inductive Place where
  /-- In the text; in a gap, white space does not count. -/
  | text (gap : Bool)
  /-- Behind a backslash. -/
  | escape
  /-- Before `left` further digits of a number that begins with `value`. -/
  | code (left value : Nat)
deriving DecidableEq, Repr

/-- The end of a block: up to two quotes in front of the closing ones belong to the text. -/
def blockEnd (q : Char) : List Char → List Char × List Char
  | a :: b :: r =>
    if a = q then if b = q then ([q, q], r) else ([q], b :: r) else ([], a :: b :: r)
  | [a] => if a = q then ([q], []) else ([], [a])
  | [] => ([], [])

/-- What follows two quotes at the front of a text, if they are there. -/
def afterPair? (q : Char) : List Char → Option (List Char)
  | a :: b :: r => if a = q ∧ b = q then some r else none
  | _ => none

/-- Whether white space up to the end of a line comes first. -/
def startsGap (s : List Char) : Bool :=
  match s.dropWhile fun c => c = ' ' || c = '\t' with
  | '\n' :: _ => true
  | '\r' :: '\n' :: _ => true
  | _ => false

/-- Reads a string with escapes from a place in it on, up to its closing quotes. -/
def escapedFrom (block : Bool) (place : Place) : List Char → Scan
  | [] => none
  | c :: r =>
    match place with
    | .text gap =>
      if gap && (c = ' ' || c = '\t' || c = '\n') then escapedFrom block (.text true) r
      else if c = '"' then
        if block then
          match afterPair? '"' r with
          | some r => some (blockEnd '"' r)
          | none => (escapedFrom block (.text false) r).cons '"'
        else some ([], r)
      else if c = '\\' then
        if block && startsGap r then escapedFrom block (.text true) r
        else escapedFrom block .escape r
      else if isPlain c then (escapedFrom block (.text false) r).cons c
      else if block && c = '\n' then (escapedFrom block (.text false) r).cons '\n'
      else if block && c = '\r' && r.head? = some '\n' then escapedFrom block (.text gap) r
      else none
    | .escape =>
      if c = 'u' then escapedFrom block (.code 4 0) r
      else if c = 'U' then escapedFrom block (.code 8 0) r
      else match escaped? c with
        | some x => (escapedFrom block (.text false) r).cons x
        | none => none
    | .code left value =>
      match hexDigit? c with
      | none => none
      | some d =>
        let value := 16 * value + d
        if left = 1 then
          if value.isValidChar then (escapedFrom block (.text false) r).cons (Char.ofNat value)
          else none
        else escapedFrom block (.code (left - 1) value) r

/-- Reads a literal string behind its opening quote. -/
def literalFrom : List Char → Scan
  | [] => none
  | c :: r =>
    if c = '\'' then some ([], r)
    else if isPlain c then (literalFrom r).cons c
    else none

/-- Reads a literal string over many lines behind its opening. -/
def literalBlockFrom : List Char → Scan
  | [] => none
  | c :: r =>
    if c = '\'' then
      match afterPair? '\'' r with
      | some r => some (blockEnd '\'' r)
      | none => (literalBlockFrom r).cons '\''
    else if isPlain c || c = '\n' then (literalBlockFrom r).cons c
    else if c = '\r' && r.head? = some '\n' then literalBlockFrom r
    else none

/-- The text of a block without the end of its opening line. -/
def dropOpeningLine : List Char → List Char
  | '\n' :: r => r
  | '\r' :: '\n' :: r => r
  | r => r

/-- Reads a string on one line behind its opening quote `q`. -/
def lineString? (q : Char) (s : List Char) : Scan :=
  if q = '"' then escapedFrom false (.text false) s else literalFrom s

/-- Reads a string behind its first quote `q`. -/
def string? (q : Char) (s : List Char) : Scan :=
  match afterPair? q s with
  | some r =>
    let r := dropOpeningLine r
    if q = '"' then escapedFrom true (.text false) r else literalBlockFrom r
  | none => lineString? q s

example : string? '"' "a\\u00e9\\n\" x".toList = some (['a', 'é', '\n'], [' ', 'x']) := by decide
example : string? '"' "\"\"\na \\\n  b\"\"\"\"".toList = some ("a b\"".toList, []) := by decide
example : string? '\'' "''raw 'q' \\n'''".toList = some ("raw 'q' \\n".toList, []) := by decide
example : quoted "it's \"so\"".toList = "'''it's \"so\"'''".toList := by decide
example : quoted "a\nb".toList = "\"\"\"\na\nb\"\"\"".toList := by decide

/-! ### Reading what was written -/

@[simp] theorem Scan.cons_some (c : Char) (t r : List Char) :
    Scan.cons c (some (t, r)) = some (c :: t, r) := rfl

theorem hexDigit?_toUpper_digitChar : ∀ n < 16, hexDigit? (Nat.digitChar n).toUpper = some n := by
  decide

/-- What may not stand for itself is a control character. -/
theorem toNat_of_not_isPlain {c : Char} (h : isPlain c = false) : c.toNat < 0x20 ∨ c.toNat = 0x7f := by
  simp [isPlain] at h
  omega

theorem escapedFrom_codeEscape (block : Bool) {c : Char} (h : c.toNat < 256) (r : List Char) :
    escapedFrom block (.text false) (codeEscape c ++ r)
      = (escapedFrom block (.text false) r).cons c := by
  have high := hexDigit?_toUpper_digitChar (c.toNat / 16) (by omega)
  have low := hexDigit?_toUpper_digitChar (c.toNat % 16) (by omega)
  have zero : hexDigit? '0' = some 0 := by decide
  have whole : 16 * (c.toNat / 16) + c.toNat % 16 = c.toNat := by omega
  have valid : c.toNat.isValidChar := c.valid
  simp [codeEscape, escapedFrom, startsGap, zero, high, low, whole, valid]

theorem escapedFrom_escapeChar (block : Bool) {c : Char} (hq : c ≠ '"') (r : List Char) :
    escapedFrom block (.text false) (escapeChar c ++ r)
      = (escapedFrom block (.text false) r).cons c := by
  unfold escapeChar
  split; · subst c; simp [escapedFrom, escaped?, startsGap]
  split; · subst c; simp [escapedFrom, escaped?, startsGap]
  split; · subst c; simp [escapedFrom, escaped?, startsGap]
  split; · subst c; simp [escapedFrom, escaped?, startsGap]
  split; · subst c; simp [escapedFrom, escaped?, startsGap]
  split; · subst c; simp [escapedFrom, escaped?, startsGap]
  split
  · simp_all [escapedFrom]
  · next h =>
    have := toNat_of_not_isPlain (by simpa using h)
    exact escapedFrom_codeEscape block (by omega) r

/-- The body of a basic string is read back up to the quote behind it. -/
theorem escapedFrom_basicBody (s r : List Char) :
    escapedFrom false (.text false) (basicBody s ++ '"' :: r) = some (s, r) := by
  induction s with
  | nil => simp [basicBody, escapedFrom]
  | cons c s ih =>
    simp only [basicBody] at ih
    by_cases hc : c = '"'
    · subst hc
      simp [basicBody, escapedFrom, escaped?, ih]
    · simp only [basicBody, List.flatMap_cons, hc, if_false, List.append_assoc]
      rw [escapedFrom_escapeChar _ hc, ih, Scan.cons_some]

theorem literalFrom_append {s : List Char} (h : Form.literal.suits s = true) (r : List Char) :
    literalFrom (s ++ '\'' :: r) = some (s, r) := by
  induction s with
  | nil => simp [literalFrom]
  | cons c s ih =>
    simp only [Form.suits, List.all_cons, Bool.and_eq_true, decide_eq_true_eq, ne_eq] at h
    obtain ⟨⟨plain, quote⟩, rest⟩ := h
    have := ih (by simpa [Form.suits] using rest)
    simp [literalFrom, quote, plain, this]

end SchemaQuery.Toml
