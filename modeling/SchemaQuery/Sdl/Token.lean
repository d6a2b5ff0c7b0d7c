import SchemaQuery.Number.Decimal
import SchemaQuery.Text.Blank
import SchemaQuery.Text.Word

/-!
Tokens of schema documents. Between tokens, blanks, commas, byte order marks and comments do not count.
A string token holds its text with all escapes read; a block string has its common indentation and its
blank border lines taken off. A number token runs up to the next blank, comma or punctuator, and has to
be a number as a whole. A document with more than fifty brackets open at once is refused.
-/

namespace SchemaQuery.Sdl

open Text

/-- A token of a schema document. -/
inductive Token where
  | name (text : String)
  | mark (c : Char)
  | spread
  | number (text : String)
  | string (text : String)
deriving DecidableEq, Repr

namespace Token

/-- Characters between tokens that do not count. -/
def isIgnored (c : Char) : Bool :=
  c = ' ' || c = '\t' || c = '\r' || c = '\n' || c = ',' || c = '\ufeff'

/-- Drops what does not count in front of a token; `inComment` within a comment, which ends with its
line. -/
def skipFrom (inComment : Bool) : List Char → List Char
  | [] => []
  | c :: r =>
    if inComment then skipFrom (!(c = '\r' || c = '\n')) r
    else if c = '#' then skipFrom true r
    else if isIgnored c then skipFrom false r
    else c :: r

/-- The text from the next token on. -/
def skip (s : List Char) : List Char := skipFrom false s

/-- The punctuators of one character. -/
def marks : List Char := ['(', ')', '[', ']', '{', '}', '!', '$', ':', '=', '@', '|', '&']

/-! ### Numbers -/

/-- Whether a number token ends before this character. -/
def endsNumber (c : Char) : Bool :=
  c = ' ' || c = '\n' || c = '\r' || c = '\t' || c = ',' || c = '#' || marks.contains c

/-- Whether a text is an integer: zero, or digits that do not begin with zero, after a sign or none. -/
def isInt (s : List Char) : Bool :=
  let ds := match s with
    | '-' :: r => r
    | r => r
  ds = ['0'] || (ds ≠ [] && ds.head? ≠ some '0' && ds.all Char.isDigit)

/-- Whether a text is one or more digits. -/
def isDigits (s : List Char) : Bool := s ≠ [] && s.all Char.isDigit

/-- Whether a text is an exponent: a sign and digits, or digits of which the first is 1 to 8. -/
def isExponent : List Char → Bool
  | [] => false
  | c :: r =>
    if c = '-' || c = '+' then isDigits r else '0' < c && c < '9' && r.all Char.isDigit

/-- The text before the last character with a property, and the text behind it. -/
def splitLast (p : Char → Bool) (s : List Char) : Option (List Char × List Char) :=
  match s.reverse.dropWhile fun c => !p c with
  | [] => none
  | _ :: before => some (before.reverse, (s.reverse.takeWhile fun c => !p c).reverse)

/-- Whether a text is an integer part and a fraction, or an integer alone. -/
def isFixed (s : List Char) : Bool :=
  match splitLast (· = '.') s with
  | some (whole, places) => isInt whole && isDigits places
  | none => isInt s

/-- The value of an integer token. -/
def intValue : List Char → Int
  | '-' :: ds => -(Decimal.ofDigits ds : Int)
  | ds => Decimal.ofDigits ds

/-- Whether a text is a number: a float, or an integer of 64 bits. -/
def isNumber (s : List Char) : Bool :=
  match splitLast (fun c => c = 'e' || c = 'E') s with
  | some (mantissa, exponent) => isFixed mantissa && isExponent exponent
  | none =>
    if s.contains '.' then isFixed s
    else isInt s && Int64.minValue.toInt ≤ intValue s && intValue s ≤ Int64.maxValue.toInt

/-! ### Strings -/

/-- The character that four places behind `\u` name; the first place may be a plus sign. Half of a
surrogate pair is no character. -/
def unicode? (a b c d : Char) : Option Char := do
  let code ← if a = '+' then hex? [b, c, d] else hex? [a, b, c, d]
  if code.isValidChar then some (Char.ofNat code) else none

/-- The character that a letter behind a backslash stands for. -/
def escaped? : Char → Option Char
  | '"' => some '"'
  | '\\' => some '\\'
  | '/' => some '/'
  | 'b' => some '\x10'
  | 'f' => some '\x0c'
  | 'n' => some '\n'
  | 'r' => some '\r'
  | 't' => some '\t'
  | _ => none

/-- Reads a string behind its opening quote: its text, and what follows the closing quote. -/
def string? : List Char → Option (List Char × List Char)
  | [] => none
  | '"' :: r => some ([], r)
  | '\\' :: 'u' :: a :: b :: c :: d :: r => do
    let x ← unicode? a b c d
    let (text, r) ← string? r
    some (x :: text, r)
  | '\\' :: e :: r => do
    let x ← escaped? e
    let (text, r) ← string? r
    some (x :: text, r)
  | c :: r =>
    if c = '\n' ∨ c = '\\' then none
    else do
      let (text, r) ← string? r
      some (c :: text, r)

/-- Reads the raw text of a block string behind its opening quotes. Three quotes behind a backslash do
not close it. -/
def blockRaw? : List Char → Option (List Char × List Char)
  | [] => none
  | '\\' :: '"' :: '"' :: '"' :: r =>
    (blockRaw? r).map fun (t, r) => ('\\' :: '"' :: '"' :: '"' :: t, r)
  | '"' :: '"' :: '"' :: r => some ([], r)
  | c :: r => (blockRaw? r).map fun (t, r) => (c :: t, r)

/-- The lines of a text. A line ends with a line feed, and a carriage return before that belongs to the
end; a text that ends with a line feed has no further line. -/
def lines : List Char → List (List Char)
  | [] => []
  | '\n' :: r => [] :: lines r
  | '\r' :: '\n' :: r => [] :: lines r
  | c :: r =>
    match lines r with
    | [] => [[c]]
    | line :: more => (c :: line) :: more

/-- How many bytes of UTF-8 a text takes. -/
def byteLength : List Char → Nat
  | [] => 0
  | c :: r => c.utf8Size + byteLength r

/-- How many bytes of UTF-8 the leading white space of a line takes. -/
def indent (line : List Char) : Nat := byteLength (line.takeWhile isBlank)

/-- A line without its first `n` bytes; a shorter line stays as it is. -/
def unindent (n : Nat) (line : List Char) : List Char :=
  if byteLength line < n then line else dropBytes n line
where
  /-- Drops characters until `n` bytes are dropped. -/
  dropBytes (n : Nat) : List Char → List Char
    | [] => []
    | c :: r => if n = 0 then c :: r else dropBytes (n - c.utf8Size) r

/-- Three quotes behind a backslash, put for what they stand for. -/
def unescapeBlock : List Char → List Char
  | [] => []
  | '\\' :: '"' :: '"' :: '"' :: r => '"' :: '"' :: '"' :: unescapeBlock r
  | c :: r => c :: unescapeBlock r

/-- Whether a line is white space alone. -/
def isBlankLine (line : List Char) : Bool := line.all isBlank

/-- The text of a block string: the indentation that all its lines but the first share is taken off
them, and blank lines at both ends are left out. -/
def blockText (raw : List Char) : List Char :=
  let all := lines raw
  let shared := ((all.drop 1).filter (!isBlankLine ·)).map indent
  let body := match all with
    | [] => []
    | first :: rest => first :: match shared.min? with
      | some n => rest.map (unindent n)
      | none => rest
  let kept := ((body.dropWhile isBlankLine).reverse.dropWhile isBlankLine).reverse
  (kept.map unescapeBlock).intersperse ['\n'] |>.flatten

/-! ### Tokens -/

/-- Reads the token that begins with the first character. -/
def next? : List Char → Option (Token × List Char)
  | '.' :: '.' :: '.' :: r => some (.spread, r)
  | '"' :: '"' :: '"' :: r => (blockRaw? r).map fun (raw, r) => (.string (String.ofList (blockText raw)), r)
  | '"' :: r => (string? r).map fun (text, r) => (.string (String.ofList text), r)
  | c :: r =>
    if marks.contains c then some (.mark c, r)
    else if isWordStart c then
      (word? (c :: r)).map fun (w, r) => (.name (String.ofList w), r)
    else if c = '-' || c.isDigit then
      let text := c :: r.takeWhile (!endsNumber ·)
      if isNumber text then some (.number (String.ofList text), r.dropWhile (!endsNumber ·)) else none
    else none
  | [] => none

/-- The tokens of a text, at most `fuel` of them. -/
def allFrom : Nat → List Char → Option (List Token)
  | _, [] => some []
  | 0, _ => none
  | fuel + 1, s => do
    let (token, r) ← next? s
    let tokens ← allFrom fuel (skip r)
    some (token :: tokens)

/-- Whether never more than `room` brackets are open at once. -/
def fitsDepth (room : Nat) : List Token → Bool
  | [] => true
  | token :: tokens =>
    if token ∈ [mark '(', mark '[', mark '{'] then room ≠ 0 && fitsDepth (room - 1) tokens
    else if token ∈ [mark ')', mark ']', mark '}'] then fitsDepth (room + 1) tokens
    else fitsDepth room tokens

/-- How many brackets may be open at once. -/
def depthLimit : Nat := 50

/-- The tokens of a text. Every token takes a character, so the length of the text bounds their
number. -/
def all? (s : String) : Option (List Token) := do
  let tokens ← allFrom (s.toList.length + 1) (skip s.toList)
  if fitsDepth depthLimit tokens then some tokens else none

end Token

end SchemaQuery.Sdl
