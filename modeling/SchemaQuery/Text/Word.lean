/-!
Words: an ASCII letter or underscore, then ASCII letters, digits and underscores. Argument names,
join-table names and the parts of a physical table name are words. A word that is read off a text is
always the longest one, so no name is ever found inside a longer name. Beside them stand the digits by
which an escape names a character.
-/

namespace SchemaQuery.Text

/-- A character that may begin a word. -/
def isWordStart (c : Char) : Bool := c.isAlpha || c == '_'

/-- A character that may follow in a word. -/
def isWordPart (c : Char) : Bool := c.isAlphanum || c == '_'

/-- The longest word at the front of a text, and what follows it. -/
def word? : List Char → Option (List Char × List Char)
  | [] => none
  | c :: r => if isWordStart c then some (c :: r.takeWhile isWordPart, r.dropWhile isWordPart) else none

/-- Whether the whole text is one word. -/
def isWord : List Char → Bool
  | [] => false
  | c :: r => isWordStart c && r.all isWordPart

/-- Whether a text is words joined by single points. With `atStart` a word has to begin here. -/
def isDottedFrom (atStart : Bool) : List Char → Bool
  | [] => !atStart
  | c :: r =>
    if atStart then isWordStart c && isDottedFrom false r
    else if c = '.' then isDottedFrom true r
    else isWordPart c && isDottedFrom false r

/-- Whether a text is one or more words joined by single points, with nothing before or after. -/
def isDottedWord (s : List Char) : Bool := isDottedFrom true s

theorem word?_append {s w r : List Char} (h : word? s = some (w, r)) : s = w ++ r := by
  cases s with
  | nil => simp [word?] at h
  | cons c s =>
    simp only [word?] at h
    split at h
    · simp only [Option.some.injEq, Prod.mk.injEq] at h
      obtain ⟨rfl, rfl⟩ := h
      simp [List.takeWhile_append_dropWhile]
    · simp at h

/-! ### Hexadecimal digits, in either letter case -/

/-- The value of a hexadecimal digit. -/
def hexDigit? (c : Char) : Option Nat :=
  if '0' ≤ c ∧ c ≤ '9' then some (c.toNat - '0'.toNat)
  else if 'a' ≤ c ∧ c ≤ 'f' then some (c.toNat - 'a'.toNat + 10)
  else if 'A' ≤ c ∧ c ≤ 'F' then some (c.toNat - 'A'.toNat + 10)
  else none

/-- The number that hexadecimal digits stand for. -/
def hex? (ds : List Char) : Option Nat := ds.foldlM (fun n d => (hexDigit? d).map (16 * n + ·)) 0

end SchemaQuery.Text
