/-!
Leftmost occurrences of a pattern in a text. The text is read once from left to right: where the
pattern begins, the whole occurrence is taken, and reading goes on behind it, so occurrences never
overlap and nothing that was taken is looked at again. The pieces put together are the text.
-/

namespace SchemaQuery.Text

/-- A character outside every occurrence, or an occurrence with its text. -/
inductive Piece (α : Type) where
  | plain (c : Char)
  | found (item : α) (text : List Char)
deriving DecidableEq, Repr

namespace Piece

variable {α : Type}

/-- The text of a piece. -/
def text : Piece α → List Char
  | .plain c => [c]
  | .found _ t => t

/-- What was found, if anything. -/
def item? : Piece α → Option α
  | .plain _ => none
  | .found a _ => some a

end Piece

variable {α : Type}

/-- A pattern: given a character and what follows it, the item that begins with the character, if one
does, and how many of the characters that follow belong to it. -/
abbrev Pattern (α : Type) := Char → List Char → Option (α × Nat)

/-- The pieces of a text behind its first `skip` characters. -/
def piecesFrom (find : Pattern α) : Nat → List Char → List (Piece α)
  | _, [] => []
  | skip + 1, _ :: r => piecesFrom find skip r
  | 0, c :: r =>
    match find c r with
    | some (a, n) => .found a (c :: r.take n) :: piecesFrom find n r
    | none => .plain c :: piecesFrom find 0 r

/-- The pieces of a text. -/
def pieces (find : Pattern α) (s : List Char) : List (Piece α) := piecesFrom find 0 s

/-- The items that occur in a text, from left to right. -/
def items (find : Pattern α) (s : List Char) : List α := (pieces find s).filterMap Piece.item?

theorem piecesFrom_eq_drop (find : Pattern α) (k : Nat) (s : List Char) :
    piecesFrom find k s = pieces find (s.drop k) := by
  induction s generalizing k with
  | nil => cases k <;> simp [piecesFrom, pieces]
  | cons c r ih =>
    cases k with
    | zero => rfl
    | succ k => simpa [piecesFrom] using ih k

@[simp] theorem pieces_nil (find : Pattern α) : pieces find [] = [] := rfl

theorem pieces_cons_none {find : Pattern α} {c : Char} {r : List Char} (h : find c r = none) :
    pieces find (c :: r) = .plain c :: pieces find r := by
  simp [pieces, piecesFrom, h]

/-- Where an item begins, it is the first piece and reading goes on behind it. -/
theorem pieces_cons_some {find : Pattern α} {c : Char} {r : List Char} {a : α} {n : Nat}
    (h : find c r = some (a, n)) :
    pieces find (c :: r) = .found a (c :: r.take n) :: pieces find (r.drop n) := by
  rw [pieces, piecesFrom, h]
  simp only [piecesFrom_eq_drop]

/-- Nothing is lost: the pieces make up the text. -/
theorem flatMap_text_piecesFrom (find : Pattern α) (k : Nat) (s : List Char) :
    (piecesFrom find k s).flatMap Piece.text = s.drop k := by
  induction s generalizing k with
  | nil => cases k <;> simp [piecesFrom]
  | cons c r ih =>
    cases k with
    | succ k => simpa [piecesFrom] using ih k
    | zero =>
      simp only [piecesFrom, List.drop_zero]
      split
      · simp [Piece.text, ih]
      · simpa [Piece.text] using ih 0

end SchemaQuery.Text
