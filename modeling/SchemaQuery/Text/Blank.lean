/-!
White space in the sense of the Unicode property `White_Space`, and trimming by it. The property is
wider than what a keyboard shows: it holds the line and paragraph separators, the no-break spaces and
the ideographic space, so a text that looks indented is trimmed like one that is.
-/

namespace SchemaQuery.Text

/-- Inclusive code point ranges of the property `White_Space`. -/
def blankRanges : List (Nat × Nat) :=
  [(0x09, 0x0d), (0x20, 0x20), (0x85, 0x85), (0xa0, 0xa0), (0x1680, 0x1680), (0x2000, 0x200a),
   (0x2028, 0x2029), (0x202f, 0x202f), (0x205f, 0x205f), (0x3000, 0x3000)]

/-- Whether a character has the property `White_Space`. -/
def isBlank (c : Char) : Bool :=
  blankRanges.any fun (first, last) => first ≤ c.toNat && c.toNat ≤ last

/-- The text without its leading white space. -/
def trimStart (s : List Char) : List Char := s.dropWhile isBlank

/-- The text without its trailing white space. -/
def trimEnd (s : List Char) : List Char := (s.reverse.dropWhile isBlank).reverse

/-- The text without white space at either end. -/
def trim (s : List Char) : List Char := trimEnd (trimStart s)

theorem trimStart_head? (s : List Char) : ∀ c ∈ (trimStart s).head?, isBlank c = false := by
  intro c hc
  induction s with
  | nil => simp [trimStart] at hc
  | cons d r ih =>
    by_cases hd : isBlank d
    · exact ih (by simpa [trimStart, List.dropWhile_cons, hd] using hc)
    · simp [trimStart, hd] at hc
      simpa [hc] using hd

theorem trimStart_eq_nil_iff {s : List Char} : trimStart s = [] ↔ ∀ c ∈ s, isBlank c = true := by
  induction s with
  | nil => simp [trimStart]
  | cons d r ih =>
    rw [List.forall_mem_cons, ← ih, trimStart, List.dropWhile_cons]
    by_cases hd : isBlank d <;> simp [hd, trimStart]

end SchemaQuery.Text
