import Mathlib.Data.List.TakeWhile
import SchemaQuery.Proofs.Text.Word
import SchemaQuery.Text.Blank

/-!
White space beside words. No character is both, so where white space ends and a word begins is never in
doubt, and trimming takes exactly the white space away that is there.
-/

namespace SchemaQuery.Text

theorem toNat_of_isBlank {c : Char} (h : isBlank c = true) : c.toNat ≤ 32 ∨ 133 ≤ c.toNat := by
  simp only [isBlank, blankRanges, List.any_cons, List.any_nil, Bool.or_eq_true, Bool.and_eq_true,
    decide_eq_true_eq, Bool.or_false] at h
  omega

theorem toNat_of_isWordPart {c : Char} (h : isWordPart c = true) : 48 ≤ c.toNat ∧ c.toNat ≤ 122 := by
  replace h : (decide (c.val ≥ 'A'.val ∧ c.val ≤ 'Z'.val) ||
      decide (c.val ≥ 'a'.val) && decide (c.val ≤ 'z'.val) ||
      decide (c.val ≥ '0'.val) && decide (c.val ≤ '9'.val) || c == '_') = true := h
  simp only [Bool.or_eq_true, Bool.and_eq_true, decide_eq_true_eq, beq_iff_eq, ge_iff_le,
    UInt32.le_iff_toNat_le] at h
  change (((65 ≤ c.toNat ∧ c.toNat ≤ 90) ∨ (97 ≤ c.toNat ∧ c.toNat ≤ 122)) ∨
    (48 ≤ c.toNat ∧ c.toNat ≤ 57)) ∨ c = '_' at h
  rcases h with h | rfl
  · omega
  · decide

theorem isWordPart_of_isBlank {c : Char} (h : isBlank c = true) : isWordPart c = false := by
  rw [Bool.eq_false_iff]
  intro hw
  have hb := toNat_of_isBlank h
  have hp := toNat_of_isWordPart hw
  omega

theorem isBlank_of_isWordPart {c : Char} (h : isWordPart c = true) : isBlank c = false := by
  rw [Bool.eq_false_iff]
  intro hb
  rw [isWordPart_of_isBlank hb] at h
  cases h

/-- White space begins nothing in query text. -/
theorem notMem_of_isBlank {c : Char} (h : isBlank c = true) :
    c ∉ ['\'', '"', '-', '/', '*', '$'] := by
  intro hc
  simp only [List.mem_cons, List.not_mem_nil, or_false] at hc
  rcases hc with rfl | rfl | rfl | rfl | rfl | rfl <;> exact absurd h (by decide)

/-- Behind white space, trimming finds the text that begins with something else. -/
theorem trimStart_append {gap r : List Char} (hgap : ∀ c ∈ gap, isBlank c = true)
    (hr : ∀ c ∈ r.head?, isBlank c = false) : trimStart (gap ++ r) = r := by
  rw [trimStart, List.dropWhile_append_of_pos hgap]
  cases r with
  | nil => rfl
  | cons c r => rw [List.dropWhile_cons_of_neg (by simp [hr c rfl])]

theorem exists_trimStart_eq (s : List Char) :
    ∃ gap, s = gap ++ trimStart s ∧ ∀ c ∈ gap, isBlank c = true :=
  ⟨s.takeWhile isBlank, List.takeWhile_append_dropWhile.symm, fun _ hc => List.mem_takeWhile_imp hc⟩

theorem trimStart_eq_cons_iff {s r : List Char} {c : Char} (hc : isBlank c = false) :
    trimStart s = c :: r ↔ ∃ gap, s = gap ++ c :: r ∧ ∀ d ∈ gap, isBlank d = true := by
  constructor
  · intro h
    obtain ⟨gap, hs, hgap⟩ := exists_trimStart_eq s
    rw [h] at hs
    exact ⟨gap, hs, hgap⟩
  · rintro ⟨gap, rfl, hgap⟩
    refine trimStart_append hgap fun d hd => ?_
    obtain rfl : c = d := by simpa using hd
    exact hc

/-- Exactly the word is read that stands behind the white space at the front of a text. -/
theorem word?_trimStart_eq_some_iff {s w r : List Char} :
    word? (trimStart s) = some (w, r) ↔
      ∃ gap, s = gap ++ (w ++ r) ∧ (∀ c ∈ gap, isBlank c = true) ∧ isWord w = true ∧
        ∀ c ∈ r.head?, isWordPart c = false := by
  rw [word?_eq_some_iff]
  constructor
  · rintro ⟨htrim, hword, hend⟩
    obtain ⟨gap, hs, hgap⟩ := exists_trimStart_eq s
    rw [htrim] at hs
    exact ⟨gap, hs, hgap, hword, hend⟩
  · rintro ⟨gap, rfl, hgap, hword, hend⟩
    refine ⟨trimStart_append hgap fun c hc => ?_, hword, hend⟩
    cases w with
    | nil => cases hword
    | cons d w =>
      obtain rfl : d = c := by simpa using hc
      exact isBlank_of_isWordPart (isWordPart_of_mem hword (List.mem_cons_self ..))

end SchemaQuery.Text
