import Mathlib.Data.List.Basic
import SchemaQuery.Text.Occurrence

/-!
Patterns whose occurrences begin with one mark and hold no second one. Such occurrences cannot overlap,
so reading from left to right makes no difference: an item occurs in a text exactly if it begins at some
mark of it, and the items of a text are those that begin at its marks, one mark after the other.
-/

namespace SchemaQuery.Text

variable {α : Type} {find : Pattern α} {mark : Char}

theorem items_cons_none {c : Char} {r : List Char} (h : find c r = none) :
    items find (c :: r) = items find r := by
  have hitem : (Piece.plain c : Piece α).item? = none := rfl
  rw [items, pieces_cons_none h, List.filterMap_cons_none hitem, items]

theorem items_cons_some {c : Char} {r : List Char} {a : α} {n : Nat} (h : find c r = some (a, n)) :
    items find (c :: r) = a :: items find (r.drop n) := by
  have hitem : (Piece.found a (c :: r.take n)).item? = some a := rfl
  rw [items, pieces_cons_some h, List.filterMap_cons_some hitem, items]

theorem exists_of_append_eq_append_cons {u s before r : List Char} {c : Char} (hu : c ∉ u)
    (h : u ++ s = before ++ c :: r) : ∃ between, before = u ++ between ∧ s = between ++ c :: r := by
  rcases List.append_eq_append_iff.mp h with ⟨between, rfl, hs⟩ | ⟨rest, rfl, hr⟩
  · exact ⟨between, rfl, hs⟩
  · cases rest with
    | nil => exact ⟨[], by simp, hr.symm⟩
    | cons d rest =>
      obtain ⟨rfl, -⟩ := List.cons.inj hr
      simp at hu

/-- What is found begins with the mark and holds no other. -/
structure IsMarked (find : Pattern α) (mark : Char) : Prop where
  eq_mark : ∀ {c : Char} {r : List Char} {a : α} {n : Nat}, find c r = some (a, n) → c = mark
  notMem : ∀ {c : Char} {r : List Char} {a : α} {n : Nat}, find c r = some (a, n) → mark ∉ r.take n

namespace IsMarked

theorem find_eq_none (h : IsMarked find mark) {c : Char} (hc : c ≠ mark) (r : List Char) :
    find c r = none := by
  cases hf : find c r with
  | none => rfl
  | some found => exact absurd (h.eq_mark hf) hc

theorem pieces_append (h : IsMarked find mark) {u : List Char} (hu : mark ∉ u) (s : List Char) :
    pieces find (u ++ s) = u.map .plain ++ pieces find s := by
  induction u with
  | nil => rfl
  | cons c u ih =>
    obtain ⟨hc, hu⟩ := not_or.mp (mt List.mem_cons.mpr hu)
    rw [List.cons_append, pieces_cons_none (h.find_eq_none (Ne.symm hc) _), ih hu]
    rfl

theorem items_append (h : IsMarked find mark) {u : List Char} (hu : mark ∉ u) (s : List Char) :
    items find (u ++ s) = items find s := by
  induction u with
  | nil => rfl
  | cons c u ih =>
    obtain ⟨hc, hu⟩ := not_or.mp (mt List.mem_cons.mpr hu)
    rw [List.cons_append, items_cons_none (h.find_eq_none (Ne.symm hc) _), ih hu]

theorem items_cons (h : IsMarked find mark) (c : Char) (r : List Char) :
    items find (c :: r) = ((find c r).map Prod.fst).toList ++ items find r := by
  cases hf : find c r with
  | none => rw [items_cons_none hf]; rfl
  | some found =>
    obtain ⟨a, n⟩ := found
    have hdrop : items find (r.drop n) = items find r := by
      rw [← h.items_append (h.notMem hf) (r.drop n), List.take_append_drop]
    rw [items_cons_some hf, hdrop]
    rfl

/-- An item occurs in a text exactly if it begins at some mark of it. -/
theorem mem_items_iff (h : IsMarked find mark) {s : List Char} {a : α} :
    a ∈ items find s ↔ ∃ before r n, s = before ++ mark :: r ∧ find mark r = some (a, n) := by
  induction s with
  | nil => simp [items]
  | cons c s ih =>
    rw [h.items_cons, List.mem_append, ih]
    constructor
    · rintro (hc | ⟨before, r, n, rfl, hf⟩)
      · obtain ⟨⟨b, n⟩, hf, rfl⟩ : ∃ found, find c s = some found ∧ found.1 = a := by simpa using hc
        obtain rfl := h.eq_mark hf
        exact ⟨[], s, n, rfl, hf⟩
      · exact ⟨c :: before, r, n, rfl, hf⟩
    · rintro ⟨before, r, n, hs, hf⟩
      cases before with
      | nil =>
        obtain ⟨rfl, rfl⟩ := List.cons.inj hs
        exact .inl (by simp [hf])
      | cons d before =>
        obtain ⟨rfl, rfl⟩ := List.cons.inj hs
        exact .inr ⟨before, r, n, rfl, hf⟩

end IsMarked

end SchemaQuery.Text
