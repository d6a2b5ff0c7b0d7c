import SchemaQuery.Proofs.Text.Word
import SchemaQuery.Query.Placeholder

/-!
Where placeholders stand. A placeholder begins at a character exactly if the text goes on with its form,
its name and then with no character of a word. So a text whose quotes are doubled has the same
placeholders, and its doubled quotes are the only difference between the two.
-/

namespace SchemaQuery

open Text
open Value (escape)

/-! ### Escaping -/

theorem Value.head?_escape (s : List Char) : (escape s).head? = s.head? := by
  cases s with
  | nil => rfl
  | cons c s => rw [escape]; split <;> simp_all

theorem Value.escape_append (s t : List Char) : escape (s ++ t) = escape s ++ escape t := by
  induction s with
  | nil => rfl
  | cons c s ih => rw [List.cons_append, escape, escape, ih]; split <;> rfl

theorem Value.escape_eq_self {s : List Char} (h : '\'' ∉ s) : escape s = s := by
  induction s with
  | nil => rfl
  | cons c s ih =>
    obtain ⟨hc, hs⟩ := not_or.mp (mt List.mem_cons.mpr h)
    rw [escape, if_neg (Ne.symm hc), ih hs]

/-- A part without quotes at the front of a doubled text is at the front of the text. -/
theorem Value.exists_of_escape_eq_append {s u r : List Char} (hu : '\'' ∉ u)
    (h : escape s = u ++ r) : ∃ s', s = u ++ s' ∧ r = escape s' := by
  induction u generalizing s with
  | nil => exact ⟨s, rfl, h.symm⟩
  | cons c u ih =>
    obtain ⟨hc, htail⟩ := not_or.mp (mt List.mem_cons.mpr hu)
    cases s with
    | nil => cases h
    | cons d s =>
      by_cases hd : d = '\''
      · rw [escape, if_pos hd] at h
        exact absurd (List.cons.inj h).1 hc
      · rw [escape, if_neg hd] at h
        obtain ⟨rfl, hrest⟩ := List.cons.inj h
        obtain ⟨s', rfl, hr⟩ := ih htail hrest
        exact ⟨s', rfl, hr⟩

namespace Placeholder

/-- A placeholder as it is written, after its dollar sign. -/
def tail (p : Placeholder) : List Char := p.scope.lead ++ p.key.toList

/-- The name of a placeholder is a word, and what is behind it does not go on with it. -/
def EndsBefore (p : Placeholder) (rest : List Char) : Prop :=
  isWord p.key.toList = true ∧ ∀ c ∈ rest.head?, isWordPart c = false

theorem rest?_eq_some_iff {scope : Scope} {s : List Char} {p : Placeholder} {n : Nat} :
    rest? scope s = some (p, n) ↔
      p.scope = scope ∧ n = p.tail.length ∧ ∃ rest, s = p.tail ++ rest ∧ p.EndsBefore rest := by
  constructor
  · intro h
    simp only [rest?, Option.bind_eq_bind, Option.bind_eq_some_iff] at h
    obtain ⟨t, ht, ⟨w, rest⟩, hw, h⟩ := h
    obtain ⟨rfl, rfl⟩ := by simpa using h
    obtain ⟨rfl, hword, hend⟩ := word?_eq_some_iff.mp hw
    refine ⟨rfl, by simp [tail], rest, ?_, by simpa [EndsBefore] using ⟨hword, hend⟩⟩
    simpa [tail] using (List.isPrefixOf?_eq_some_iff_append_eq.mp ht).symm
  · rintro ⟨rfl, rfl, rest, rfl, hword, hend⟩
    have hlead : p.scope.lead.isPrefixOf? (p.tail ++ rest) = some (p.key.toList ++ rest) :=
      List.isPrefixOf?_eq_some_iff_append_eq.mpr (by simp [tail])
    have hkey : word? (p.key.toList ++ rest) = some (p.key.toList, rest) :=
      word?_eq_some_iff.mpr ⟨rfl, hword, hend⟩
    rw [rest?, hlead, Option.bind_eq_bind, Option.bind_some, hkey]
    simp [tail]

/-- Exactly the placeholders are found that are written in full and end there. -/
theorem find_eq_some_iff {c : Char} {r : List Char} {p : Placeholder} {n : Nat} :
    find c r = some (p, n) ↔
      c = '$' ∧ n = p.tail.length ∧ ∃ rest, r = p.tail ++ rest ∧ p.EndsBefore rest := by
  unfold find
  split
  · next hc =>
    rw [Option.or_eq_some_iff, rest?_eq_some_iff, rest?_eq_some_iff]
    constructor
    · rintro (⟨-, h⟩ | ⟨-, -, h⟩) <;> exact ⟨hc, h⟩
    · rintro ⟨-, h⟩
      cases hs : p.scope with
      | args => exact .inl ⟨rfl, h⟩
      | source =>
        refine .inr ⟨?_, rfl, h⟩
        -- The two forms begin with different characters.
        obtain ⟨-, rest, rfl, -⟩ := h
        cases hn : rest? .args (p.tail ++ rest) with
        | none => rfl
        | some found =>
          obtain ⟨q, m⟩ := found
          obtain ⟨hq, -, rest', h, -⟩ := rest?_eq_some_iff.mp hn
          simp [tail, hs, hq, Scope.lead] at h
  · next hc => simp [hc]

theorem quote_notMem_tail {p : Placeholder} (h : isWord p.key.toList = true) : '\'' ∉ p.tail := by
  rw [tail, List.mem_append, not_or]
  refine ⟨by cases p.scope <;> decide, fun hq => ?_⟩
  exact absurd (isWordPart_of_mem h hq) (by decide)

/-- Doubling quotes changes nothing about the placeholder that begins at a character. -/
theorem find_escape (c : Char) (r : List Char) : find c (escape r) = find c r := by
  have iff (p : Placeholder) (n : Nat) : find c (escape r) = some (p, n) ↔ find c r = some (p, n) := by
    rw [find_eq_some_iff, find_eq_some_iff]
    constructor
    · rintro ⟨rfl, rfl, rest, hr, hword, hend⟩
      obtain ⟨r', rfl, rfl⟩ := Value.exists_of_escape_eq_append (quote_notMem_tail hword) hr
      exact ⟨rfl, rfl, r', rfl, hword, by rwa [Value.head?_escape] at hend⟩
    · rintro ⟨rfl, rfl, rest, rfl, hword, hend⟩
      refine ⟨rfl, rfl, escape rest, ?_, hword, by rwa [Value.head?_escape]⟩
      rw [Value.escape_append, Value.escape_eq_self (quote_notMem_tail hword)]
  exact Option.ext fun ⟨p, n⟩ => iff p n

/-- What becomes of a piece when quotes are doubled. -/
def doubled : Piece Placeholder → List (Piece Placeholder)
  | .plain c => if c = '\'' then [.plain '\'', .plain '\''] else [.plain c]
  | .found p t => [.found p t]

/-- Doubling quotes changes only quotes. -/
theorem pieces_escape (s : List Char) :
    pieces find (escape s) = (pieces find s).flatMap doubled := by
  induction h : s.length using Nat.strongRecOn generalizing s with
  | ind k ih =>
    subst h
    cases s with
    | nil => rfl
    | cons c r =>
      have hr := ih r.length (by simp) r rfl
      by_cases hc : c = '\''
      · have hnone (t : List Char) : find '\'' t = none := by simp [find]
        subst hc
        rw [escape, if_pos rfl, pieces_cons_none (hnone _), pieces_cons_none (hnone _),
          pieces_cons_none (hnone _), hr]
        rfl
      · rw [escape, if_neg hc]
        cases hf : find c r with
        | none =>
          rw [pieces_cons_none hf, pieces_cons_none (by rw [find_escape, hf]), hr]
          simp [doubled, hc]
        | some found =>
          obtain ⟨p, n⟩ := found
          rw [pieces_cons_some hf, pieces_cons_some (by rw [find_escape, hf])]
          obtain ⟨-, rfl, rest, rfl, hword, -⟩ := find_eq_some_iff.mp hf
          have hlt : rest.length < ('$' :: (p.tail ++ rest)).length := by
            rw [List.length_cons, List.length_append]
            omega
          have hrest := ih rest.length hlt rest rfl
          rw [Value.escape_append, Value.escape_eq_self (quote_notMem_tail hword)]
          simp only [List.take_left', List.drop_left', List.flatMap_cons, hrest]
          rfl

theorem text_of_mem_pieces {s t : List Char} {p : Placeholder} (h : .found p t ∈ pieces find s) :
    t = '$' :: p.tail ∧ isWord p.key.toList = true := by
  obtain ⟨c, r, n, hf, rfl⟩ := exists_find_of_mem_pieces h
  obtain ⟨rfl, rfl, rest, rfl, hword, -⟩ := find_eq_some_iff.mp hf
  exact ⟨by rw [List.take_left' rfl], hword⟩

end Placeholder

end SchemaQuery
