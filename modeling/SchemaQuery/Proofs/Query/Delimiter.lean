import Mathlib.Tactic.SplitIfs
import SchemaQuery.Proofs.Query.Resolution

/-!
What delimits literals, identifiers, comments and statements, and what becomes of it when macros are
replaced. Neither a macro nor a physical name is empty or has a character in it that begins a delimiter, so
nothing is added, and no two characters meet that stood apart: the delimiters of a text are those of what
becomes of it, in the same order.
-/

namespace SchemaQuery

open Text

/-- What opens or closes a region of query text, or ends a statement. -/
inductive Delimiter where
  | quote
  | doubleQuote
  | semicolon
  | lineComment
  | commentStart
  | commentEnd
deriving DecidableEq, Repr

namespace Delimiter

/-- The characters that a delimiter can begin with. -/
def starts : List Char := ['\'', '"', ';', '-', '/', '*']

/-- The delimiter that begins with a character. -/
def find : Pattern Delimiter := fun c r =>
  if c = '\'' then some (.quote, 0)
  else if c = '"' then some (.doubleQuote, 0)
  else if c = ';' then some (.semicolon, 0)
  else if c = '-' ∧ r.head? = some '-' then some (.lineComment, 1)
  else if c = '/' ∧ r.head? = some '*' then some (.commentStart, 1)
  else if c = '*' ∧ r.head? = some '/' then some (.commentEnd, 1)
  else none

/-- The delimiters of a text from left to right, none of which overlap. -/
def inOrder (s : List Char) : List Delimiter := items find s

/-- The delimiters that begin at the characters of a text, whether they overlap or not. -/
def everywhere : List Char → List Delimiter
  | [] => []
  | c :: r => ((find c r).map Prod.fst).toList ++ everywhere r

theorem find_eq_none {c : Char} (hc : c ∉ starts) (r : List Char) : find c r = none := by
  simp only [starts, List.mem_cons, List.not_mem_nil, or_false, not_or] at hc
  simp [find, hc]

/-- Which delimiter begins with a character is decided by the character behind it, if at all. -/
theorem find_congr {r r' : List Char} (h : ∀ d ∈ ['-', '/', '*'], r.head? = some d ↔ r'.head? = some d)
    (c : Char) : find c r = find c r' := by
  simp only [find, h '-' (by decide), h '/' (by decide), h '*' (by decide)]

theorem exists_of_find {c : Char} {r : List Char} {delimiter : Delimiter} {n : Nat}
    (h : find c r = some (delimiter, n)) : ∃ u rest, r = u ++ rest ∧ u.length = n ∧ '$' ∉ u := by
  have hhead {d : Char} (hd : r.head? = some d) (hne : d ≠ '$') :
      ∃ u rest, r = u ++ rest ∧ u.length = 1 ∧ '$' ∉ u := by
    obtain ⟨rest, rfl⟩ := List.head?_eq_some_iff.mp hd
    exact ⟨[d], rest, rfl, rfl, by simpa using hne.symm⟩
  rw [find] at h
  split_ifs at h with _ _ _ hdash hslash hstar <;> obtain ⟨-, rfl⟩ := Prod.mk.inj (Option.some.inj h)
  · exact ⟨[], r, rfl, rfl, by simp⟩
  · exact ⟨[], r, rfl, rfl, by simp⟩
  · exact ⟨[], r, rfl, rfl, by simp⟩
  · exact hhead hdash.2 (by decide)
  · exact hhead hslash.2 (by decide)
  · exact hhead hstar.2 (by decide)

theorem everywhere_append {u : List Char} (hu : ∀ c ∈ u, c ∉ starts) (s : List Char) :
    everywhere (u ++ s) = everywhere s := by
  induction u with
  | nil => rfl
  | cons c u ih =>
    obtain ⟨hc, hu⟩ := List.forall_mem_cons.mp hu
    rw [List.cons_append, everywhere, find_eq_none hc, ih hu]
    rfl

theorem inOrder_append {u : List Char} (hu : ∀ c ∈ u, c ∉ starts) (s : List Char) :
    inOrder (u ++ s) = inOrder s := by
  induction u with
  | nil => rfl
  | cons c u ih =>
    obtain ⟨hc, hu⟩ := List.forall_mem_cons.mp hu
    rw [List.cons_append, inOrder, items_cons_none (find_eq_none hc _)]
    exact ih hu

end Delimiter

/-- A macro begins no delimiter. -/
theorem JoinMacro.IsTail.notMem_starts {name : String} {written : List Char} (h : IsTail name written) :
    ∀ c ∈ '$' :: written, c ∉ Delimiter.starts := by
  intro c hc hdelimiter
  rcases List.mem_cons.mp hc with rfl | hc
  · exact absurd hdelimiter (by decide)
  · simp only [Delimiter.starts, List.mem_cons, List.not_mem_nil, or_false] at hdelimiter
    have hcases := h.char_cases hc
    rcases hdelimiter with rfl | rfl | rfl | rfl | rfl | rfl <;> exact absurd hcases (by decide)

namespace JoinTables

variable {t : JoinTables}

theorem Proper.notMem_starts (ht : t.Proper) {name physical : String}
    (hp : t.get? name = some physical) : ∀ c ∈ physical.toList, c ∉ Delimiter.starts := by
  intro c hc hdelimiter
  have hplain := isPlainPart_of_isDottedFrom (ht name physical hp) c hc
  simp only [Delimiter.starts, List.mem_cons, List.not_mem_nil, or_false] at hdelimiter
  rcases hdelimiter with rfl | rfl | rfl | rfl | rfl | rfl <;>
    exact absurd hplain (by unfold IsPlainPart; decide)

/-- In front of a text and of what becomes of it a character begins the same delimiter: where the first
characters differ, they are a dollar sign and that of a word. -/
theorem Resolves.find_delimiter {s s' : List Char} (h : t.Resolves s s') (ht : t.Proper) (c : Char) :
    Delimiter.find c s' = Delimiter.find c s := by
  refine Delimiter.find_congr (fun d hd => ?_) c
  rcases h.head?_cases ht with ⟨-, hhead⟩ | ⟨-, hdollar, e, r, rfl, he⟩
  · rw [hhead]
  · rw [hdollar, List.head?_cons, Option.some.injEq, Option.some.injEq]
    simp only [List.mem_cons, List.not_mem_nil, or_false] at hd
    refine iff_of_false (fun heq => ?_) (fun heq => ?_)
    · subst heq
      rcases hd with rfl | rfl | rfl <;> exact absurd he (by decide)
    · subst heq
      rcases hd with hd | hd | hd <;> exact absurd hd (by decide)

/-- The delimiters that begin at the characters of a text are those of what becomes of it. -/
theorem Resolves.everywhere_eq {s s' : List Char} (h : t.Resolves s s') (ht : t.Proper) :
    Delimiter.everywhere s' = Delimiter.everywhere s := by
  induction h with
  | nil => rfl
  | @plain c s s' hf h ih => rw [Delimiter.everywhere, Delimiter.everywhere, h.find_delimiter ht, ih]
  | put hw hp h ih =>
    rw [← List.cons_append, Delimiter.everywhere_append hw.notMem_starts,
      Delimiter.everywhere_append (ht.notMem_starts hp), ih]

/-- The delimiters of a text from left to right are those of what becomes of it. -/
theorem Resolves.inOrder_eq {s s' : List Char} (h : t.Resolves s s') (ht : t.Proper) :
    Delimiter.inOrder s' = Delimiter.inOrder s := by
  induction hlen : s.length using Nat.strongRecOn generalizing s s' with
  | ind k ih =>
    subst hlen
    cases h with
    | nil => rfl
    | put hw hp h =>
      rw [← List.cons_append, Delimiter.inOrder_append hw.notMem_starts,
        Delimiter.inOrder_append (ht.notMem_starts hp)]
      exact ih _ (by simp only [List.length_cons, List.length_append]; omega) h rfl
    | @plain c s s' hf h =>
      have hdelimiter := h.find_delimiter ht c
      cases hfind : Delimiter.find c s with
      | none =>
        rw [hfind] at hdelimiter
        rw [Delimiter.inOrder, Delimiter.inOrder, items_cons_none hdelimiter, items_cons_none hfind]
        exact ih s.length (by simp) h rfl
      | some found =>
        obtain ⟨delimiter, n⟩ := found
        rw [hfind] at hdelimiter
        -- The rest of the delimiter has no dollar sign, so both texts go on with it.
        obtain ⟨u, rest, rfl, rfl, hu⟩ := Delimiter.exists_of_find hfind
        obtain ⟨rest', rfl, hrest⟩ := h.of_append hu
        rw [Delimiter.inOrder, Delimiter.inOrder, items_cons_some hdelimiter, items_cons_some hfind,
          List.drop_left' rfl, List.drop_left' rfl]
        exact congrArg _ (ih rest.length (by simp only [List.length_cons, List.length_append]; omega) hrest rfl)

end JoinTables

end SchemaQuery
