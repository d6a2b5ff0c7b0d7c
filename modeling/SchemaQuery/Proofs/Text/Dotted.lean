import SchemaQuery.Proofs.Text.Word

/-!
Words joined by points. Reading character by character, with the one thing kept in mind whether a word has
to begin, accepts exactly the texts that are a word and then further words with a point in front of each:
no point comes first or last, no two meet, and nothing else is in the text, not even at its end.
-/

namespace SchemaQuery.Text

/-- A text is a word, and then further words with a point in front of each. -/
def IsDotted (s : List Char) : Prop :=
  ∃ (word : List Char) (words : List (List Char)), isWord word = true ∧ (∀ w ∈ words, isWord w = true) ∧
    s = word ++ words.flatMap ('.' :: ·)

/-- A text that goes on with a word: characters of it, and then words with a point in front of each. -/
def GoesOnDotted (s : List Char) : Prop :=
  ∃ (part : List Char) (words : List (List Char)), (∀ c ∈ part, isWordPart c = true) ∧
    (∀ w ∈ words, isWord w = true) ∧ s = part ++ words.flatMap ('.' :: ·)

theorem isDotted_cons {c : Char} {s : List Char} :
    IsDotted (c :: s) ↔ isWordStart c = true ∧ GoesOnDotted s := by
  constructor
  · rintro ⟨word, words, hword, hwords, heq⟩
    cases word with
    | nil => cases hword
    | cons d part =>
      obtain ⟨hd, hpart⟩ := Bool.and_eq_true_iff.mp hword
      obtain ⟨rfl, rfl⟩ := List.cons.inj heq
      exact ⟨hd, part, words, List.all_eq_true.mp hpart, hwords, rfl⟩
  · rintro ⟨hc, part, words, hpart, hwords, rfl⟩
    exact ⟨c :: part, words, Bool.and_eq_true_iff.mpr ⟨hc, List.all_eq_true.mpr hpart⟩, hwords, rfl⟩

theorem goesOnDotted_point {s : List Char} : GoesOnDotted ('.' :: s) ↔ IsDotted s := by
  constructor
  · rintro ⟨part, words, hpart, hwords, heq⟩
    cases part with
    | cons d part =>
      obtain ⟨rfl, -⟩ := List.cons.inj heq
      exact absurd (hpart '.' (List.mem_cons_self ..)) (by decide)
    | nil =>
      cases words with
      | nil => cases heq
      | cons word words =>
        obtain ⟨hword, hwords⟩ := List.forall_mem_cons.mp hwords
        exact ⟨word, words, hword, hwords, (List.cons.inj heq).2⟩
  · rintro ⟨word, words, hword, hwords, rfl⟩
    exact ⟨[], word :: words, by simp, List.forall_mem_cons.mpr ⟨hword, hwords⟩, rfl⟩

theorem goesOnDotted_cons {c : Char} (hc : c ≠ '.') {s : List Char} :
    GoesOnDotted (c :: s) ↔ isWordPart c = true ∧ GoesOnDotted s := by
  constructor
  · rintro ⟨part, words, hpart, hwords, heq⟩
    cases part with
    | nil =>
      cases words with
      | nil => cases heq
      | cons word words => exact absurd (List.cons.inj heq).1 hc
    | cons d part =>
      obtain ⟨rfl, rfl⟩ := List.cons.inj heq
      obtain ⟨hd, hpart⟩ := List.forall_mem_cons.mp hpart
      exact ⟨hd, part, words, hpart, hwords, rfl⟩
  · rintro ⟨hc, part, words, hpart, hwords, rfl⟩
    exact ⟨c :: part, words, List.forall_mem_cons.mpr ⟨hc, hpart⟩, hwords, rfl⟩

/-- Reading character by character accepts exactly the dotted words, and within one what goes on with
it. -/
theorem isDottedFrom_iff {atStart : Bool} {s : List Char} :
    isDottedFrom atStart s = true ↔ if atStart then IsDotted s else GoesOnDotted s := by
  induction s generalizing atStart with
  | nil =>
    cases atStart with
    | true =>
      refine iff_of_false (by decide) ?_
      rintro ⟨word, words, hword, -, heq⟩
      rw [(List.append_eq_nil_iff.mp heq.symm).1] at hword
      cases hword
    | false => exact iff_of_true rfl ⟨[], [], by simp, by simp, rfl⟩
  | cons c s ih =>
    rw [isDottedFrom]
    cases atStart with
    | true =>
      rw [if_pos rfl, if_pos rfl, Bool.and_eq_true, ih, isDotted_cons]
      exact Iff.rfl
    | false =>
      rw [if_neg Bool.false_ne_true, if_neg Bool.false_ne_true]
      by_cases hc : c = '.'
      · subst hc
        rw [if_pos rfl, ih, goesOnDotted_point]
        exact Iff.rfl
      · rw [if_neg hc, Bool.and_eq_true, ih, goesOnDotted_cons hc]
        exact Iff.rfl

/-- Exactly the words joined by points are accepted. -/
theorem isDottedWord_iff {s : List Char} : isDottedWord s = true ↔ IsDotted s :=
  isDottedFrom_iff

end SchemaQuery.Text
