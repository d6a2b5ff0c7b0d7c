import SchemaQuery.Proofs.Query.ValueText
import SchemaQuery.Proofs.Text.Blank
import SchemaQuery.Proofs.Text.Word
import SchemaQuery.Query.Classification

/-!
Which texts have a kind. All keywords have the same length, so a keyword that goes on is none, and a text
has the kind of the keyword it begins with exactly if no character of a word comes behind that.
-/

namespace SchemaQuery

open Text

/-- What stands behind the letters that a text begins with. -/
def behindKeyword (s : List Char) : List Char := (trimStart s).dropWhile Char.isAlpha

theorem Text.isWordPart_of_isAlpha {c : Char} (h : c.isAlpha = true) : isWordPart c = true := by
  simp [isWordPart, Char.isAlphanum, h]

theorem Text.not_isAlpha_of_isWordPart {c : Char} (h : isWordPart c = false) : ¬ c.isAlpha = true := by
  intro hc
  rw [isWordPart_of_isAlpha hc] at h
  cases h

namespace QueryKind

theorem length_of_ofKeyword? {letters : List Char} {kind : QueryKind}
    (h : ofKeyword? letters = some kind) : letters.length = 6 := by
  have hkeyword : kind.keyword = letters.map Char.toUpper := by
    simpa using List.find?_some h
  rw [← List.length_map (f := Char.toUpper), ← hkeyword]
  cases kind <;> rfl

/-- White space, and then the keyword of a kind. -/
def IsHead (kind : QueryKind) (u : List Char) : Prop :=
  ∃ gap letters, u = gap ++ letters ∧ (∀ c ∈ gap, isBlank c = true) ∧
    (∀ c ∈ letters, c.isAlpha = true) ∧ ofKeyword? letters = some kind

end QueryKind

/-- A text has a kind exactly if the letters it begins with are its keyword and their word ends there. -/
theorem classify_eq_ok_iff {template : String} {kind : QueryKind} :
    classify template = .ok kind ↔
      (∀ c ∈ (behindKeyword template.toList).head?, isWordPart c = false) ∧
        QueryKind.ofKeyword? ((trimStart template.toList).takeWhile Char.isAlpha) = some kind := by
  rw [classify, behindKeyword]
  simp only [Option.any_eq_true]
  split
  · next h =>
    obtain ⟨c, hc, hpart⟩ := h
    constructor
    · intro h
      cases h
    · rintro ⟨hend, -⟩
      rw [hend c hc] at hpart
      cases hpart
  · next h =>
    have hend : ∀ c ∈ ((trimStart template.toList).dropWhile Char.isAlpha).head?,
        isWordPart c = false := by
      intro c hc
      rw [Bool.eq_false_iff]
      intro hpart
      exact h ⟨c, hc, hpart⟩
    cases QueryKind.ofKeyword? ((trimStart template.toList).takeWhile Char.isAlpha) with
    | none => simp
    | some kind' =>
      constructor
      · intro h
        cases h
        exact ⟨hend, rfl⟩
      · rintro ⟨-, h⟩
        cases h
        rfl

theorem fault_of_classify {template : String} {fault : TemplateFault}
    (h : classify template = .error fault) : fault = .ofHead template.toList := by
  rw [classify] at h
  split at h
  · cases h
    rfl
  · split at h
    · cases h
    · cases h
      rfl

/-- A text that has a kind begins with the head of that kind, and the word of the keyword ends there. -/
theorem exists_isHead {template : String} {kind : QueryKind} (h : classify template = .ok kind) :
    ∃ u r, kind.IsHead u ∧ template.toList = u ++ r ∧ ∀ c ∈ r.head?, isWordPart c = false := by
  obtain ⟨hend, hkeyword⟩ := classify_eq_ok_iff.mp h
  obtain ⟨gap, hgap, hblank⟩ := exists_trimStart_eq template.toList
  refine ⟨gap ++ (trimStart template.toList).takeWhile Char.isAlpha, behindKeyword template.toList,
    ⟨gap, _, rfl, hblank, fun c hc => List.mem_takeWhile_imp hc, hkeyword⟩, ?_, hend⟩
  rw [List.append_assoc, behindKeyword, List.takeWhile_append_dropWhile]
  exact hgap

namespace QueryKind.IsHead

variable {kind : QueryKind} {u : List Char}

/-- What trimming leaves of a text that begins with a head. -/
theorem trimStart_append (h : kind.IsHead u) (r : List Char) :
    ∃ letters, trimStart (u ++ r) = letters ++ r ∧ (∀ c ∈ letters, c.isAlpha = true) ∧
      ofKeyword? letters = some kind := by
  obtain ⟨gap, letters, rfl, hgap, hletters, hkeyword⟩ := h
  refine ⟨letters, ?_, hletters, hkeyword⟩
  have hlength := length_of_ofKeyword? hkeyword
  rw [List.append_assoc]
  refine Text.trimStart_append hgap fun c hc => ?_
  cases letters with
  | nil => cases hlength
  | cons d letters =>
    obtain rfl : d = c := by simpa using hc
    exact isBlank_of_isWordPart (isWordPart_of_isAlpha (hletters d (by simp)))

theorem char_cases (h : kind.IsHead u) {c : Char} (hc : c ∈ u) :
    isBlank c = true ∨ isWordPart c = true := by
  obtain ⟨gap, letters, rfl, hgap, hletters, -⟩ := h
  rcases List.mem_append.mp hc with hc | hc
  · exact .inl (hgap c hc)
  · exact .inr (isWordPart_of_isAlpha (hletters c hc))

/-- No character of a head begins a region or a placeholder. -/
theorem notMem (h : kind.IsHead u) {c : Char} (hc : c ∈ u) :
    c ∉ ['\'', '"', '-', '/', '*', '$'] := by
  rcases h.char_cases hc with hblank | hpart
  · exact notMem_of_isBlank hblank
  · exact IsPlainPart.notMem (.inl hpart)

/-- Where the word of the keyword ends, the rest stands behind the keyword. -/
theorem behindKeyword_append (h : kind.IsHead u) {r : List Char}
    (hr : ∀ c ∈ r.head?, isWordPart c = false) : behindKeyword (u ++ r) = r := by
  obtain ⟨letters, htrim, hletters, -⟩ := h.trimStart_append r
  rw [behindKeyword, htrim, List.dropWhile_append_of_pos hletters]
  cases r with
  | nil => rfl
  | cons c r => rw [List.dropWhile_cons_of_neg (not_isAlpha_of_isWordPart (hr c rfl))]

/-- A text that begins with the head of a kind has that kind exactly if the word of the keyword ends
there. -/
theorem classify_append (h : kind.IsHead u) (r : List Char) :
    classify (String.ofList (u ++ r)) = .ok kind ↔ ∀ c ∈ r.head?, isWordPart c = false := by
  obtain ⟨letters, htrim, hletters, hkeyword⟩ := h.trimStart_append r
  rw [classify_eq_ok_iff, String.toList_ofList, htrim, List.takeWhile_append_of_pos hletters]
  constructor
  · rintro ⟨hend, hlong⟩
    -- The letters are a keyword as they stand, so no further one belongs to them.
    have hlength := length_of_ofKeyword? hlong
    rw [List.length_append, length_of_ofKeyword? hkeyword] at hlength
    have hnone : r.takeWhile Char.isAlpha = [] := List.eq_nil_of_length_eq_zero (by omega)
    have hsplit : r.takeWhile Char.isAlpha ++ r.dropWhile Char.isAlpha = r :=
      List.takeWhile_append_dropWhile
    rw [hnone, List.nil_append] at hsplit
    rwa [behindKeyword, htrim, List.dropWhile_append_of_pos hletters, hsplit] at hend
  · intro hr
    rw [h.behindKeyword_append hr]
    refine ⟨hr, ?_⟩
    cases r with
    | nil => rwa [List.takeWhile_nil, List.append_nil]
    | cons c r =>
      rwa [List.takeWhile_cons_of_neg (not_isAlpha_of_isWordPart (hr c rfl)), List.append_nil]

end QueryKind.IsHead

end SchemaQuery
