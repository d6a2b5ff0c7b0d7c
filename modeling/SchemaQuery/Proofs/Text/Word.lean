import Mathlib.Data.List.Basic
import SchemaQuery.Text.Occurrence
import SchemaQuery.Text.Word

/-!
Where words begin and end. A word is read off a text exactly if the text goes on with it and then with no
character of a word, so what is read does not change when the text behind the word does.
-/

namespace SchemaQuery.Text

variable {α : Type}

theorem isWordPart_of_isWordStart {c : Char} (h : isWordStart c = true) : isWordPart c = true := by
  rcases Bool.or_eq_true_iff.mp h with h | h
  · simp [isWordPart, Char.isAlphanum, h]
  · simp [isWordPart, h]

theorem isWordPart_of_mem {w : List Char} (h : isWord w = true) {c : Char} (hc : c ∈ w) :
    isWordPart c = true := by
  cases w with
  | nil => simp at hc
  | cons d w =>
    obtain ⟨hd, hw⟩ := Bool.and_eq_true_iff.mp h
    rcases List.mem_cons.mp hc with rfl | hc
    · exact isWordPart_of_isWordStart hd
    · exact List.all_eq_true.mp hw c hc

/-- What is left once the front of a text is taken that a test admits begins with no such character. -/
theorem head?_dropWhile {p : α → Bool} (s : List α) : ∀ c ∈ (s.dropWhile p).head?, p c = false := by
  induction s with
  | nil => simp
  | cons d s ih =>
    by_cases hd : p d
    · rwa [List.dropWhile_cons_of_pos hd]
    · rw [List.dropWhile_cons_of_neg hd]
      rintro c hc
      obtain rfl : d = c := by simpa using hc
      simpa using hd

/-- Exactly the word at the front of a text is read. -/
theorem word?_eq_some_iff {s w r : List Char} :
    word? s = some (w, r) ↔
      s = w ++ r ∧ isWord w = true ∧ ∀ c ∈ r.head?, isWordPart c = false := by
  constructor
  · intro h
    refine ⟨word?_append h, ?_⟩
    cases s with
    | nil => simp [word?] at h
    | cons c s =>
      simp only [word?] at h
      split at h
      · next hc =>
        obtain ⟨rfl, rfl⟩ := by simpa using h
        exact ⟨by simp [isWord, hc], head?_dropWhile s⟩
      · simp at h
  · rintro ⟨rfl, hw, hr⟩
    cases w with
    | nil => simp [isWord] at hw
    | cons c w =>
      obtain ⟨hc, hw⟩ := Bool.and_eq_true_iff.mp hw
      have hall := List.all_eq_true.mp hw
      have hend : r.takeWhile isWordPart = [] ∧ r.dropWhile isWordPart = r := by
        cases r with
        | nil => simp
        | cons d r =>
          have hd : isWordPart d = false := hr d rfl
          simp [hd]
      simp [word?, hc, List.takeWhile_append_of_pos hall, List.dropWhile_append_of_pos hall, hend]

/-- What was found in a text was found at some place of it. -/
theorem exists_find_of_mem_pieces {find : Pattern α} {s t : List Char} {a : α}
    (h : .found a t ∈ pieces find s) :
    ∃ c r n, find c r = some (a, n) ∧ t = c :: r.take n := by
  suffices go : ∀ k, .found a t ∈ piecesFrom find k s →
      ∃ c r n, find c r = some (a, n) ∧ t = c :: r.take n from go 0 h
  clear h
  induction s with
  | nil => intro k h; cases k <;> simp [piecesFrom] at h
  | cons c r ih =>
    intro k h
    cases k with
    | succ k => exact ih k h
    | zero =>
      simp only [piecesFrom] at h
      split at h
      · next a' n hf =>
        rcases List.mem_cons.mp h with h | h
        · cases h; exact ⟨c, r, n, hf, rfl⟩
        · exact ih n h
      · rcases List.mem_cons.mp h with h | h
        · cases h
        · exact ih 0 h

/-- Nothing is lost: the pieces make up the text. -/
theorem flatMap_text_pieces (find : Pattern α) (s : List Char) :
    (pieces find s).flatMap Piece.text = s :=
  flatMap_text_piecesFrom find 0 s

end SchemaQuery.Text
