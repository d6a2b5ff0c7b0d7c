import SchemaQuery.Text.Utf8
import Mathlib.Tactic.SplitIfs

/-!
Slices and searches by the offsets of bytes. A part of a text that begins and ends between characters is a
slice of it. The byte of an ASCII character occurs in no other character, so a search for it among the
bytes finds the characters.
-/

namespace SchemaQuery.Text

/-- A part of a text that begins and ends between characters is a slice of it. -/
theorem slice?_append (u v w : List Char) :
    slice? (String.ofList (u ++ v ++ w)) (size u) (size (u ++ v)) = some (String.ofList v) := by
  have hstart : String.Pos.Raw.IsValid (String.ofList (u ++ v ++ w)) ⟨size u⟩ :=
    String.Pos.Raw.isValid_iff_exists_append.mpr
      ⟨String.ofList u, String.ofList (v ++ w), by rw [List.append_assoc, String.ofList_append], rfl⟩
  have hstop : String.Pos.Raw.IsValid (String.ofList (u ++ v ++ w)) ⟨size (u ++ v)⟩ :=
    String.Pos.Raw.isValid_iff_exists_append.mpr
      ⟨String.ofList (u ++ v), String.ofList w, String.ofList_append, rfl⟩
  have hle : size u ≤ size (u ++ v) := by rw [size_append]; exact Nat.le_add_right _ _
  have hsize (s : List Char) : size s = s.utf8Encode.size := by
    rw [← String.toByteArray_ofList, String.size_toByteArray, size]
  rw [slice?, dif_pos ⟨hstart, hstop, hle⟩, Option.some.injEq, ← String.toByteArray_inj,
    String.toByteArray_extract, String.offset_pos, String.offset_pos]
  simp only [String.toByteArray_ofList, hsize]
  rw [List.utf8Encode_append, ByteArray.extract_append_size_left, List.utf8Encode_append]
  exact ByteArray.extract_append_eq_right rfl ByteArray.size_append

example : slice? "aé" 1 3 = some "é" ∧ slice? "aé" 1 2 = none ∧ slice? "aé" 1 4 = none := by
  refine ⟨?_, ?_, ?_⟩ <;> cbv

/-! ### Searches -/

theorem offset?_eq_none {sought s : List Char} (h : ¬ sought <:+: s) : offset? sought s = none := by
  induction s with
  | nil => exact if_neg fun heq => h (by simp [heq])
  | cons c r ih =>
    obtain ⟨hc, hr⟩ := not_or.mp (mt List.infix_cons_iff.mpr h)
    rw [offset?, if_neg hc, ih hr, Option.map_none]

/-- Where a string occurs, it is found, unless it occurs before. -/
theorem offset?_append {sought u : List Char} (hne : sought ≠ []) (w : List Char)
    (h : ∀ v, v <:+ u → v ≠ [] → ¬ sought <+: v ++ (sought ++ w)) :
    offset? sought (u ++ (sought ++ w)) = some (size u) := by
  induction u with
  | nil =>
    obtain ⟨c, r, rfl⟩ := List.exists_cons_of_ne_nil hne
    exact if_pos (List.prefix_append _ _)
  | cons c u ih =>
    have hu := ih fun v hv hvne => h v (hv.trans (List.suffix_cons c u)) hvne
    have hc := h (c :: u) List.suffix_rfl (List.cons_ne_nil c u)
    rw [List.cons_append] at hc
    rw [List.cons_append, offset?, if_neg hc, hu, Option.map_some, size_cons]

/-! ### ASCII characters among the bytes -/

theorem toNat_toUInt8 {q : Char} (hq : q.toNat < 128) : q.toUInt8.toNat = q.toNat := by
  rw [Char.toUInt8, UInt32.toNat_toUInt8]
  exact Nat.mod_eq_of_lt (by rw [Char.toNat] at hq; omega)

theorem utf8EncodeChar_ascii {q : Char} (hq : q.toNat < 128) : String.utf8EncodeChar q = [q.toUInt8] := by
  refine String.utf8EncodeChar_eq_singleton (Char.utf8Size_eq_one_iff.mpr ?_)
  rw [UInt32.le_iff_toNat_le]
  exact Nat.le_of_lt_succ hq

theorem utf8Size_ascii {q : Char} (hq : q.toNat < 128) : q.utf8Size = 1 := by
  rw [← String.length_utf8EncodeChar, utf8EncodeChar_ascii hq, List.length_singleton]

theorem size_concat {q : Char} (hq : q.toNat < 128) (s : List Char) : size (s ++ [q]) = size s + 1 := by
  rw [size_append, size_cons, utf8Size_ascii hq, size_nil]

/-- The byte of an ASCII character occurs in no other character. -/
theorem eq_of_mem_utf8EncodeChar {q c : Char} (hq : q.toNat < 128)
    (h : q.toUInt8 ∈ String.utf8EncodeChar c) : c = q := by
  have hbyte {n : Nat} (hn : n < 256) (heq : q.toUInt8 = UInt8.ofNat n) : n = q.toNat := by
    rw [← toNat_toUInt8 hq, heq, UInt8.toNat_ofNat', Nat.mod_eq_of_lt hn]
  have hlarge {n : Nat} (hn : 128 ≤ n ∧ n < 256) : q.toUInt8 ≠ UInt8.ofNat n := by
    intro heq
    have := hbyte hn.2 heq
    omega
  rw [String.utf8EncodeChar] at h
  split_ifs at h with hone
  · have hc := hbyte (by omega) (List.mem_singleton.mp h)
    exact Char.ext (UInt32.toNat_inj.mp hc)
  -- In a longer character every byte is 128 or more.
  · simp only [List.mem_cons, List.not_mem_nil, or_false] at h
    rcases h with h | h <;> exact absurd h (hlarge (by omega))
  · simp only [List.mem_cons, List.not_mem_nil, or_false] at h
    rcases h with h | h | h <;> exact absurd h (hlarge (by omega))
  · simp only [List.mem_cons, List.not_mem_nil, or_false] at h
    rcases h with h | h | h | h <;> exact absurd h (hlarge (by omega))

theorem getElem?_bytes_append (s t : List Char) (k : Nat) :
    (bytes (String.ofList (s ++ t)))[size s + k]? = (bytes (String.ofList t))[k]? := by
  have hsize : size s = (s.flatMap String.utf8EncodeChar).length := by
    rw [← bytes_ofList, length_bytes, size]
  rw [bytes_ofList, bytes_ofList, List.flatMap_append, hsize, List.getElem?_append_right (by omega),
    Nat.add_sub_cancel_left]

theorem getElem?_bytes_cons {c : Char} {k : Nat} (hk : k < c.utf8Size) (r : List Char) :
    (bytes (String.ofList (c :: r)))[k]? = (String.utf8EncodeChar c)[k]? := by
  rw [bytes_cons, List.getElem?_append_left (by rw [String.length_utf8EncodeChar]; exact hk)]

/-- A text begins with the byte of an ASCII character exactly if it begins with the character. -/
theorem getElem?_bytes_zero_iff {q : Char} (hq : q.toNat < 128) {s : List Char} :
    (bytes (String.ofList s))[0]? = some q.toUInt8 ↔ s.head? = some q := by
  cases s with
  | nil => simp
  | cons c r =>
    rw [getElem?_bytes_cons c.utf8Size_pos, List.head?_cons, Option.some.injEq]
    constructor
    · exact fun h => eq_of_mem_utf8EncodeChar hq (List.mem_of_getElem? h)
    · rintro rfl
      rw [utf8EncodeChar_ascii hq]
      rfl

end SchemaQuery.Text
