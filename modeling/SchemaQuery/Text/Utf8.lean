/-!
Text by the offsets of its bytes. A text is stored as UTF-8; an offset is good only if it lies in the text,
at the first byte of a character or at the end, and a slice needs two good offsets in order.
-/

namespace SchemaQuery.Text

/-- The bytes of a text. -/
def bytes (text : String) : List UInt8 := text.toByteArray.data.toList

/-- The part of a text between two offsets, if they are in order and both of them are good. -/
def slice? (text : String) (start stop : Nat) : Option String :=
  if h : String.Pos.Raw.IsValid text ⟨start⟩ ∧ String.Pos.Raw.IsValid text ⟨stop⟩ ∧ start ≤ stop then
    some (String.extract (text.pos ⟨start⟩ h.1) (text.pos ⟨stop⟩ h.2.1))
  else none

/-- How many bytes a text takes. -/
def size (s : List Char) : Nat := (String.ofList s).utf8ByteSize

/-- The offset at which a string first occurs in a text. -/
def offset? (sought : List Char) : List Char → Option Nat
  | [] => if sought = [] then some 0 else none
  | c :: r => if sought <+: c :: r then some 0 else (offset? sought r).map (c.utf8Size + ·)

theorem bytes_ofList (s : List Char) : bytes (String.ofList s) = s.flatMap String.utf8EncodeChar := by
  rw [bytes, String.toByteArray_ofList, List.utf8Encode, List.toList_data_toByteArray]

theorem bytes_cons (c : Char) (r : List Char) :
    bytes (String.ofList (c :: r)) = String.utf8EncodeChar c ++ bytes (String.ofList r) := by
  rw [bytes_ofList, bytes_ofList, List.flatMap_cons]

@[simp] theorem length_bytes (text : String) : (bytes text).length = text.utf8ByteSize := by
  rw [bytes, Array.length_toList, ← String.size_toByteArray]
  rfl

@[simp] theorem size_nil : size [] = 0 := rfl

@[simp] theorem size_append (s t : List Char) : size (s ++ t) = size s + size t := by
  rw [size, size, size, String.ofList_append, String.utf8ByteSize_append]

@[simp] theorem size_cons (c : Char) (s : List Char) : size (c :: s) = c.utf8Size + size s := by
  rw [size, ← length_bytes, bytes_cons, List.length_append, String.length_utf8EncodeChar, length_bytes,
    size]

theorem size_pos {s : List Char} (h : s ≠ []) : 0 < size s := by
  obtain ⟨c, r, rfl⟩ := List.exists_cons_of_ne_nil h
  rw [size_cons]
  exact Nat.add_pos_left c.utf8Size_pos _

end SchemaQuery.Text
