import SchemaQuery.Proofs.Wire.Decoder

/-!
Texts read with decoders. A decoder that inverts a value reads the text of the value, if every number in
the text can be read and no more containers are nested in the value than may be. Values that are built of
strings, truth values and integers have both by the way they are built.
-/

namespace SchemaQuery

namespace Json

section Fields

variable {fields : List (String × Json)}

theorem legible_ofFields_iff (h : (fields.map Prod.fst).Nodup) :
    (ofFields fields).Legible ↔ ∀ e ∈ fields, e.2.Legible := by
  rw [ofFields, Legible, legibleFields_iff]
  exact forall_congr' fun e => by rw [Dictionary.mem_entries_ofList h]

/-- The fields of a record stand in the order of their names, in whichever order they are given. -/
theorem ordered_ofFields_iff (h : (fields.map Prod.fst).Nodup) :
    (ofFields fields).Ordered ↔ ∀ e ∈ fields, e.2.Ordered := by
  rw [ofFields, Ordered, orderedFields_iff]
  refine (and_iff_right (Dictionary.ofList fields).sorted).trans ?_
  exact forall_congr' fun e => by rw [Dictionary.mem_entries_ofList h]

end Fields

/-! ### Values of a bounded depth -/

/-- Every number of the value can be read, and at most `k` containers are nested in it. -/
structure Within (k : Nat) (v : Json) : Prop where
  legible : v.Legible
  depth_le : v.depth ≤ k

namespace Within

variable {α : Type} {k : Nat} {v : Json}

@[simp] theorem null : Json.null.Within k := ⟨trivial, Nat.zero_le k⟩

@[simp] theorem bool (b : Bool) : (Json.bool b).Within k := ⟨trivial, Nat.zero_le k⟩

@[simp] theorem string (s : String) : (Json.string s).Within k := ⟨trivial, Nat.zero_le k⟩

@[simp] theorem ofWord (n : UInt64) : (Json.ofWord n).Within k := ⟨trivial, Nat.zero_le k⟩

theorem mono {m : Nat} (h : v.Within k) (hkm : k ≤ m) : v.Within m :=
  ⟨h.legible, Nat.le_trans h.depth_le hkm⟩

theorem ofOption {f : α → Json} (h : ∀ a, (f a).Within k) (o : Option α) : (Json.ofOption f o).Within k := by
  cases o with
  | none => exact null
  | some a => exact h a

theorem array {f : α → Json} (h : ∀ a, (f a).Within k) (as : List α) :
    (Json.array (as.map f)).Within (k + 1) where
  legible := by
    rw [Legible, legibleItems_iff, List.forall_mem_map]
    exact fun a _ => (h a).legible
  depth_le := by
    rw [depth, Nat.add_le_add_iff_right, depthItems_le_iff, List.forall_mem_map]
    exact fun a _ => (h a).depth_le

theorem ofDictionary {f : α → Json} (h : ∀ a, (f a).Within k) (d : Dictionary α) :
    (Json.ofDictionary (d.map f)).Within (k + 1) where
  legible := by
    rw [Json.ofDictionary, Legible, legibleFields_iff, Dictionary.map, List.forall_mem_map]
    exact fun e _ => (h e.2).legible
  depth_le := by
    rw [Json.ofDictionary, depth, Nat.add_le_add_iff_right, depthFields_le_iff, Dictionary.map,
      List.forall_mem_map]
    exact fun e _ => (h e.2).depth_le

theorem ofFields {fields : List (String × Json)} (hnodup : (fields.map Prod.fst).Nodup)
    (h : ∀ e ∈ fields, e.2.Within k) : (Json.ofFields fields).Within (k + 1) where
  legible := (legible_ofFields_iff hnodup).mpr fun e he => (h e he).legible
  depth_le := (Decoder.depth_ofFields_le_iff hnodup).mpr fun e he => (h e he).depth_le

end Within

end Json

namespace Decoder

variable {α : Type} {d : Decoder α} {v : Json} {a : α}

/-- The text of a value is read, if no more containers are nested in the value than may be. -/
theorem Inverts.read_text (h : Inverts d v a) (hv : v.Legible) :
    d.read v.text = if v.depth ≤ Json.depthLimit then .ok a else .error (.json "") := by
  have hread : d.read? v.text = d Json.depthLimit v.node := by
    rw [read?, Json.text, String.toList_ofList, Json.Node.read?_compact hv]
    rfl
  rw [read, hread, h Json.depthLimit]
  by_cases hdepth : v.depth ≤ Json.depthLimit
  · rw [if_pos hdepth, if_pos hdepth]
  · rw [if_neg hdepth, if_neg hdepth]

theorem Inverts.read_text_of_within {k : Nat} (h : Inverts d v a) (hv : v.Within k)
    (hk : k ≤ Json.depthLimit) : d.read v.text = .ok a := by
  rw [h.read_text hv.legible, if_pos (Nat.le_trans hv.depth_le hk)]

end Decoder

end SchemaQuery
