import SchemaQuery.Collection.Keyed

/-!
A keyed collection as a function. What is found under a key is the one entry with that key, so a
collection can be read as its entries or as the values under its keys, and a filter that looks at keys
alone takes away whole values.
-/

namespace SchemaQuery

variable {κ α : Type} [DecidableEq κ]

theorem valueOf?_eq_some_iff {key : κ} {v : α} {es : List (κ × α)} (h : (es.map Prod.fst).Nodup) :
    valueOf? key es = some v ↔ (key, v) ∈ es := by
  refine ⟨mem_of_valueOf?, fun hm => ?_⟩
  induction es with
  | nil => simp at hm
  | cons e es ih =>
    obtain ⟨k, w⟩ := e
    obtain ⟨hk, hes⟩ := List.nodup_cons.mp h
    rcases List.mem_cons.mp hm with hm | hm
    · cases hm
      rw [valueOf?_cons, if_pos rfl]
    · have hne : k ≠ key := by
        rintro rfl
        exact hk (List.mem_map.mpr ⟨_, hm, rfl⟩)
      rw [valueOf?_cons, if_neg hne, ih hes hm]

namespace Keyed

theorem get?_eq_some_iff {c : Keyed κ α} {key : κ} {v : α} :
    c.get? key = some v ↔ (key, v) ∈ c.entries :=
  valueOf?_eq_some_iff c.nodup

theorem get?_eq_none_of_not_contains {c : Keyed κ α} {key : κ} (h : ¬ c.contains key = true) :
    c.get? key = none := by
  rwa [contains, Bool.not_eq_true, Option.isSome_eq_false_iff, Option.isNone_iff_eq_none] at h

theorem not_contains_of_get?_eq_none {c : Keyed κ α} {key : κ} (h : c.get? key = none) :
    ¬ c.contains key = true := by
  rw [contains, h]
  exact Bool.false_ne_true

theorem countP_key (c : Keyed κ α) (key : κ) :
    c.entries.countP (·.1 = key) = if c.contains key then 1 else 0 := by
  have hcount : c.entries.countP (·.1 = key) = c.keys.count key := by
    rw [keys, List.count, List.countP_map]
    rfl
  rw [hcount, List.Nodup.count (show c.keys.Nodup from c.nodup)]
  simp only [contains_iff]

theorem entries_add {c : Keyed κ α} {key : κ} (h : c.get? key = none) (value : α) :
    (c.add key value).entries = c.entries ++ [(key, value)] := by
  rw [add, dif_neg (not_contains_of_get?_eq_none h)]

@[simp] theorem entries_erase (c : Keyed κ α) (key : κ) :
    (c.erase key).entries = c.entries.filter (·.1 ≠ key) := rfl

end Keyed

end SchemaQuery
