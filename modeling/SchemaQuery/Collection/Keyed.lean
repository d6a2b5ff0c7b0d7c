import SchemaQuery.Collection.Entry

/-!
Collections of values under keys, in the order in which the keys came. A key that is there is never
taken by a second value; a value may change, and a key may leave.
-/

namespace SchemaQuery

/-- Entries under distinct keys. -/
structure Keyed (κ α : Type) where
  /-- The entries, the oldest first. -/
  entries : List (κ × α)
  /-- No key occurs twice. -/
  nodup : (entries.map Prod.fst).Nodup

namespace Keyed

variable {κ α : Type}

/-- The collection without entries. -/
def empty : Keyed κ α := ⟨[], by simp⟩

instance : EmptyCollection (Keyed κ α) := ⟨empty⟩
instance : Inhabited (Keyed κ α) := ⟨empty⟩

/-- The keys, the oldest first. -/
def keys (c : Keyed κ α) : List κ := c.entries.map Prod.fst

/-- How many keys there are. -/
def size (c : Keyed κ α) : Nat := c.entries.length

variable [DecidableEq κ]

/-- The value under a key. -/
def get? (c : Keyed κ α) (key : κ) : Option α := valueOf? key c.entries

/-- Whether there is a value under a key. -/
def contains (c : Keyed κ α) (key : κ) : Bool := (c.get? key).isSome

theorem contains_iff {c : Keyed κ α} {key : κ} : c.contains key = true ↔ key ∈ c.keys :=
  valueOf?_isSome_iff

/-- The collection with a new entry; a key that is there keeps its value. -/
def add (c : Keyed κ α) (key : κ) (value : α) : Keyed κ α :=
  if h : c.contains key then c
  else ⟨c.entries ++ [(key, value)], by
    have hk : key ∉ c.keys := fun hm => h (contains_iff.mpr hm)
    simp only [List.map_append, List.map_cons, List.map_nil]
    refine List.nodup_append.mpr ⟨c.nodup, by simp, ?_⟩
    intro a ha b hb
    rw [List.mem_singleton.mp hb]
    exact fun hab => hk (hab ▸ ha)⟩

/-- The collection with the value under a key changed by `f`. -/
def modify (c : Keyed κ α) (key : κ) (f : α → α) : Keyed κ α :=
  ⟨c.entries.map fun e => (e.1, if e.1 = key then f e.2 else e.2), by
    simpa [Function.comp_def] using c.nodup⟩

/-- The collection without a key. -/
def erase (c : Keyed κ α) (key : κ) : Keyed κ α :=
  ⟨c.entries.filter (·.1 ≠ key), c.nodup.sublist (List.filter_sublist.map Prod.fst)⟩

/-! ### What each operation does to the value under a key -/

theorem get?_add (c : Keyed κ α) (key k : κ) (value : α) :
    (c.add key value).get? k = (c.get? k).or (if key = k then some value else none) := by
  by_cases h : c.contains key
  · by_cases hk : key = k
    · subst hk
      obtain ⟨v, hv⟩ := Option.isSome_iff_exists.mp h
      simp [add, h, hv]
    · simp [add, h, hk]
  · simp [add, h, get?, valueOf?_append]

theorem get?_modify (c : Keyed κ α) (key k : κ) (f : α → α) :
    (c.modify key f).get? k = if key = k then (c.get? k).map f else c.get? k := by
  obtain ⟨es, h⟩ := c
  simp only [modify, get?]
  clear h
  induction es with
  | nil => simp
  | cons e es ih =>
    obtain ⟨k', v⟩ := e
    by_cases hk : k' = k
    · subst hk; by_cases hkey : key = k'
      · simp [hkey]
      · simp [hkey, Ne.symm hkey]
    · simpa [hk] using ih

theorem get?_erase (c : Keyed κ α) (key k : κ) :
    (c.erase key).get? k = if key = k then none else c.get? k := by
  obtain ⟨es, h⟩ := c
  simp only [erase, get?]
  clear h
  induction es with
  | nil => simp
  | cons e es ih =>
    obtain ⟨k', v⟩ := e
    by_cases hk' : k' = key
    · subst hk'
      by_cases hk : k' = k
      · simpa [hk] using ih
      · simpa [hk] using ih
    · by_cases hk : k' = k
      · subst hk; simp [hk', Ne.symm hk']
      · by_cases hkey : key = k <;> simp_all

end Keyed

end SchemaQuery
