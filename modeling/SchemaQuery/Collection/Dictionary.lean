import SchemaQuery.Collection.Entry

/-!
Dictionaries from text to values, kept in the order of their keys. The order of two keys is that of
their code points, which is also the order of their UTF-8 bytes, so whatever walks over a dictionary
meets the keys in one fixed order, however it was filled.
-/

namespace SchemaQuery

/-- Entries with strictly increasing keys. -/
structure Dictionary (α : Type) where
  /-- The entries in the order of their keys. -/
  entries : List (String × α)
  /-- Every key is smaller than all that follow, so no key occurs twice. -/
  sorted : (entries.map Prod.fst).Pairwise (· < ·)

namespace Dictionary

variable {α β : Type}

/-- The dictionary without entries. -/
def empty : Dictionary α := ⟨[], by simp⟩

instance : EmptyCollection (Dictionary α) := ⟨empty⟩
instance : Inhabited (Dictionary α) := ⟨empty⟩

instance [DecidableEq α] : DecidableEq (Dictionary α) := fun a b =>
  if h : a.entries = b.entries then
    .isTrue (by cases a; cases b; simp_all)
  else .isFalse fun e => h (by rw [e])

/-- Entries with `key` set to `value`, in place of an earlier value of that key if there was one. -/
def insertEntry (key : String) (value : α) : List (String × α) → List (String × α)
  | [] => [(key, value)]
  | (k, v) :: rest =>
    if key < k then (key, value) :: (k, v) :: rest
    else if key = k then (key, value) :: rest
    else (k, v) :: insertEntry key value rest

theorem mem_keys_insertEntry {key k : String} {value : α} {es : List (String × α)} :
    k ∈ (insertEntry key value es).map Prod.fst ↔ k = key ∨ k ∈ es.map Prod.fst := by
  induction es with
  | nil => simp [insertEntry]
  | cons e es ih =>
    simp only [insertEntry]
    split
    · simp
    · split
      · next h => subst h; simp
      · simp only [List.map_cons, List.mem_cons, ih]; grind

theorem sorted_insertEntry {key : String} {value : α} {es : List (String × α)}
    (h : (es.map Prod.fst).Pairwise (· < ·)) :
    ((insertEntry key value es).map Prod.fst).Pairwise (· < ·) := by
  induction es with
  | nil => simp [insertEntry]
  | cons e es ih =>
    obtain ⟨k', v'⟩ := e
    obtain ⟨hlt, hes⟩ := List.pairwise_cons.mp h
    simp only [insertEntry]
    split
    · next hk =>
      refine List.pairwise_cons.mpr ⟨?_, h⟩
      intro k hm
      rcases List.mem_cons.mp hm with rfl | hm
      · exact hk
      · exact String.lt_trans hk (hlt k hm)
    · split
      · next hk => subst hk; exact List.pairwise_cons.mpr ⟨hlt, hes⟩
      · next hk hne =>
        refine List.pairwise_cons.mpr ⟨?_, ih hes⟩
        intro k hm
        rcases mem_keys_insertEntry.mp hm with rfl | hm
        · exact String.not_le.mp fun hle => hne (String.le_antisymm hle (String.not_lt.mp hk))
        · exact hlt k hm

/-- The dictionary with `key` set to `value`. -/
def insert (d : Dictionary α) (key : String) (value : α) : Dictionary α :=
  ⟨insertEntry key value d.entries, sorted_insertEntry d.sorted⟩

/-- The dictionary without a key. -/
def erase (d : Dictionary α) (key : String) : Dictionary α :=
  ⟨d.entries.filter (·.1 ≠ key),
    d.sorted.sublist (List.filter_sublist.map Prod.fst)⟩

/-- The value of a key. -/
def get? (d : Dictionary α) (key : String) : Option α := valueOf? key d.entries

/-- Whether a key has a value. -/
def contains (d : Dictionary α) (key : String) : Bool := (d.get? key).isSome

/-- The keys in increasing order. -/
def keys (d : Dictionary α) : List String := d.entries.map Prod.fst

/-- How many keys there are. -/
def size (d : Dictionary α) : Nat := d.entries.length

/-- The dictionary of some pairs; of two pairs with one key the later counts. -/
def ofList (pairs : List (String × α)) : Dictionary α :=
  pairs.foldl (fun d (k, v) => d.insert k v) empty

/-- The dictionary with every value changed by `f`. -/
def map (f : α → β) (d : Dictionary α) : Dictionary β :=
  ⟨d.entries.map fun (k, v) => (k, f v), by simpa [Function.comp_def] using d.sorted⟩

/-! ### What each operation does to the value under a key -/

theorem valueOf?_insertEntry (key k : String) (value : α) (es : List (String × α)) :
    valueOf? k (insertEntry key value es) = if key = k then some value else valueOf? k es := by
  induction es with
  | nil => simp [insertEntry]
  | cons e es ih =>
    obtain ⟨k', v⟩ := e
    simp only [insertEntry]
    split
    · simp
    · split
      · next h => subst h; by_cases hk : key = k <;> simp [hk]
      · next h =>
        simp only [valueOf?_cons, ih]
        by_cases hk : k' = k
        · subst hk; simp [h]
        · simp [hk]

/-- An insertion sets the value of its key and no other. -/
theorem get?_insert (d : Dictionary α) (key k : String) (value : α) :
    (d.insert key value).get? k = if key = k then some value else d.get? k :=
  valueOf?_insertEntry key k value d.entries

theorem insertEntry_of_lt {key : String} {value : α} {es : List (String × α)}
    (h : ∀ k ∈ es.map Prod.fst, k < key) : insertEntry key value es = es ++ [(key, value)] := by
  induction es with
  | nil => rfl
  | cons e es ih =>
    obtain ⟨k, v⟩ := e
    have hk : k < key := h k (by simp)
    have hlt : ¬ key < k := fun hlt => String.lt_irrefl _ (String.lt_trans hk hlt)
    have hne : key ≠ k := fun e => String.lt_irrefl _ (e ▸ hk)
    simp only [insertEntry, hlt, hne, if_false, List.cons_append, List.cons.injEq, true_and]
    exact ih fun k hm => h k (List.mem_cons_of_mem _ hm)

/-- Entries with increasing keys that are put in one after the other come to stand in their order. -/
theorem entries_foldl_insert {pairs : List (String × α)} {d : Dictionary α}
    (h : ((d.entries ++ pairs).map Prod.fst).Pairwise (· < ·)) :
    (pairs.foldl (fun d (k, v) => d.insert k v) d).entries = d.entries ++ pairs := by
  induction pairs generalizing d with
  | nil => simp
  | cons p pairs ih =>
    obtain ⟨k, v⟩ := p
    have hk : ∀ k' ∈ d.entries.map Prod.fst, k' < k := by
      intro k' hm
      simp only [List.map_append, List.map_cons] at h
      exact (List.pairwise_append.mp h).2.2 k' hm k (by simp)
    have hi : (d.insert k v).entries = d.entries ++ [(k, v)] := insertEntry_of_lt hk
    have := ih (d := d.insert k v) (by rw [hi]; simpa using h)
    rw [List.foldl_cons, this, hi]; simp

theorem ofList_entries (d : Dictionary α) : ofList d.entries = d := by
  have h : (ofList d.entries).entries = d.entries := by
    simpa [ofList, empty] using entries_foldl_insert (d := empty) (by simpa [empty] using d.sorted)
  cases h' : ofList d.entries; cases d; simp_all

end Dictionary

/-- A set of names in increasing order. -/
abbrev NameSet := Dictionary Unit

namespace NameSet

/-- The set with one more name. -/
def add (s : NameSet) (name : String) : NameSet := s.insert name ()

/-- The names, each once, in increasing order. -/
def names (s : NameSet) : List String := s.keys

/-- The set with the names of a list. -/
def addAll (s : NameSet) (names : List String) : NameSet := names.foldl add s

/-- The set of the names of a list. -/
def ofNames (names : List String) : NameSet := addAll ∅ names

theorem mem_names_add {s : NameSet} {name added : String} :
    name ∈ (s.add added).names ↔ name = added ∨ name ∈ s.names :=
  Dictionary.mem_keys_insertEntry

theorem mem_names_addAll {s : NameSet} {name : String} {added : List String} :
    name ∈ (s.addAll added).names ↔ name ∈ s.names ∨ name ∈ added := by
  induction added generalizing s with
  | nil => simp [addAll]
  | cons a added ih =>
    rw [addAll, List.foldl_cons, ← addAll, ih, mem_names_add, List.mem_cons, or_assoc, or_left_comm]

theorem addAll_append (s : NameSet) (first second : List String) :
    s.addAll (first ++ second) = (s.addAll first).addAll second :=
  List.foldl_append

end NameSet

end SchemaQuery
