import SchemaQuery.Proofs.Collection.Keyed
import SchemaQuery.Collection.Dictionary

/-!
A dictionary as its entries and as a function. Its keys are distinct because they increase, so what comes
first among the entries has the least key. A dictionary that is made of pairs with distinct keys has these
pairs as its entries, in whatever order they were given.
-/

namespace SchemaQuery.Dictionary

variable {α : Type} {d : Dictionary α} {key : String} {value : α}

theorem nodup_keys (d : Dictionary α) : d.keys.Nodup := by
  refine d.sorted.imp fun {a b} (hlt : a < b) => ?_
  rintro rfl
  exact String.lt_irrefl a hlt

theorem get?_eq_some_iff : d.get? key = some value ↔ (key, value) ∈ d.entries :=
  valueOf?_eq_some_iff d.nodup_keys

theorem get?_erase (d : Dictionary α) (key k : String) :
    (d.erase key).get? k = if key = k then none else d.get? k := by
  refine Option.ext fun v => ?_
  rw [get?_eq_some_iff, erase, List.mem_filter, decide_eq_true_iff, ← get?_eq_some_iff]
  split
  · next hk => simp [hk]
  · next hk => simp [Ne.symm hk]

theorem insertEntry_of_forall_lt {es : List (String × α)} (h : ∀ k ∈ es.map Prod.fst, key < k) :
    insertEntry key value es = (key, value) :: es := by
  cases es with
  | nil => rfl
  | cons e es => rw [insertEntry, if_pos (h e.1 (by simp))]

theorem contains_eq_false (h : ∀ k ∈ d.keys, key < k) : d.contains key = false := by
  rw [Bool.eq_false_iff]
  intro hcontains
  exact String.lt_irrefl key (h key (valueOf?_isSome_iff.mp hcontains))

/-- What is found first among the entries is found under the least key under which anything is. -/
theorem findSome?_entries_eq_some_iff {β : Type} {g : String → α → Option β} {b : β} :
    d.entries.findSome? (fun e => g e.1 e.2) = some b ↔ ∃ key value,
      d.get? key = some value ∧ g key value = some b ∧
        ∀ k v, d.get? k = some v → (g k v).isSome = true → key ≤ k := by
  rw [List.findSome?_eq_some_iff]
  constructor
  · rintro ⟨before, ⟨key, value⟩, after, hentries, hb, hbefore⟩
    refine ⟨key, value, get?_eq_some_iff.mpr (by simp [hentries]), hb, fun k v hk hsome => ?_⟩
    have hsorted := d.sorted
    rw [get?_eq_some_iff, hentries] at hk
    rw [hentries, List.map_append, List.map_cons] at hsorted
    rcases List.mem_append.mp hk with hk | hk
    · rw [hbefore (k, v) hk] at hsome
      cases hsome
    · rcases List.mem_cons.mp hk with hk | hk
      · cases hk
        exact String.le_refl key
      · have hlater := (List.pairwise_cons.mp (List.pairwise_append.mp hsorted).2.1).1
        have hlt : key < k := hlater k (List.mem_map_of_mem hk)
        exact String.not_lt.mp fun hgt => String.lt_irrefl k (String.lt_trans hgt hlt)
  · rintro ⟨key, value, hkey, hb, hleast⟩
    obtain ⟨before, after, hentries⟩ := List.append_of_mem (get?_eq_some_iff.mp hkey)
    refine ⟨before, (key, value), after, hentries, hb, fun ⟨k, v⟩ hm => ?_⟩
    have hsorted := d.sorted
    rw [hentries, List.map_append, List.map_cons] at hsorted
    have hlt : k < key :=
      (List.pairwise_append.mp hsorted).2.2 k (List.mem_map_of_mem hm) key (by simp)
    refine Option.not_isSome_iff_eq_none.mp fun hsome => ?_
    exact String.not_le.mpr hlt (hleast k v (get?_eq_some_iff.mpr (by simp [hentries, hm])) hsome)

section Pairs

variable {pairs : List (String × α)}

/-- Pairs with distinct keys that are put in count before what was there. -/
theorem get?_foldl_insert (h : (pairs.map Prod.fst).Nodup) (d : Dictionary α) (key : String) :
    (pairs.foldl (fun d (k, v) => d.insert k v) d).get? key = (valueOf? key pairs).or (d.get? key) := by
  induction pairs generalizing d with
  | nil => rfl
  | cons p pairs ih =>
    obtain ⟨k, v⟩ := p
    obtain ⟨hk, hpairs⟩ := List.nodup_cons.mp h
    rw [List.foldl_cons, ih hpairs, get?_insert, valueOf?_cons]
    by_cases hkey : k = key
    · subst hkey
      have hnone : valueOf? k pairs = none := by
        rw [← Option.not_isSome_iff_eq_none, valueOf?_isSome_iff]
        exact hk
      simp [hnone]
    · simp [hkey]

theorem get?_ofList (h : (pairs.map Prod.fst).Nodup) (key : String) :
    (ofList pairs).get? key = valueOf? key pairs :=
  (get?_foldl_insert h ∅ key).trans Option.or_none

theorem mem_entries_ofList (h : (pairs.map Prod.fst).Nodup) {e : String × α} :
    e ∈ (ofList pairs).entries ↔ e ∈ pairs := by
  obtain ⟨key, value⟩ := e
  rw [← valueOf?_eq_some_iff h, ← get?_ofList h]
  exact get?_eq_some_iff.symm

end Pairs

end SchemaQuery.Dictionary
