import SchemaQuery.Proofs.Fallible
import SchemaQuery.Proofs.Query.Placeholder
import SchemaQuery.Proofs.Query.ValueText
import SchemaQuery.Proofs.Text.Blank
import SchemaQuery.Proofs.Text.Marked
import SchemaQuery.Query.JoinTable

/-!
Join-table macros and what replaces them. A macro begins at a dollar sign exactly if the text goes on
with its lead, a word with white space around it, and a closing bracket; there is no second dollar sign
in it, so macros do not overlap. A table that was built gives dotted words alone, so what is put in has
neither dollar signs nor quotes, and a text can be read along with what becomes of it: character by
character, and macro by macro.
-/

namespace SchemaQuery

open Text

/-! ### Macros as they are written -/

namespace JoinMacro

/-- The text of a macro with a name, after its dollar sign. -/
def IsTail (name : String) (t : List Char) : Prop :=
  ∃ gap gap', t = lead ++ gap ++ name.toList ++ gap' ++ [')'] ∧ isWord name.toList = true ∧
    (∀ c ∈ gap, isBlank c = true) ∧ ∀ c ∈ gap', isBlank c = true

theorem IsTail.char_cases {name : String} {t : List Char} (h : IsTail name t) {c : Char}
    (hc : c ∈ t) : isWordPart c = true ∨ isBlank c = true ∨ c = '(' ∨ c = ')' := by
  obtain ⟨gap, gap', rfl, hword, hgap, hgap'⟩ := h
  simp only [List.mem_append, List.mem_singleton] at hc
  rcases hc with (((hc | hc) | hc) | hc) | hc
  · have hlead : lead.all (fun d => isWordPart d || d == '(') = true := by decide
    rcases Bool.or_eq_true_iff.mp (List.all_eq_true.mp hlead c hc) with h | h
    · exact .inl h
    · exact .inr (.inr (.inl (beq_iff_eq.mp h)))
  · exact .inr (.inl (hgap c hc))
  · exact .inl (isWordPart_of_mem hword hc)
  · exact .inr (.inl (hgap' c hc))
  · exact .inr (.inr (.inr hc))

theorem isWordPart_of_mem_head?_close {gap rest : List Char} (hgap : ∀ c ∈ gap, isBlank c = true) :
    ∀ c ∈ (gap ++ ')' :: rest).head?, isWordPart c = false := by
  intro c hc
  cases gap with
  | nil =>
    obtain rfl : ')' = c := by simpa using hc
    decide
  | cons d gap =>
    obtain rfl : d = c := by simpa using hc
    exact isWordPart_of_isBlank (hgap d (List.mem_cons_self ..))

/-- Exactly the macros are found that are written in full. -/
theorem find_eq_some_iff {c : Char} {r : List Char} {name : String} {n : Nat} :
    find c r = some (name, n) ↔
      c = '$' ∧ ∃ t rest, r = t ++ rest ∧ n = t.length ∧ IsTail name t := by
  unfold find
  split
  case isFalse hc => simp [hc]
  case isTrue hc =>
    simp only [Option.bind_eq_bind, Option.bind_eq_some_iff]
    constructor
    · rintro ⟨inner, hinner, ⟨w, tail⟩, hw, h⟩
      split at h
      case h_2 => cases h
      case h_1 rest hrest =>
        obtain ⟨rfl, rfl⟩ := by simpa using h
        have hlead : r = lead ++ inner := (List.isPrefixOf?_eq_some_iff_append_eq.mp hinner).symm
        obtain ⟨gap, hgap, hblank, hword, -⟩ := word?_trimStart_eq_some_iff.mp hw
        obtain ⟨gap', hgap', hblank'⟩ := (trimStart_eq_cons_iff (by decide)).mp hrest
        obtain rfl : tail = gap' ++ ')' :: rest := hgap'
        have hr : r = (lead ++ gap ++ w ++ gap' ++ [')']) ++ rest := by
          simp [hlead, hgap]
        refine ⟨hc, _, rest, hr, ?_, gap, gap', by rw [String.toList_ofList], ?_, hblank, hblank'⟩
        · rw [hr, List.length_append]
          omega
        · rwa [String.toList_ofList]
    · rintro ⟨-, t, rest, rfl, rfl, gap, gap', rfl, hword, hblank, hblank'⟩
      refine ⟨gap ++ (name.toList ++ (gap' ++ ')' :: rest)),
        List.isPrefixOf?_eq_some_iff_append_eq.mpr (by simp), (name.toList, gap' ++ ')' :: rest),
        word?_trimStart_eq_some_iff.mpr
          ⟨gap, rfl, hblank, hword, isWordPart_of_mem_head?_close hblank'⟩, ?_⟩
      have hclose : trimStart (gap' ++ ')' :: rest) = ')' :: rest :=
        (trimStart_eq_cons_iff (by decide)).mpr ⟨gap', rfl, hblank'⟩
      simp only [hclose, String.ofList_toList, List.length_append, List.length_cons,
        List.length_nil, Option.some.injEq, Prod.mk.injEq, true_and]
      omega

theorem IsTail.dollar_notMem {name : String} {t : List Char} (h : IsTail name t) : '$' ∉ t := by
  intro hc
  rcases h.char_cases hc with hc | hc | hc | hc <;> exact absurd hc (by decide)

theorem isMarked_find : IsMarked find '$' where
  eq_mark h := (find_eq_some_iff.mp h).1
  notMem h := by
    obtain ⟨-, t, rest, rfl, rfl, ht⟩ := find_eq_some_iff.mp h
    rw [List.take_left' rfl]
    exact ht.dollar_notMem

/-- A text begins with a macro. -/
def Begins (s : List Char) : Prop :=
  ∃ name written behind, s = '$' :: (written ++ behind) ∧ IsTail name written

theorem not_begins {c : Char} {s : List Char} (h : find c s = none) : ¬ Begins (c :: s) := by
  rintro ⟨name, written, behind, hs, hw⟩
  obtain ⟨rfl, rfl⟩ := List.cons.inj hs
  rw [find_eq_some_iff.mpr ⟨rfl, written, behind, rfl, rfl, hw⟩] at h
  cases h

/-- A macro of a name stands somewhere in a text. -/
def Mentions (s : List Char) (name : String) : Prop :=
  ∃ before t behind, s = before ++ '$' :: (t ++ behind) ∧ IsTail name t

/-- The names of a text are those of the macros that stand in it. -/
theorem mem_names_iff {template name : String} :
    name ∈ names template ↔ Mentions template.toList name := by
  rw [names, isMarked_find.mem_items_iff]
  constructor
  · rintro ⟨before, r, n, hs, hf⟩
    obtain ⟨-, t, behind, rfl, -, ht⟩ := find_eq_some_iff.mp hf
    exact ⟨before, t, behind, hs, ht⟩
  · rintro ⟨before, t, behind, hs, ht⟩
    exact ⟨before, t ++ behind, t.length, hs, find_eq_some_iff.mpr ⟨rfl, t, behind, rfl, rfl, ht⟩⟩

end JoinMacro

theorem Placeholder.dollar_notMem_tail {p : Placeholder} (h : isWord p.key.toList = true) :
    '$' ∉ p.tail := by
  rw [tail, List.mem_append, not_or]
  refine ⟨by cases p.scope <;> decide, fun hd => ?_⟩
  exact absurd (isWordPart_of_mem h hd) (by decide)

theorem Placeholder.isMarked_find : IsMarked Placeholder.find '$' where
  eq_mark h := (find_eq_some_iff.mp h).1
  notMem h := by
    obtain ⟨-, rfl, rest, rfl, hword, -⟩ := find_eq_some_iff.mp h
    rw [List.take_left' rfl]
    exact dollar_notMem_tail hword

theorem Placeholder.all_cons (c : Char) (s : List Char) :
    all (c :: s) = ((find c s).map Prod.fst).toList ++ all s :=
  isMarked_find.items_cons c s

theorem Placeholder.all_append {u : List Char} (hu : '$' ∉ u) (s : List Char) :
    all (u ++ s) = all s :=
  isMarked_find.items_append hu s

/-! ### Tables -/

namespace Text

theorem isPlainPart_of_isDottedFrom {s : List Char} {atStart : Bool}
    (h : isDottedFrom atStart s = true) : ∀ c ∈ s, IsPlainPart c := by
  induction s generalizing atStart with
  | nil => simp
  | cons d s ih =>
    rw [isDottedFrom] at h
    rw [List.forall_mem_cons]
    split at h
    · obtain ⟨hd, hs⟩ := Bool.and_eq_true_iff.mp h
      exact ⟨.inl (isWordPart_of_isWordStart hd), ih hs⟩
    · split at h
      · next hd => exact ⟨.inr hd, ih h⟩
      · obtain ⟨hd, hs⟩ := Bool.and_eq_true_iff.mp h
        exact ⟨.inl hd, ih hs⟩

theorem exists_cons_of_isDottedWord {s : List Char} (h : isDottedWord s = true) :
    ∃ c r, s = c :: r ∧ isWordStart c = true := by
  cases s with
  | nil => cases h
  | cons c r => exact ⟨c, r, rfl, (Bool.and_eq_true_iff.mp h).1⟩

end Text

namespace JoinTables

variable {naming : TableNaming} {names : List String} {t : JoinTables}

/-- A step that adds a name succeeds exactly if its physical name is a dotted word. -/
theorem add_eq_ok_iff {name : String} {t' : JoinTables} :
    add naming t name = .ok t' ↔ isDottedWord (naming.physicalName name).toList = true ∧
      t' = ⟨t.tables.insert name (naming.physicalName name)⟩ := by
  rw [add]
  split
  · next h => simp [h, eq_comm]
  · next h => simp [h]

/-- Adding names one after the other succeeds exactly if every physical name is a dotted word, and then
every name has its physical name and all other names keep theirs. -/
theorem foldlM_add_eq_ok_iff {t' : JoinTables} :
    names.foldlM (add naming) t = .ok t' ↔
      (∀ name ∈ names, isDottedWord (naming.physicalName name).toList = true) ∧
        t' = ⟨names.foldl (fun d name => d.insert name (naming.physicalName name)) t.tables⟩ := by
  induction names generalizing t with
  | nil =>
    rw [List.foldlM_nil, List.foldl_nil]
    constructor
    · intro h
      cases h
      exact ⟨by simp, rfl⟩
    · rintro ⟨-, rfl⟩
      rfl
  | cons name names ih =>
    rw [List.foldlM_cons, bind_eq_ok_iff, List.forall_mem_cons, List.foldl_cons]
    constructor
    · rintro ⟨t₁, h₁, h⟩
      obtain ⟨hname, rfl⟩ := add_eq_ok_iff.mp h₁
      obtain ⟨hnames, rfl⟩ := ih.mp h
      exact ⟨⟨hname, hnames⟩, rfl⟩
    · rintro ⟨⟨hname, hnames⟩, rfl⟩
      exact ⟨_, add_eq_ok_iff.mpr ⟨hname, rfl⟩, ih.mpr ⟨hnames, rfl⟩⟩

/-- A table is built exactly if every name has a dotted word for its physical name. -/
theorem build_eq_ok_iff :
    build naming names = .ok t ↔
      (∀ name ∈ names, isDottedWord (naming.physicalName name).toList = true) ∧
        t = ⟨names.foldl (fun d name => d.insert name (naming.physicalName name)) ∅⟩ :=
  foldlM_add_eq_ok_iff

/-- A table that cannot be built lacks a proper physical name for one of its names. -/
theorem exists_of_build_eq_error {fault : ConfigFault} (h : build naming names = .error fault) :
    ∃ name ∈ names, isDottedWord (naming.physicalName name).toList = false ∧
      fault = .invalidTable name (naming.physicalName name) := by
  suffices go : ∀ t, names.foldlM (add naming) t = .error fault →
      ∃ name ∈ names, isDottedWord (naming.physicalName name).toList = false ∧
        fault = .invalidTable name (naming.physicalName name) from go ∅ h
  clear h
  induction names with
  | nil => intro t h; cases h
  | cons name names ih =>
    intro t h
    rw [List.foldlM_cons] at h
    cases hadd : add naming t name with
    | ok t' =>
      rw [hadd] at h
      obtain ⟨name', hm, hrest⟩ := ih t' h
      exact ⟨name', List.mem_cons_of_mem _ hm, hrest⟩
    | error fault' =>
      rw [hadd] at h
      cases h
      refine ⟨name, by simp, ?_⟩
      rw [add] at hadd
      split at hadd
      · cases hadd
      · next hname =>
        cases hadd
        exact ⟨Bool.eq_false_iff.mpr hname, rfl⟩

/-- A table that was built has exactly the names it was built of. -/
theorem get?_of_build (h : build naming names = .ok t) (name : String) :
    t.get? name = if name ∈ names then some (naming.physicalName name) else none := by
  obtain ⟨-, rfl⟩ := build_eq_ok_iff.mp h
  have go (d : Dictionary String) :
      (names.foldl (fun d name => d.insert name (naming.physicalName name)) d).get? name =
        if name ∈ names then some (naming.physicalName name) else d.get? name := by
    clear h
    induction names generalizing d with
    | nil => simp
    | cons n names ih =>
      rw [List.foldl_cons, ih, Dictionary.get?_insert]
      by_cases hn : n = name
      · subst hn; simp
      · simp [hn, Ne.symm hn]
  exact go ∅

/-- A table all of whose physical names are dotted words. -/
def Proper (t : JoinTables) : Prop :=
  ∀ name physical, t.get? name = some physical → isDottedWord physical.toList = true

/-- A table that was built gives dotted words alone. -/
theorem proper_of_build (h : build naming names = .ok t) : t.Proper := by
  intro name physical hp
  rw [get?_of_build h] at hp
  split at hp
  · next hm =>
    cases hp
    exact (build_eq_ok_iff.mp h).1 name hm
  · cases hp

theorem Proper.dollar_notMem (ht : t.Proper) {name physical : String}
    (hp : t.get? name = some physical) : '$' ∉ physical.toList := by
  intro hc
  exact (isPlainPart_of_isDottedFrom (ht name physical hp) '$' hc).notMem (by decide)

end JoinTables

end SchemaQuery
