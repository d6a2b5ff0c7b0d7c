import SchemaQuery.Proofs.Query.JoinTable
import SchemaQuery.Query.Template

/-!
What becomes of a template when its macros are replaced. It is resolved exactly if the table knows every
name in it; the leftmost name that it does not know decides the fault. The two texts are then read side
by side: where the template has a macro the resolved text has a dotted word, and elsewhere both have the
same characters.
-/

namespace SchemaQuery

open Text

namespace JoinTables

/-- What a piece of a template becomes, or the fault of a macro whose table is unknown. -/
def place (t : JoinTables) : Piece String → Except TemplateFault (List Char)
  | .plain c => .ok [c]
  | .found name _ =>
    match t.get? name with
    | some physical => .ok physical.toList
    | none => .error (.unresolvedTable name)

/-- What a piece of a template becomes; a macro whose table is unknown stays what it is. -/
def put (t : JoinTables) : Piece String → List Char
  | .plain c => [c]
  | .found name written => ((t.get? name).map String.toList).getD written

/-- A text with the macros replaced whose tables are known. -/
def resolved (t : JoinTables) (s : List Char) : List Char := (pieces JoinMacro.find s).flatMap t.put

variable {t : JoinTables}

/-- A piece is replaced exactly if it is no macro of an unknown table. -/
theorem place_eq_ok_iff (piece : Piece String) (part : List Char) :
    t.place piece = .ok part ↔
      (∀ name ∈ piece.item?, (t.get? name).isSome = true) ∧ part = t.put piece := by
  cases piece with
  | plain c =>
    constructor
    · intro h
      cases h
      exact ⟨by simp [Piece.item?], rfl⟩
    · rintro ⟨-, rfl⟩
      rfl
  | found name written =>
    have hitem : (∀ n ∈ (Piece.found name written).item?, (t.get? n).isSome = true) ↔
        (t.get? name).isSome = true := by simp [Piece.item?]
    rw [place, put, hitem]
    cases t.get? name with
    | none => simp
    | some physical =>
      constructor
      · intro h
        cases h
        exact ⟨rfl, rfl⟩
      · rintro ⟨-, rfl⟩
        rfl

/-- Resolving goes piece by piece. -/
theorem resolve_eq_map (template : String) :
    t.resolve template =
      ((pieces JoinMacro.find template.toList).mapM t.place).map fun parts =>
        String.ofList parts.flatten := by
  rw [resolve]
  congr 2

/-- A template is resolved exactly if the table knows every name in it. -/
theorem resolve_eq_ok_iff {template text : String} :
    t.resolve template = .ok text ↔
      (∀ name ∈ JoinMacro.names template, (t.get? name).isSome = true) ∧
        text = String.ofList (t.resolved template.toList) := by
  rw [resolve_eq_map, map_eq_ok_iff]
  simp only [mapM_eq_ok_iff_forall place_eq_ok_iff]
  have hnames : (∀ name ∈ JoinMacro.names template, (t.get? name).isSome = true) ↔
      ∀ piece ∈ pieces JoinMacro.find template.toList, ∀ name ∈ piece.item?,
        (t.get? name).isSome = true := by
    simp only [JoinMacro.names, items, List.mem_filterMap]
    constructor
    · intro h piece hp name hn
      exact h name ⟨piece, hp, hn⟩
    · rintro h name ⟨piece, hp, hn⟩
      exact h piece hp name hn
  rw [hnames]
  constructor
  · rintro ⟨parts, ⟨hall, rfl⟩, rfl⟩
    exact ⟨hall, rfl⟩
  · rintro ⟨hall, rfl⟩
    exact ⟨_, ⟨hall, rfl⟩, rfl⟩

theorem exists_of_resolve_eq_error {template : String} {fault : TemplateFault}
    (h : t.resolve template = .error fault) :
    ∃ name ∈ JoinMacro.names template, t.get? name = none ∧ fault = .unresolvedTable name := by
  rw [resolve_eq_map] at h
  cases hm : (pieces JoinMacro.find template.toList).mapM t.place with
  | ok parts => rw [hm] at h; cases h
  | error fault' =>
    rw [hm] at h
    cases h
    obtain ⟨piece, hp, hplace⟩ := exists_of_mapM_eq_error hm
    cases piece with
    | plain c => cases hplace
    | found name written =>
      rw [place] at hplace
      split at hplace
      · cases hplace
      · next hnone =>
        cases hplace
        exact ⟨name, List.mem_filterMap.mpr ⟨_, hp, rfl⟩, hnone, rfl⟩

/-! ### The two texts side by side -/

@[simp] theorem resolved_nil (t : JoinTables) : t.resolved [] = [] := rfl

theorem resolved_cons {c : Char} {s : List Char} (h : JoinMacro.find c s = none) :
    t.resolved (c :: s) = c :: t.resolved s := by
  rw [resolved, pieces_cons_none h, List.flatMap_cons]
  rfl

theorem resolved_put {name physical : String} {written s : List Char}
    (hw : JoinMacro.IsTail name written) (hp : t.get? name = some physical) :
    t.resolved ('$' :: (written ++ s)) = physical.toList ++ t.resolved s := by
  have hf : JoinMacro.find '$' (written ++ s) = some (name, written.length) :=
    JoinMacro.find_eq_some_iff.mpr ⟨rfl, written, s, rfl, rfl, hw⟩
  rw [resolved, pieces_cons_some hf, List.flatMap_cons, List.drop_left' rfl, put, hp]
  rfl

/-- A text and what becomes of it, read side by side. -/
inductive Resolves (t : JoinTables) : List Char → List Char → Prop where
  | nil : Resolves t [] []
  /-- A character that begins no macro. -/
  | plain {c : Char} {s s' : List Char} :
      JoinMacro.find c s = none → Resolves t s s' → Resolves t (c :: s) (c :: s')
  /-- A macro and the name that is put in for it. -/
  | put {name physical : String} {written s s' : List Char} :
      JoinMacro.IsTail name written → t.get? name = some physical → Resolves t s s' →
        Resolves t ('$' :: (written ++ s)) (physical.toList ++ s')

/-- A text begins like what becomes of it, unless it begins with a macro: then the other one begins like a
word. -/
theorem Resolves.head?_cases {s s' : List Char} (h : t.Resolves s s') (ht : t.Proper) :
    (¬ JoinMacro.Begins s ∧ s'.head? = s.head?) ∨
      (JoinMacro.Begins s ∧ s.head? = some '$' ∧ ∃ c r, s' = c :: r ∧ isWordStart c = true) := by
  cases h with
  | nil =>
    refine .inl ⟨?_, rfl⟩
    rintro ⟨name, written, behind, hs, -⟩
    cases hs
  | plain hf h => exact .inl ⟨JoinMacro.not_begins hf, rfl⟩
  | @put name physical written s s' hw hp h =>
    obtain ⟨c, r, hr, hc⟩ := exists_cons_of_isDottedWord (ht _ _ hp)
    exact .inr ⟨⟨name, written, s, rfl, hw⟩, rfl, c, r ++ s', by rw [hr]; rfl, hc⟩

/-- Text without dollar signs can be left out of both texts. -/
theorem Resolves.of_append {u s s' : List Char} (hu : '$' ∉ u) (h : t.Resolves (u ++ s) s') :
    ∃ rest, s' = u ++ rest ∧ t.Resolves s rest := by
  induction u generalizing s' with
  | nil => exact ⟨s', rfl, h⟩
  | cons c u ih =>
    obtain ⟨hc, hu⟩ := not_or.mp (mt List.mem_cons.mpr hu)
    rw [List.cons_append] at h
    generalize hr : u ++ s = r at h
    cases h with
    | plain hf h =>
      obtain ⟨rest, rfl, hrest⟩ := ih hu (hr ▸ h)
      exact ⟨rest, rfl, hrest⟩
    | put hw hp h => exact absurd rfl hc

/-- Reading side by side ends with the resolved text. -/
theorem Resolves.eq_resolved {s s' : List Char} (h : t.Resolves s s') : s' = t.resolved s := by
  induction h with
  | nil => rfl
  | plain hf _ ih => rw [resolved_cons hf, ih]
  | put hw hp _ ih => rw [resolved_put hw hp, ih]

/-- A text all of whose tables are known can be read beside what becomes of it. -/
theorem resolves_resolved {s : List Char}
    (h : ∀ name ∈ items JoinMacro.find s, (t.get? name).isSome = true) :
    t.Resolves s (t.resolved s) := by
  induction hlen : s.length using Nat.strongRecOn generalizing s with
  | ind k ih =>
    subst hlen
    cases s with
    | nil => exact .nil
    | cons c s =>
      cases hf : JoinMacro.find c s with
      | none =>
        rw [items_cons_none hf] at h
        rw [resolved_cons hf]
        exact .plain hf (ih s.length (by simp) h rfl)
      | some found =>
        obtain ⟨name, n⟩ := found
        rw [items_cons_some hf] at h
        obtain ⟨rfl, written, rest, rfl, rfl, hw⟩ := JoinMacro.find_eq_some_iff.mp hf
        obtain ⟨physical, hp⟩ := Option.isSome_iff_exists.mp (h name (by simp))
        rw [List.drop_left' rfl] at h
        have hlt : rest.length < ('$' :: (written ++ rest)).length := by
          rw [List.length_cons, List.length_append]
          omega
        rw [resolved_put hw hp]
        exact .put hw hp (ih rest.length hlt (fun n hn => h n (List.mem_cons_of_mem _ hn)) rfl)

/-- A resolved template can be read beside its text. -/
theorem resolves_of_resolve {template text : String} (h : t.resolve template = .ok text) :
    t.Resolves template.toList text.toList := by
  obtain ⟨hknown, rfl⟩ := resolve_eq_ok_iff.mp h
  rw [String.toList_ofList]
  exact resolves_resolved hknown

theorem resolved_eq_self {s : List Char} (h : items JoinMacro.find s = []) : t.resolved s = s := by
  induction s with
  | nil => rfl
  | cons c s ih =>
    rw [JoinMacro.isMarked_find.items_cons, List.append_eq_nil_iff] at h
    have hf : JoinMacro.find c s = none := by simpa using h.1
    rw [resolved_cons hf, ih h.2]

theorem resolve_eq_self {template : String} (h : JoinMacro.names template = []) :
    t.resolve template = .ok template := by
  rw [resolve_eq_ok_iff, h, resolved_eq_self h, String.ofList_toList]
  exact ⟨by simp, rfl⟩

/-! ### Prepared templates -/

/-- A template is prepared exactly if it has a known keyword, its tables are known, and its resolved text
closes every region. -/
theorem prepare_eq_ok_iff {template : String} {prepared : PreparedTemplate} :
    t.prepare template = .ok prepared ↔
      classify template = .ok prepared.kind ∧ t.resolve template = .ok prepared.text ∧
        ∃ segments, Segment.split prepared.text.toList = .ok segments := by
  constructor
  · intro h
    obtain ⟨kind, hkind, h⟩ := bind_eq_ok_iff.mp h
    obtain ⟨text, htext, h⟩ := bind_eq_ok_iff.mp h
    obtain ⟨segments, hsegments, h⟩ := bind_eq_ok_iff.mp h
    cases h
    exact ⟨hkind, htext, segments, mapError_eq_ok_iff.mp hsegments⟩
  · rintro ⟨hkind, htext, segments, hsegments⟩
    refine bind_eq_ok_iff.mpr ⟨_, hkind, ?_⟩
    refine bind_eq_ok_iff.mpr ⟨_, htext, ?_⟩
    exact bind_eq_ok_iff.mpr ⟨segments, mapError_eq_ok_iff.mpr hsegments, rfl⟩

/-- A template that cannot be prepared has no known keyword, mentions a table that is unknown, or leaves
a region open once it is resolved. -/
theorem prepare_eq_error_iff {template : String} {fault : TemplateFault} :
    t.prepare template = .error fault ↔
      classify template = .error fault ∨ ∃ kind, classify template = .ok kind ∧
        (t.resolve template = .error fault ∨ ∃ text region, t.resolve template = .ok text ∧
          Segment.split text.toList = .error region ∧ fault = .unterminated region) := by
  rw [prepare, bind_eq_error_iff]
  refine or_congr_right (exists_congr fun kind => and_congr_right fun _ => ?_)
  rw [bind_eq_error_iff]
  refine or_congr_right (exists_congr fun text => ?_)
  rw [exists_and_left]
  refine and_congr_right fun _ => ?_
  rw [bind_eq_error_iff, mapError_eq_error_iff]
  constructor
  · rintro (⟨region, hregion, rfl⟩ | ⟨segments, -, h⟩)
    · exact ⟨region, hregion, rfl⟩
    · cases h
  · rintro ⟨region, hregion, rfl⟩
    exact .inl ⟨region, hregion, rfl⟩

end JoinTables

end SchemaQuery
