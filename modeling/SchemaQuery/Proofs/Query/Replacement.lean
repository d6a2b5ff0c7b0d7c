import SchemaQuery.Proofs.Query.Delimiter
import SchemaQuery.Proofs.Text.Dotted

/-!
What building a table and resolving a template do, said without the way they are computed. A table is
built exactly if every physical name is words joined by points. A template is cut at its macros, between
which none stands; it is resolved exactly if the name of each is known, and then the physical name stands
in the place of each macro and all else is as it was.
-/

namespace SchemaQuery

open Text

/-! ### Templates cut at their macros -/

namespace JoinMacro

/-- A macro, and what stands between it and the macro before. -/
structure Site where
  before : List Char
  name : String
  /-- The text of the macro behind its dollar sign. -/
  written : List Char

/-- A macro as it is written, with what stands in front of it. -/
def Site.source (p : Site) : List Char := p.before ++ '$' :: p.written

/-- The macros of a text from left to right, each with what stands in front of it, and what is behind the
last one. No macro stands in anything else. -/
structure IsCut (s : List Char) (sites : List Site) (rest : List Char) : Prop where
  source : s = sites.flatMap Site.source ++ rest
  macros : ∀ p ∈ sites, IsTail p.name p.written
  before : ∀ p ∈ sites, ∀ name, ¬ Mentions p.before name
  rest : ∀ name, ¬ Mentions rest name

theorem mentions_cons {c : Char} {s : List Char} {name : String} :
    Mentions (c :: s) name ↔
      (∃ written behind, c = '$' ∧ s = written ++ behind ∧ IsTail name written) ∨ Mentions s name := by
  constructor
  · rintro ⟨before, written, behind, hs, hw⟩
    cases before with
    | nil =>
      obtain ⟨rfl, rfl⟩ := List.cons.inj hs
      exact .inl ⟨written, behind, rfl, rfl, hw⟩
    | cons d before =>
      obtain ⟨rfl, rfl⟩ := List.cons.inj hs
      exact .inr ⟨before, written, behind, rfl, hw⟩
  · rintro (⟨written, behind, rfl, rfl, hw⟩ | ⟨before, written, behind, rfl, hw⟩)
    · exact ⟨[], written, behind, rfl, hw⟩
    · exact ⟨c :: before, written, behind, rfl, hw⟩

/-- One more character in front, at which no macro begins. -/
theorem IsCut.cons {c : Char} {s rest : List Char} {sites : List Site} (h : IsCut s sites rest)
    (hc : ¬ Begins (c :: s)) : ∃ sites rest, IsCut (c :: s) sites rest := by
  obtain ⟨rfl, hmacros, hbefore, hrest⟩ := h
  -- A macro that began with the character would begin the whole text.
  have hextend {u v : List Char} (hs : sites.flatMap Site.source ++ rest = u ++ v)
      (hu : ∀ name, ¬ Mentions u name) : ∀ name, ¬ Mentions (c :: u) name := by
    intro name hm
    rcases mentions_cons.mp hm with ⟨written, behind, rfl, rfl, hw⟩ | hm
    · exact hc ⟨name, written, behind ++ v, by rw [hs, List.append_assoc], hw⟩
    · exact hu name hm
  cases sites with
  | nil => exact ⟨[], c :: rest, rfl, hmacros, hbefore, hextend (v := []) (by simp) hrest⟩
  | cons p sites =>
    obtain ⟨hp, hmacros⟩ := List.forall_mem_cons.mp hmacros
    obtain ⟨hpbefore, hbefore⟩ := List.forall_mem_cons.mp hbefore
    refine ⟨⟨c :: p.before, p.name, p.written⟩ :: sites, rest, rfl,
      List.forall_mem_cons.mpr ⟨hp, hmacros⟩, List.forall_mem_cons.mpr ⟨?_, hbefore⟩, hrest⟩
    refine hextend (v := '$' :: p.written ++ (sites.flatMap Site.source ++ rest)) ?_ hpbefore
    simp [Site.source]

/-- Every text can be cut at its macros. -/
theorem exists_isCut (s : List Char) : ∃ sites rest, IsCut s sites rest := by
  induction hlen : s.length using Nat.strongRecOn generalizing s with
  | ind k ih =>
    subst hlen
    cases s with
    | nil => exact ⟨[], [], rfl, by simp, by simp, by rintro name ⟨before, t, behind, hs, -⟩; simp at hs⟩
    | cons c s =>
      cases hf : find c s with
      | none =>
        obtain ⟨sites, rest, hcut⟩ := ih s.length (by simp) s rfl
        exact hcut.cons (not_begins hf)
      | some found =>
        obtain ⟨name, n⟩ := found
        obtain ⟨rfl, written, behind, rfl, -, hw⟩ := find_eq_some_iff.mp hf
        have hshorter : behind.length < ('$' :: (written ++ behind)).length := by
          rw [List.length_cons, List.length_append]
          omega
        obtain ⟨sites, rest, rfl, hmacros, hbefore, hrest⟩ := ih behind.length hshorter behind rfl
        refine ⟨⟨[], name, written⟩ :: sites, rest, by simp [Site.source],
          List.forall_mem_cons.mpr ⟨hw, hmacros⟩, List.forall_mem_cons.mpr ⟨?_, hbefore⟩, hrest⟩
        rintro name' ⟨before, t, behind, hs, -⟩
        simp at hs

/-- Text without macros has its characters for pieces, at the end of a text and in front of a dollar
sign. -/
theorem pieces_append_of_not_mentions {u r : List Char} (hu : ∀ name, ¬ Mentions u name)
    (hr : ∀ c ∈ r.head?, c = '$') : pieces find (u ++ r) = u.map .plain ++ pieces find r := by
  induction u with
  | nil => rfl
  | cons c u ih =>
    have htail : ∀ name, ¬ Mentions u name := fun name hm => hu name (mentions_cons.mpr (.inr hm))
    have hnone : find c (u ++ r) = none := by
      cases hf : find c (u ++ r) with
      | none => rfl
      | some found =>
        obtain ⟨name, n⟩ := found
        obtain ⟨rfl, written, behind, heq, -, hw⟩ := find_eq_some_iff.mp hf
        have hshort (behind : List Char) (hs : u = written ++ behind) : False :=
          hu name (mentions_cons.mpr (.inl ⟨written, behind, rfl, hs, hw⟩))
        -- A macro that went on behind the text would have its dollar sign in it.
        rcases List.append_eq_append_iff.mp heq with ⟨more, rfl, hmore⟩ | ⟨behind, hs, -⟩
        · cases more with
          | nil => exact (hshort [] (by simp)).elim
          | cons d more =>
            obtain rfl : d = '$' := hr d (by rw [hmore]; rfl)
            exact absurd (by simp) hw.dollar_notMem
        · exact (hshort behind hs).elim
    rw [List.cons_append, pieces_cons_none hnone, ih htail]
    rfl

/-- The pieces of a text that begins with a macro and what stands in front of it. -/
theorem pieces_site {p : Site} (hp : IsTail p.name p.written)
    (hbefore : ∀ name, ¬ Mentions p.before name) (s : List Char) :
    pieces find (p.source ++ s) =
      p.before.map .plain ++ .found p.name ('$' :: p.written) :: pieces find s := by
  have hfind : find '$' (p.written ++ s) = some (p.name, p.written.length) :=
    find_eq_some_iff.mpr ⟨rfl, p.written, s, rfl, rfl, hp⟩
  rw [Site.source, List.append_assoc, pieces_append_of_not_mentions hbefore (by simp), List.cons_append,
    pieces_cons_some hfind, List.take_left' rfl, List.drop_left' rfl]

theorem filterMap_item?_plain (u : List Char) :
    (u.map (Piece.plain (α := String))).filterMap Piece.item? = [] := by
  induction u with
  | nil => rfl
  | cons c u ih => exact ih

/-- The names of a text are those of the macros that it is cut at. -/
theorem IsCut.names {s rest : List Char} {sites : List Site} (h : IsCut s sites rest) :
    items find s = sites.map Site.name := by
  obtain ⟨rfl, hmacros, hbefore, hrest⟩ := h
  induction sites with
  | nil =>
    have hpieces := pieces_append_of_not_mentions hrest (r := []) (by simp)
    rw [List.append_nil, pieces_nil, List.append_nil] at hpieces
    rw [List.flatMap_nil, List.nil_append, items, hpieces, filterMap_item?_plain]
    rfl
  | cons p sites ih =>
    obtain ⟨hp, hmacros⟩ := List.forall_mem_cons.mp hmacros
    obtain ⟨hpbefore, hbefore⟩ := List.forall_mem_cons.mp hbefore
    rw [List.flatMap_cons, List.append_assoc, items, pieces_site hp hpbefore, List.filterMap_append,
      filterMap_item?_plain, List.map_cons, ← ih hmacros hbefore]
    rfl

end JoinMacro

namespace JoinTables

variable {t : JoinTables}

theorem flatMap_put_plain (u : List Char) : (u.map .plain).flatMap t.put = u := by
  induction u with
  | nil => rfl
  | cons c u ih =>
    rw [List.map_cons, List.flatMap_cons, ih]
    rfl

/-- In a resolved text, the physical name stands in the place of each macro, and all else is as it was. -/
theorem resolved_of_isCut {physical : String → String} {s rest : List Char}
    {sites : List JoinMacro.Site} (h : JoinMacro.IsCut s sites rest)
    (hphysical : ∀ p ∈ sites, t.get? p.name = some (physical p.name)) :
    t.resolved s = sites.flatMap (fun p => p.before ++ (physical p.name).toList) ++ rest := by
  obtain ⟨rfl, hmacros, hbefore, hrest⟩ := h
  induction sites with
  | nil =>
    have hpieces := JoinMacro.pieces_append_of_not_mentions hrest (r := []) (by simp)
    rw [List.append_nil, pieces_nil, List.append_nil] at hpieces
    rw [List.flatMap_nil, List.nil_append, resolved, hpieces, flatMap_put_plain]
    rfl
  | cons p sites ih =>
    obtain ⟨hp, hmacros⟩ := List.forall_mem_cons.mp hmacros
    obtain ⟨hpbefore, hbefore⟩ := List.forall_mem_cons.mp hbefore
    obtain ⟨hname, hphysical⟩ := List.forall_mem_cons.mp hphysical
    have hput : t.put (.found p.name ('$' :: p.written)) = (physical p.name).toList := by
      rw [put, hname]
      rfl
    have ih := ih hphysical hmacros hbefore
    rw [resolved] at ih
    rw [List.flatMap_cons, List.append_assoc, resolved, JoinMacro.pieces_site hp hpbefore,
      List.flatMap_append, flatMap_put_plain, List.flatMap_cons, hput, ih, List.flatMap_cons]
    simp only [List.append_assoc]

/-! ### Unknown tables -/

/-- The fault of a macro whose table is unknown. -/
def missing? (t : JoinTables) (name : String) : Option TemplateFault :=
  match t.get? name with
  | some _ => none
  | none => some (.unresolvedTable name)

/-- A piece cannot be replaced exactly if it is a macro of an unknown table. -/
theorem place_eq_error_iff (piece : Piece String) (fault : TemplateFault) :
    t.place piece = .error fault ↔ piece.item?.bind t.missing? = some fault := by
  cases piece with
  | plain c => exact iff_of_false (by rintro ⟨⟩) (by rintro ⟨⟩)
  | found name written =>
    rw [place, Piece.item?, Option.bind_some, missing?]
    cases t.get? name <;> simp

theorem findSome?_missing?_eq_some_iff {names : List String} {fault : TemplateFault} :
    names.findSome? t.missing? = some fault ↔
      ∃ name, names.find? (fun n => (t.get? n).isNone) = some name ∧ fault = .unresolvedTable name := by
  induction names with
  | nil => simp
  | cons name names ih =>
    rw [List.findSome?_cons, List.find?_cons, missing?]
    cases t.get? name with
    | none => simp [eq_comm]
    | some physical => exact ih

theorem findSome?_pieces (s : List Char) :
    (pieces JoinMacro.find s).findSome? (fun piece => piece.item?.bind t.missing?) =
      (items JoinMacro.find s).findSome? t.missing? := by
  rw [items]
  induction pieces JoinMacro.find s with
  | nil => rfl
  | cons piece ps ih =>
    cases piece with
    | plain c => exact ih
    | found name written =>
      change _ = (name :: ps.filterMap Piece.item?).findSome? t.missing?
      rw [List.findSome?_cons, List.findSome?_cons, ← ih]
      rfl

/-- A template that cannot be resolved has the fault of its leftmost macro whose table is unknown. -/
theorem resolve_eq_error_iff {template : String} {fault : TemplateFault} :
    t.resolve template = .error fault ↔
      ∃ name, (JoinMacro.names template).find? (fun n => (t.get? n).isNone) = some name ∧
        fault = .unresolvedTable name := by
  rw [resolve_eq_map, map_eq_error_iff, mapM_eq_error_iff_findSome? place_eq_error_iff, findSome?_pieces,
    findSome?_missing?_eq_some_iff]
  exact Iff.rfl

/-! ### Building and resolving -/

/-- A table is built exactly if all physical names are words joined by points, and it has them for its
names. A template is resolved by such a table exactly if all its names are in it, and otherwise has the
fault of the leftmost one that is not. What comes of it has the physical name in the place of each macro,
is as it was elsewhere, and has the same delimiters, overlapping or not. -/
theorem resolve_replaces_macros (naming : TableNaming) (names : List String) :
    ((∃ t, build naming names = .ok t) ↔
      ∀ name ∈ names, IsDotted (naming.physicalName name).toList) ∧
    ∀ t, build naming names = .ok t →
      (∀ name, t.get? name = if name ∈ names then some (naming.physicalName name) else none) ∧
      ∀ template : String, ∃ sites rest, JoinMacro.IsCut template.toList sites rest ∧
        JoinMacro.names template = sites.map JoinMacro.Site.name ∧
        ((∃ text, t.resolve template = .ok text) ↔
          ∀ name ∈ JoinMacro.names template, (t.get? name).isSome = true) ∧
        (∀ fault, t.resolve template = .error fault ↔
          ∃ name, (JoinMacro.names template).find? (fun n => (t.get? n).isNone) = some name ∧
            fault = .unresolvedTable name) ∧
        ∀ text, t.resolve template = .ok text →
          text.toList =
            sites.flatMap (fun p => p.before ++ (naming.physicalName p.name).toList) ++ rest ∧
          Delimiter.everywhere text.toList = Delimiter.everywhere template.toList ∧
          Delimiter.inOrder text.toList = Delimiter.inOrder template.toList := by
  constructor
  · simp only [build_eq_ok_iff, isDottedWord_iff, exists_and_left, exists_eq, and_true]
  · intro t ht
    have hget := get?_of_build ht
    refine ⟨hget, fun template => ?_⟩
    obtain ⟨sites, rest, hcut⟩ := JoinMacro.exists_isCut template.toList
    refine ⟨sites, rest, hcut, hcut.names, ?_, fun fault => resolve_eq_error_iff, fun text htext => ?_⟩
    · simp only [resolve_eq_ok_iff, exists_and_left, exists_eq, and_true]
    · have hresolves := resolves_of_resolve htext
      obtain ⟨hknown, -⟩ := resolve_eq_ok_iff.mp htext
      have hphysical : ∀ p ∈ sites, t.get? p.name = some (naming.physicalName p.name) := by
        intro p hp
        have hname : p.name ∈ JoinMacro.names template := by
          rw [JoinMacro.names, hcut.names]
          exact List.mem_map_of_mem hp
        have hsome := hknown p.name hname
        rw [hget] at hsome ⊢
        split at hsome
        · next hm => rw [if_pos hm]
        · cases hsome
      refine ⟨?_, hresolves.everywhere_eq (proper_of_build ht), hresolves.inOrder_eq (proper_of_build ht)⟩
      rw [hresolves.eq_resolved, resolved_of_isCut hcut hphysical]

end JoinTables

end SchemaQuery
