import SchemaQuery.Proofs.Query.Classification
import SchemaQuery.Proofs.Query.Rendering
import SchemaQuery.Proofs.Query.Resolution

/-!
The kind that is reported with a query. It is settled on the template, before anything is put in, and
what is put in is not set off from what stands in front of it. So the query has another kind, or none,
exactly if something that is put in goes on with the word of the keyword: the name of a join table whose
macro stands right behind the keyword, or a value that begins with a letter or a digit and whose
placeholder stands there, bare or as a whole literal.
-/

namespace SchemaQuery

open Text
open Segment (split scan afterBare extend)

/-! ### A template whose front is copied -/

theorem Placeholder.replace_append {f : String → Option (Except Error (List Char))} {u : List Char}
    (hu : '$' ∉ u) {s out : List Char} (h : replace f (u ++ s) = .ok out) :
    ∃ rest, replace f s = .ok rest ∧ out = u ++ rest := by
  obtain ⟨parts, hparts, rfl⟩ := replace_eq_ok_iff.mp h
  rw [isMarked_find.pieces_append hu] at hparts
  clear h
  induction u generalizing parts with
  | nil => exact ⟨_, replace_eq_ok_iff.mpr ⟨parts, hparts, rfl⟩, rfl⟩
  | cons c u ih =>
    rcases hparts with _ | ⟨hc, hparts⟩
    cases hc
    obtain ⟨rest, hrest, heq⟩ := ih (not_or.mp (mt List.mem_cons.mpr hu)).2 _ hparts
    refine ⟨rest, hrest, ?_⟩
    rw [List.flatten_cons, heq]
    rfl

namespace Segment

theorem scan_bare_append {u : List Char} (hu : ∀ c ∈ u, c ∉ ['\'', '"', '-', '/']) (r : List Char) :
    scan .bare (u ++ r) = (scan .bare r).map fun scanned => (u ++ scanned.1, scanned.2) := by
  induction u with
  | nil => cases h : scan .bare r <;> simp [h, Except.map]
  | cons c u ih =>
    obtain ⟨hc, hu⟩ := List.forall_mem_cons.mp hu
    rw [List.cons_append, scan_bare_cons (isPlain_of_notMem hc _), ih hu]
    cases scan .bare r <;> rfl

/-- A front that is neither taken for a sign nor for a placeholder is copied, and what is behind it is
rendered as it would be alone. -/
theorem render_append {args : Arguments} {u r : List Char} {segments : List Segment}
    {parts : List (List Char)} (hu : ∀ c ∈ u, c ∉ ['\'', '"', '-', '/', '*', '$'])
    (hs : split (u ++ r) = .ok segments)
    (hparts : List.Forall₂ (fun seg part => render args seg = .ok part) segments parts) :
    ∃ segments' parts', split r = .ok segments' ∧
      List.Forall₂ (fun seg part => render args seg = .ok part) segments' parts' ∧
      parts.flatten = u ++ parts'.flatten := by
  have hsigns : ∀ c ∈ u, c ∉ ['\'', '"', '-', '/'] := fun c hc hm =>
    hu c hc (List.mem_append_left ['*', '$'] hm)
  have hdollar : '$' ∉ u := fun hc => hu '$' hc (by decide)
  obtain ⟨⟨t, found⟩, hscan, rfl⟩ := map_eq_ok_iff.mp hs
  rw [scan_bare_append hsigns] at hscan
  obtain ⟨⟨b, found⟩, hr, hb⟩ := map_eq_ok_iff.mp hscan
  cases hb
  refine ⟨afterBare b found, ?_⟩
  have hsplit : split r = .ok (afterBare b found) := by rw [split, hr]; rfl
  change List.Forall₂ _ (afterBare (u ++ b) found) parts at hparts
  unfold afterBare at hparts hsplit ⊢
  split at hparts
  · next hnil =>
    obtain ⟨rfl, rfl⟩ := List.append_eq_nil_iff.mp hnil
    exact ⟨parts, hsplit, hparts, rfl⟩
  · rcases hparts with _ | ⟨hbare, hparts⟩
    obtain ⟨rest, hrest, rfl⟩ := Placeholder.replace_append hdollar hbare
    split
    · next hnil =>
      subst hnil
      cases hrest
      exact ⟨_, hsplit, hparts, by simp⟩
    · next hne =>
      rw [if_neg hne] at hsplit
      exact ⟨rest :: _, hsplit, .cons hrest hparts, by simp⟩

/-! ### What a rendered text begins with -/

/-- The placeholder that a segment begins with, if it is bare, or is, if it is a literal. -/
def leading? : Segment → Option Placeholder
  | .bare t =>
    match pieces Placeholder.find t with
    | .found p _ :: _ => some p
    | _ => none
  | .verbatim _ => none
  | .literal body => Placeholder.whole? body

/-- The text of a value that a segment begins with once the arguments are put in. -/
def filling? (args : Arguments) (seg : Segment) : Option (List Char) :=
  seg.leading?.bind fun p => args.literalText? p.key

/-- A segment begins with the value that is put in at its front, or else as it did. -/
theorem head?_render {args : Arguments} {seg : Segment} {part : List Char}
    (h : render args seg = .ok part) : part.head? = ((seg.filling? args).getD seg.source).head? := by
  cases seg with
  | verbatim t => cases h; rfl
  | bare t =>
    obtain ⟨parts, hparts, rfl⟩ := Placeholder.replace_eq_ok_iff.mp h
    have ht := flatMap_text_pieces Placeholder.find t
    rw [filling?, leading?, source]
    cases hps : pieces Placeholder.find t with
    | nil =>
      rw [hps] at hparts ht
      cases hparts
      rw [← ht]
      rfl
    | cons piece ps =>
      rw [hps] at hparts ht
      rcases hparts with _ | ⟨hpiece, hparts⟩
      cases piece with
      | plain c =>
        cases hpiece
        rw [← ht]
        rfl
      | found p written =>
        have hfound : .found p written ∈ pieces Placeholder.find t := by simp [hps]
        obtain ⟨rfl, -⟩ := Placeholder.text_of_mem_pieces hfound
        rw [← Fragment.texts_ofPiece hpiece, Fragment.ofPiece, Option.bind_some]
        cases hv : args.literalText? p.key with
        | none => rw [← ht]; rfl
        | some v =>
          obtain ⟨c, hc, -⟩ := (Fragment.isValue_of_literalText? hv).head?
          obtain ⟨v, rfl⟩ := List.head?_eq_some_iff.mp hc
          rfl
  | literal body =>
    rw [filling?, leading?, source]
    rcases fragments_literal h with ⟨key, -, hf⟩ | ⟨inner, -, rfl, hf⟩
    · rw [fragments] at hf
      split at hf
      · next v hv =>
        cases hf
        rw [hv]
        rfl
      · split at hf <;> cases hf
    · rw [fragments] at hf
      split at hf
      · cases hf
      · next hnone =>
        rw [hnone]
        rfl

theorem source_ne_nil_afterBare {t : List Char} {segments : List Segment}
    (h : ∀ seg ∈ segments, seg.source ≠ []) : ∀ seg ∈ afterBare t segments, seg.source ≠ [] := by
  unfold afterBare
  split
  · exact h
  · next ht => exact List.forall_mem_cons.mpr ⟨ht, h⟩

theorem source_ne_nil_of_scan {zone : Zone} {s b : List Char} {segments : List Segment}
    (h : scan zone s = .ok (b, segments)) : ∀ seg ∈ segments, seg.source ≠ [] := by
  fun_induction scan zone s generalizing b segments
  case case1 | case15 => cases h; simp
  case case7 | case11 | case18 => cases h
  case case2 | case3 | case4 | case5 =>
    rename_i ih
    obtain ⟨⟨body, found⟩, hs, hb⟩ := map_eq_ok_iff.mp h
    cases hb
    exact List.forall_mem_cons.mpr ⟨by simp [source], ih hs⟩
  case case6 | case8 | case10 | case12 | case14 | case17 | case20 =>
    rename_i ih
    obtain ⟨⟨body, found⟩, hs, hb⟩ := map_eq_ok_iff.mp h
    cases hb
    exact ih hs
  case case9 | case13 | case16 | case19 =>
    rename_i ih
    obtain ⟨⟨t, found⟩, hs, hb⟩ := map_eq_ok_iff.mp h
    cases hb
    exact source_ne_nil_afterBare (ih hs)

/-- No segment of a text is empty. -/
theorem source_ne_nil_of_split {s : List Char} {segments : List Segment}
    (h : split s = .ok segments) : ∀ seg ∈ segments, seg.source ≠ [] := by
  obtain ⟨⟨b, found⟩, hscan, rfl⟩ := map_eq_ok_iff.mp h
  exact source_ne_nil_afterBare (source_ne_nil_of_scan hscan)

end Segment

/-- A text begins with a placeholder, or with a literal that is exactly one, whose argument begins with a
character of a word. -/
def Arguments.LeadWithWord (args : Arguments) (s : List Char) : Prop :=
  ∃ seg segments p c v, split s = .ok (seg :: segments) ∧ seg.leading? = some p ∧
    args.literalText? p.key = some (c :: v) ∧ isWordPart c = true

/-- A text begins with such an argument exactly if its first segment is filled with it. -/
theorem Arguments.leadWithWord_iff {args : Arguments} {s : List Char} {seg : Segment}
    {segments : List Segment} (hs : split s = .ok (seg :: segments)) :
    args.LeadWithWord s ↔ ∃ c v, seg.filling? args = some (c :: v) ∧ isWordPart c = true := by
  constructor
  · rintro ⟨seg', segments', p, c, v, hs', hp, hv, hc⟩
    obtain ⟨rfl, -⟩ := List.cons.inj (Except.ok.inj (hs.symm.trans hs'))
    have hfilling : seg.filling? args = some (c :: v) := by
      rw [Segment.filling?, hp]
      exact hv
    exact ⟨c, v, hfilling, hc⟩
  · rintro ⟨c, v, hfilling, hc⟩
    obtain ⟨p, hp, hv⟩ := Option.bind_eq_some_iff.mp hfilling
    exact ⟨seg, segments, p, c, v, hs, hp, hv, hc⟩

/-- A text that begins with no character of a word is rendered to one that does not either, unless a value
that begins with one is put in at its front. -/
theorem Segment.render_head_iff {args : Arguments} {s : List Char} {segments : List Segment}
    {parts : List (List Char)} (hs : split s = .ok segments)
    (hparts : List.Forall₂ (fun seg part => render args seg = .ok part) segments parts)
    (hhead : ∀ c ∈ s.head?, isWordPart c = false) :
    (∀ c ∈ parts.flatten.head?, isWordPart c = false) ↔ ¬ args.LeadWithWord s := by
  have hsources := (linked_of_split hs).1
  have hne := source_ne_nil_of_split hs
  cases hparts with
  | nil =>
    have hlead : ¬ args.LeadWithWord s := by
      rintro ⟨seg, segments, p, c, v, hs', -⟩
      rw [hs] at hs'
      cases hs'
    simp [hlead]
  | @cons seg part segments parts hpart hparts =>
    have hfirst := head?_render hpart
    obtain ⟨d, r, hd⟩ := List.exists_cons_of_ne_nil (hne seg (by simp))
    rw [sources_cons, hd, List.cons_append] at hsources
    rw [Arguments.leadWithWord_iff hs]
    cases hv : seg.filling? args with
    | none =>
      rw [hv, Option.getD_none, hd] at hfirst
      obtain ⟨part, rfl⟩ := List.head?_eq_some_iff.mp hfirst
      have hd' : isWordPart d = false := hhead d (by rw [hsources]; rfl)
      simp [hd']
    | some v =>
      obtain ⟨p, hp, hv'⟩ := Option.bind_eq_some_iff.mp hv
      obtain ⟨c, hc, -⟩ := (Fragment.isValue_of_literalText? hv').head?
      obtain ⟨v, rfl⟩ := List.head?_eq_some_iff.mp hc
      rw [hv, Option.getD_some] at hfirst
      obtain ⟨part, rfl⟩ := List.head?_eq_some_iff.mp hfirst
      simp

namespace JoinTables

variable {t : JoinTables}

/-- The word of the keyword of a template goes on with something that is put in: with the name of a join
table, or with a value. -/
def RunsOn (t : JoinTables) (template : List Char) (args : Arguments) : Prop :=
  JoinMacro.Begins (behindKeyword template) ∨
    args.LeadWithWord (behindKeyword (t.resolved template))

/-- A template is compiled exactly if it can be prepared and then rendered. -/
theorem compile_eq_ok_iff {template : String} {args : Arguments} {q : CompiledQuery} :
    t.compile template args = .ok q ↔
      ∃ prepared, t.prepare template = .ok prepared ∧ prepared.render args = .ok q := by
  rw [compile, bind_eq_ok_iff]
  simp only [mapError_eq_ok_iff]

/-- The query of a template has the kind that is reported with it exactly if the word of its keyword does
not go on with something that is put in. -/
theorem classify_compile_iff {naming : TableNaming} {names : List String} {template : String}
    {args : Arguments} {q : CompiledQuery} (ht : build naming names = .ok t)
    (hq : t.compile template args = .ok q) :
    classify q.query = .ok q.kind ↔ ¬ t.RunsOn template.toList args := by
  obtain ⟨prepared, hprepared, hrender⟩ := compile_eq_ok_iff.mp hq
  obtain ⟨hkind, htext, -⟩ := prepare_eq_ok_iff.mp hprepared
  obtain ⟨-, segments, parts, hs, hparts, rfl⟩ := PreparedTemplate.render_eq_ok_iff.mp hrender
  obtain ⟨u, r, hu, htemplate, hend⟩ := exists_isHead hkind
  have hdollar : '$' ∉ u := fun hc => hu.notMem hc (by decide)
  have hresolves := resolves_of_resolve htext
  have htextList : prepared.text.toList = t.resolved template.toList := hresolves.eq_resolved
  rw [htemplate] at hresolves
  obtain ⟨r', hr', hresolves⟩ := hresolves.of_append hdollar
  rw [RunsOn, ← htextList, hr', htemplate, hu.behindKeyword_append hend]
  rw [hr'] at hs
  rcases hresolves.head?_cases (proper_of_build ht) with ⟨hbegins, hhead⟩ | ⟨hbegins, -, c, w, rfl, hc⟩
  · rw [← hhead] at hend
    obtain ⟨segments', parts', hs', hparts', hflatten⟩ :=
      Segment.render_append (fun c hc => hu.notMem hc) hs hparts
    rw [hflatten, hu.classify_append, hu.behindKeyword_append hend, or_iff_right hbegins]
    exact Segment.render_head_iff hs' hparts' hend
  · -- The first character of the name is copied, so it comes right behind the keyword.
    have hplain : ∀ d ∈ u ++ [c], d ∉ ['\'', '"', '-', '/', '*', '$'] := by
      intro d hd
      rcases List.mem_append.mp hd with hd | hd
      · exact hu.notMem hd
      · obtain rfl := List.mem_singleton.mp hd
        exact IsPlainPart.notMem (.inl (isWordPart_of_isWordStart hc))
    have hsplit : u ++ c :: w = (u ++ [c]) ++ w := by simp
    rw [hsplit] at hs
    obtain ⟨segments', parts', -, -, hflatten⟩ := Segment.render_append hplain hs hparts
    rw [hflatten, List.append_assoc, hu.classify_append]
    refine iff_of_false (fun hword => ?_) (not_not.mpr (.inl hbegins))
    have hpart := hword c rfl
    rw [isWordPart_of_isWordStart hc] at hpart
    cases hpart

/-- A table right behind the keyword is read as one word with it. -/
theorem classify_compile_tableBehindKeyword :
    ∃ t q, build ⟨"jt_", ∅⟩ ["a"] = .ok t ∧ t.compile "DELETE$join_table(a)" ∅ = .ok q ∧
      classify q.query ≠ .ok q.kind := by
  have ht : build ⟨"jt_", ∅⟩ ["a"] = .ok ⟨Dictionary.ofList [("a", "jt_a")]⟩ := rfl
  have hq : compile ⟨Dictionary.ofList [("a", "jt_a")]⟩ "DELETE$join_table(a)" ∅ =
      .ok ⟨"DELETEjt_a", .delete⟩ := rfl
  refine ⟨_, _, ht, hq, ?_⟩
  rw [ne_eq, classify_compile_iff ht hq, not_not]
  exact .inl ⟨"a", "join_table(a)".toList, [], rfl, [], [], rfl, rfl, by simp, by simp⟩

/-- A number right behind the keyword is read as one word with it, also where it stood in quotes. -/
theorem compile_number_behind_keyword :
    ∃ t q q', build ⟨"", ∅⟩ [] = .ok t ∧
      t.compile "SELECT$args.n" (.ofList [("n", .int 5)]) = .ok q ∧
      t.compile "SELECT'$args.n'" (.ofList [("n", .int 5)]) = .ok q' ∧
      q = ⟨"SELECT5", .read⟩ ∧ q' = q ∧
      classify q.query = .error (.unknownKeyword "SELECT5") :=
  ⟨_, _, _, rfl, rfl, rfl, rfl, rfl, rfl⟩

end JoinTables

end SchemaQuery
