import SchemaQuery.Proofs.Query.JoinTable
import SchemaQuery.Proofs.Query.Refusal

/-!
What a template refers to. A template refers to an argument where a placeholder for it stands in bare text or
inside a literal, written in full and with no longer name; what looks like one in a comment or in a quoted
identifier is no reference. Rendering finds exactly the references, since placeholders do not overlap and what
was put in is not read again. So arguments that a template does not refer to make no difference, once all of
them can be put into a query, and without any that it refers to it stays what it is.
-/

namespace SchemaQuery

open Text

/-! ### Placeholders as they are written -/

namespace Placeholder

/-- A placeholder for an argument stands somewhere in a text. -/
def Mentions (s : List Char) (key : String) : Prop :=
  ∃ (p : Placeholder) (before behind : List Char),
    s = before ++ '$' :: (p.tail ++ behind) ∧ p.EndsBefore behind ∧ p.key = key

/-- The keys of the placeholders that are found in a text are those of the placeholders that stand in it. -/
theorem mem_keys_all_iff {s : List Char} {key : String} :
    key ∈ (all s).map (·.key) ↔ Mentions s key := by
  rw [List.mem_map]
  constructor
  · rintro ⟨p, hp, hkey⟩
    obtain ⟨before, r, n, rfl, hf⟩ := isMarked_find.mem_items_iff.mp hp
    obtain ⟨-, -, behind, rfl, hends⟩ := find_eq_some_iff.mp hf
    exact ⟨p, before, behind, rfl, hends, hkey⟩
  · rintro ⟨p, before, behind, rfl, hends, hkey⟩
    have hf : find '$' (p.tail ++ behind) = some (p, p.tail.length) :=
      find_eq_some_iff.mpr ⟨rfl, rfl, behind, rfl, hends⟩
    exact ⟨p, isMarked_find.mem_items_iff.mpr ⟨before, _, _, rfl, hf⟩, hkey⟩

variable {f g : String → Option (Except Error (List Char))} {s : List Char}

theorem mem_all_of_mem_pieces {p : Placeholder} {t : List Char} (h : .found p t ∈ pieces find s) :
    p ∈ all s :=
  List.mem_filterMap.mpr ⟨_, h, rfl⟩

/-- Replacing looks at the keys of the placeholders alone. -/
theorem replace_congr (h : ∀ p ∈ all s, f p.key = g p.key) : replace f s = replace g s := by
  rw [replace_eq, replace_eq]
  refine congrArg _ (mapM_congr fun piece hpiece => ?_)
  cases piece with
  | plain c => rfl
  | found p t => rw [put, put, h p (mem_all_of_mem_pieces hpiece)]

theorem replace_eq_self (h : ∀ p ∈ all s, f p.key = none) : replace f s = .ok s := by
  have hpieces : List.Forall₂ (fun piece part => put f piece = .ok part) (pieces find s)
      ((pieces find s).map Piece.text) := by
    rw [List.forall₂_map_right_iff, List.forall₂_same]
    intro piece hpiece
    cases piece with
    | plain c => rfl
    | found p t =>
      rw [put, h p (mem_all_of_mem_pieces hpiece)]
      rfl
  refine replace_eq_ok_iff.mpr ⟨_, hpieces, ?_⟩
  rw [← List.flatMap_def, flatMap_text_pieces]

end Placeholder

/-! ### References -/

namespace Segment

/-- A segment refers to an argument: a placeholder for it stands in bare text, or inside a literal. -/
def RefersTo (key : String) : Segment → Prop
  | .bare t => Placeholder.Mentions t key
  | .literal body => Placeholder.Mentions body key
  | .verbatim _ => False

/-- The keys of the placeholders that rendering finds in a segment. -/
def references : Segment → List String
  | .bare t => (Placeholder.all t).map (·.key)
  | .literal body => (Placeholder.all body).map (·.key)
  | .verbatim _ => []

variable {args args' : Arguments} {seg : Segment}

/-- Rendering finds exactly the references. -/
theorem mem_references_iff {key : String} : key ∈ seg.references ↔ seg.RefersTo key := by
  cases seg with
  | bare t | literal body => exact Placeholder.mem_keys_all_iff
  | verbatim t => simp [references, RefersTo]

/-- A segment is rendered alike with arguments that agree on its references. -/
theorem render_congr (h : ∀ key ∈ seg.references, args.get? key = args'.get? key) :
    render args seg = render args' seg := by
  have hplaceholders {s : List Char} (hs : ∀ key ∈ (Placeholder.all s).map (·.key),
      args.get? key = args'.get? key) (p : Placeholder) (hp : p ∈ Placeholder.all s) :
      args.literal? p.key = args'.literal? p.key ∧ args.embedded? p.key = args'.embedded? p.key := by
    have hget := hs p.key (List.mem_map_of_mem hp)
    exact ⟨by rw [Arguments.literal?, Arguments.literal?, hget],
      by rw [Arguments.embedded?, Arguments.embedded?, hget]⟩
  cases seg with
  | verbatim t => rfl
  | bare t => exact Placeholder.replace_congr fun p hp => (hplaceholders h p hp).1
  | literal body =>
    have hwhole : ((Placeholder.whole? body).bind fun p => args.literal? p.key) =
        (Placeholder.whole? body).bind fun p => args'.literal? p.key := by
      cases hw : Placeholder.whole? body with
      | none => rfl
      | some p =>
        have hp : p ∈ Placeholder.all body := by rw [all_of_whole? hw, List.mem_singleton]
        exact (hplaceholders h p hp).1
    rw [render, render, hwhole, Placeholder.replace_congr fun p hp => (hplaceholders h p hp).2]

theorem render_eq_source (h : ∀ key ∈ seg.references, args.get? key = none) :
    render args seg = .ok seg.source := by
  have hplaceholders {s : List Char} (hs : ∀ key ∈ (Placeholder.all s).map (·.key),
      args.get? key = none) (p : Placeholder) (hp : p ∈ Placeholder.all s) :
      args.literal? p.key = none ∧ args.embedded? p.key = none := by
    have hget := hs p.key (List.mem_map_of_mem hp)
    exact ⟨by rw [Arguments.literal?, hget]; rfl, by rw [Arguments.embedded?, hget]; rfl⟩
  cases seg with
  | verbatim t => rfl
  | bare t => exact Placeholder.replace_eq_self fun p hp => (hplaceholders h p hp).1
  | literal body =>
    have hwhole : ((Placeholder.whole? body).bind fun p => args.literal? p.key) = none := by
      refine Option.bind_eq_none_iff.mpr fun p hw => ?_
      have hp : p ∈ Placeholder.all body := by rw [all_of_whole? hw, List.mem_singleton]
      exact (hplaceholders h p hp).1
    rw [render, hwhole, Placeholder.replace_eq_self fun p hp => (hplaceholders h p hp).2]
    rfl

end Segment

/-! ### Templates -/

namespace PreparedTemplate

open Segment (split)

variable {t : PreparedTemplate} {args args' : Arguments} {segments : List Segment}

/-- With accepted arguments, rendering a template with these segments is rendering them. -/
theorem render_of_accepted (hs : split t.text.toList = .ok segments) (h : args.Accepted) :
    t.render args = (segments.mapM (Segment.render args)).map fun parts =>
      ⟨String.ofList parts.flatten, t.kind⟩ := by
  rw [render, renderText, Arguments.check_eq_ok_iff.mpr h, hs]
  change (fun query => CompiledQuery.mk query t.kind) <$> (segments.mapM (Segment.render args) >>=
    fun parts => pure (String.ofList parts.flatten)) = _
  cases segments.mapM (Segment.render args) <;> rfl

/-- The template refers to an argument. -/
def RefersTo (t : PreparedTemplate) (key : String) : Prop :=
  ∃ segments, split t.text.toList = .ok segments ∧ ∃ seg ∈ segments, seg.RefersTo key

/-- The references of a template with these segments are those that rendering finds in them. -/
theorem refersTo_iff (hs : split t.text.toList = .ok segments) {key : String} :
    t.RefersTo key ↔ key ∈ segments.flatMap Segment.references := by
  simp only [List.mem_flatMap, Segment.mem_references_iff]
  constructor
  · rintro ⟨segments', hs', hkey⟩
    obtain rfl : segments = segments' := Except.ok.inj (hs.symm.trans hs')
    exact hkey
  · exact fun hkey => ⟨segments, hs, hkey⟩

/-- Rendering depends only on what a template refers to. Arguments that can all be put into a query and agree
on the references, each absent in both or with one value (zeros of different signs are two), give the same
query, or the same error. Where none of the references is supplied the query is the template. -/
theorem render_reads_references (hs : split t.text.toList = .ok segments) :
    (∀ args args' : Arguments, args.Accepted → args'.Accepted →
      (∀ key, t.RefersTo key → args.get? key = args'.get? key) → t.render args = t.render args') ∧
    ∀ args : Arguments, args.Accepted → (∀ key, t.RefersTo key → args.get? key = none) →
      t.render args = .ok ⟨t.text, t.kind⟩ := by
  have hrefers {seg : Segment} (hseg : seg ∈ segments) {key : String} (hkey : key ∈ seg.references) :
      t.RefersTo key := (refersTo_iff hs).mpr (List.mem_flatMap.mpr ⟨seg, hseg, hkey⟩)
  constructor
  · intro args args' hargs hargs' hagree
    rw [render_of_accepted hs hargs, render_of_accepted hs hargs']
    refine congrArg _ (mapM_congr fun seg hseg => ?_)
    exact Segment.render_congr fun key hkey => hagree key (hrefers hseg hkey)
  · intro args hargs hnone
    have hsegments : segments.mapM (Segment.render args) = .ok (segments.map Segment.source) := by
      rw [mapM_eq_ok_iff, List.forall₂_map_right_iff, List.forall₂_same]
      exact fun seg hseg => Segment.render_eq_source fun key hkey => hnone key (hrefers hseg hkey)
    rw [render_of_accepted hs hargs, hsegments]
    change Except.ok (CompiledQuery.mk (String.ofList (segments.map Segment.source).flatten) t.kind) = _
    have htext : t.text.toList = (segments.map Segment.source).flatten :=
      (Segment.linked_of_split hs).1.trans List.flatMap_def
    rw [← htext, String.ofList_toList]

/-- A template with three references, and two placeholders that are none. -/
def referring : PreparedTemplate :=
  ⟨"SELECT '$args.a', $args.idx, '%$source.b%', \"$args.c\" -- $args.d", .read⟩

/-- Arguments under a shorter name, in a quoted identifier and in a comment make no difference, and leave the
template what it is. -/
theorem render_reads_references_unread :
    referring.render (.ofList [("a", .int 1), ("b", .text "x"), ("c", .int 2), ("d", .null)]) =
        referring.render (.ofList [("a", .int 1), ("b", .text "x"), ("id", .text "'")]) ∧
      referring.render (.ofList [("c", .int 2), ("d", .null), ("id", .text "'")]) =
        .ok ⟨referring.text, .read⟩ := by
  have hs : split referring.text.toList = .ok
      [.bare "SELECT ".toList, .literal "$args.a".toList, .bare ", $args.idx, ".toList,
        .literal "%$source.b%".toList, .bare ", ".toList, .verbatim "\"$args.c\"".toList,
        .bare " ".toList, .verbatim "-- $args.d".toList] := rfl
  have hrefers {key : String} (h : referring.RefersTo key) : key = "a" ∨ key = "idx" ∨ key = "b" := by
    have hkey := (refersTo_iff hs).mp h
    change key ∈ ["a", "idx", "b"] at hkey
    simpa using hkey
  have hchecked := @Arguments.check_eq_ok_iff
  refine ⟨(render_reads_references hs).1 _ _ (hchecked.mp rfl) (hchecked.mp rfl) fun key hkey => ?_,
    (render_reads_references hs).2 _ (hchecked.mp rfl) fun key hkey => ?_⟩
  · rcases hrefers hkey with rfl | rfl | rfl <;> rfl
  · rcases hrefers hkey with rfl | rfl | rfl <;> rfl

end PreparedTemplate

end SchemaQuery
