import SchemaQuery.Proofs.Query.Fragment
import SchemaQuery.Proofs.Query.Placeholder

/-!
The fragments of a rendered template. Rendering gives the texts of the fragments, the template is their
sources, and every fragment fits in front of those behind it, because a template that has segments
follows from them. Two things are used of the arguments: what is put in outside literals is the literal
of a value, and what is put in inside a literal has its quotes doubled like everything around it.
-/

namespace SchemaQuery

open Text Segment
open Value (escape quote IsLiteral)

/-! ### The texts of arguments -/

/-- The literal of the argument `key`, if there is such an argument and its value has one. -/
def Arguments.literalText? (args : Arguments) (key : String) : Option (List Char) :=
  (args.get? key).bind fun value => (value.literal key).toOption

theorem Arguments.exists_literal_eq_ok {args : Arguments} {key : String} {t : List Char}
    (h : args.literalText? key = some t) : ∃ v, args.get? key = some v ∧ v.literal key = .ok t := by
  obtain ⟨v, hv, ht⟩ := Option.bind_eq_some_iff.mp h
  refine ⟨v, hv, ?_⟩
  cases hl : v.literal key with
  | error e => rw [hl] at ht; cases ht
  | ok u => rw [hl] at ht; exact congrArg Except.ok (Option.some.inj ht)

/-- The text of a value before its quotes are doubled: the string itself, or else its literal. -/
def Value.raw? (key : String) : Value → Option (List Char)
  | .null => none
  | .text s => some s.toList
  | v => (v.literal key).toOption

/-- The text of the argument `key` before its quotes are doubled. -/
def Arguments.rawText? (args : Arguments) (key : String) : Option (List Char) :=
  (args.get? key).bind fun value => value.raw? key

/-- The text with the arguments put in as they are. -/
def Placeholder.filled (args : Arguments) (s : List Char) : List Char :=
  (pieces Placeholder.find s).flatMap fun
    | .plain c => [c]
    | .found p t => (args.rawText? p.key).getD t

/-- A value that is neither null nor a string stands inside a literal as it does outside. -/
theorem Value.null_or_text_or_same (key : String) (v : Value) :
    v = .null ∨ (∃ s, v = .text s) ∨ (∀ s, v ≠ .text s) ∧
      v.embedded key = v.literal key ∧ v.raw? key = (v.literal key).toOption := by
  cases v <;> simp [embedded, raw?]

/-- What is put in inside a literal is doubled raw text. -/
theorem Value.embedded_eq_ok {key : String} {v : Value} {t : List Char}
    (h : v.embedded key = .ok t) : ∃ raw, v.raw? key = some raw ∧ t = escape raw := by
  rcases v.null_or_text_or_same key with rfl | ⟨s, rfl⟩ | ⟨htext, hembedded, hraw⟩
  · cases h
  · cases h; exact ⟨s.toList, rfl, rfl⟩
  · rw [hembedded] at h
    refine ⟨t, by rw [hraw, h]; rfl, ?_⟩
    cases isLiteral_of_literal h with
    | text s => exact absurd rfl (htext s)
    | unquoted ht => rw [Value.escape_eq_self ht.quote_notMem]

theorem Arguments.literal?_of_check {args : Arguments} (h : args.check = .ok ()) {key : String}
    {e : Except Error (List Char)} (he : args.literal? key = some e) : ∃ t, e = .ok t := by
  obtain ⟨v, hv, rfl⟩ := Option.map_eq_some_iff.mp he
  have hmem := forM_eq_ok_iff.mp h (key, v) (mem_of_valueOf? hv)
  obtain ⟨t, ht, -⟩ := map_eq_ok_iff.mp hmem
  exact ⟨t, ht⟩

/-! ### The fragments of a template -/

/-- The fragments of a piece of bare text. -/
def Fragment.ofPiece (args : Arguments) : Piece Placeholder → List Fragment
  | .plain c => [.copied c]
  | .found p t =>
    match args.literalText? p.key with
    | some v => [.value t v]
    | none => t.map .copied

/-- The fragments of a segment. -/
def Segment.fragments (args : Arguments) : Segment → List Fragment
  | .bare t => (pieces Placeholder.find t).flatMap (Fragment.ofPiece args)
  | .verbatim t => [.verbatim t]
  | .literal body =>
    match (Placeholder.whole? body).bind fun p => args.literalText? p.key with
    | some v => [.value ('\'' :: body ++ ['\'']) v]
    | none =>
      match Placeholder.replace args.embedded? body with
      | .ok inner => [.literal body inner]
      | .error _ => []

namespace Fragment

variable {args : Arguments}

@[simp] theorem sources_ofPiece (args : Arguments) (piece : Piece Placeholder) :
    sources (ofPiece args piece) = piece.text := by
  cases piece with
  | plain c => rfl
  | found p t =>
    rw [ofPiece]
    split
    · exact List.append_nil t
    · exact sources_copied t

/-- The fragments of pieces are the pieces in the template. -/
theorem sources_pieces (args : Arguments) (ps : List (Piece Placeholder)) :
    sources (ps.flatMap (ofPiece args)) = ps.flatMap Piece.text := by
  rw [sources, List.flatMap_assoc]
  congr 1
  funext piece
  exact sources_ofPiece args piece

theorem isValue_of_literalText? {key : String} {v : List Char}
    (h : args.literalText? key = some v) : IsValue v := by
  obtain ⟨value, -, hl⟩ := args.exists_literal_eq_ok h
  cases Value.isLiteral_of_literal hl with
  | text s => exact .quoted _
  | unquoted ht => exact .unquoted ht

/-- Copied characters fit that are a bare run of the template. -/
theorem fit_copied {t : List Char} {fs : List Fragment} (ht : IsBareRun t (sources fs))
    (hfs : Fit fs) : Fit (t.map .copied ++ fs) := by
  induction t with
  | nil => exact hfs
  | cons c t ih =>
    refine ⟨?_, ih ht.2⟩
    change IsPlain c (sources (t.map .copied ++ fs)).head?
    rw [sources_append, sources_copied]
    exact ht.1

/-- The pieces of a bare run fit. -/
theorem fit_pieces {ps : List (Piece Placeholder)} {fs : List Fragment}
    (hps : ∀ p t, .found p t ∈ ps → t.head? = some '$')
    (hrun : IsBareRun (ps.flatMap Piece.text) (sources fs)) (hfs : Fit fs) :
    Fit (ps.flatMap (ofPiece args) ++ fs) := by
  induction ps with
  | nil => exact hfs
  | cons piece ps ih =>
    rw [List.flatMap_cons, isBareRun_append] at hrun
    have ih := ih (fun p t hm => hps p t (List.mem_cons_of_mem _ hm)) hrun.2
    have hsources : sources (ps.flatMap (ofPiece args) ++ fs) =
        ps.flatMap Piece.text ++ sources fs := by rw [sources_append, sources_pieces]
    rw [List.flatMap_cons, List.append_assoc]
    cases piece with
    | plain c => exact fit_copied (t := [c]) (by rw [hsources]; exact hrun.1) ih
    | found p t =>
      rw [ofPiece]
      split
      · next v hv => exact ⟨⟨.inl (hps p t (by simp)), isValue_of_literalText? hv⟩, ih⟩
      · exact fit_copied (by rw [hsources]; exact hrun.1) ih

end Fragment

/-! ### What placeholders are replaced by -/

/-- What becomes of a piece when placeholders are replaced. -/
def Placeholder.put (f : String → Option (Except Error (List Char))) :
    Piece Placeholder → Except Error (List Char)
  | .plain c => .ok [c]
  | .found p t => (f p.key).getD (.ok t)

/-- Replacing is a walk over the pieces. -/
theorem Placeholder.replace_eq (f : String → Option (Except Error (List Char))) (s : List Char) :
    replace f s = ((pieces find s).mapM (put f)).map List.flatten := by
  rw [replace]
  congr 2

/-- Replacing goes piece by piece. -/
theorem Placeholder.replace_eq_ok_iff {f : String → Option (Except Error (List Char))}
    {s out : List Char} :
    replace f s = .ok out ↔ ∃ parts : List (List Char),
      List.Forall₂ (fun piece part => put f piece = .ok part) (pieces find s) parts ∧
        parts.flatten = out := by
  rw [replace_eq, map_eq_ok_iff]
  simp only [mapM_eq_ok_iff]

theorem Placeholder.exists_replace_eq_ok {f : String → Option (Except Error (List Char))}
    (hf : ∀ key e, f key = some e → ∃ t, e = .ok t) (s : List Char) :
    ∃ out, replace f s = .ok out := by
  have hpiece (piece : Piece Placeholder) : ∃ part, put f piece = .ok part := by
    cases piece with
    | plain c => exact ⟨[c], rfl⟩
    | found p t =>
      rw [put]
      cases he : f p.key with
      | none => exact ⟨t, rfl⟩
      | some e => exact hf p.key e he
  obtain ⟨parts, hparts⟩ := exists_forall₂ hpiece (pieces find s)
  exact ⟨_, replace_eq_ok_iff.mpr ⟨parts, hparts, rfl⟩⟩

theorem Fragment.texts_ofPiece {args : Arguments} {piece : Piece Placeholder} {out : List Char}
    (h : Placeholder.put args.literal? piece = .ok out) : texts (ofPiece args piece) = out := by
  cases piece with
  | plain c => cases h; rfl
  | found p t =>
    rw [Placeholder.put, Arguments.literal?] at h
    rw [ofPiece, Arguments.literalText?]
    cases hv : args.get? p.key with
    | none =>
      rw [hv] at h
      cases h
      exact texts_copied out
    | some v =>
      rw [hv] at h
      change v.literal p.key = .ok out at h
      rw [Option.bind_some, h]
      exact List.append_nil out

theorem Fragment.texts_pieces {args : Arguments} {ps : List (Piece Placeholder)}
    {parts : List (List Char)}
    (h : List.Forall₂ (fun piece part => Placeholder.put args.literal? piece = .ok part) ps parts) :
    texts (ps.flatMap (ofPiece args)) = parts.flatten := by
  induction h with
  | nil => rfl
  | cons hpiece _ ih =>
    rw [List.flatMap_cons, texts_append, texts_ofPiece hpiece, ih, List.flatten_cons]

/-- Inside literals a placeholder becomes doubled text, or stays what it is. -/
theorem Placeholder.put_embedded?_found {args : Arguments} {p : Placeholder} {t out : List Char}
    (ht : '\'' ∉ t) (h : put args.embedded? (.found p t) = .ok out) :
    out = escape ((args.rawText? p.key).getD t) := by
  rw [put, Arguments.embedded?] at h
  rw [Arguments.rawText?]
  cases hv : args.get? p.key with
  | none =>
    rw [hv] at h
    cases h
    exact (Value.escape_eq_self ht).symm
  | some v =>
    rw [hv] at h
    obtain ⟨raw, hraw, rfl⟩ := Value.embedded_eq_ok h
    rw [Option.bind_some, hraw, Option.getD_some]

/-- Inside a literal, putting in doubles the quotes of what is put in. -/
theorem Placeholder.replace_embedded?_escape {args : Arguments} {s out : List Char}
    (h : replace args.embedded? (escape s) = .ok out) : out = escape (filled args s) := by
  obtain ⟨parts, hparts, rfl⟩ := replace_eq_ok_iff.mp h
  rw [pieces_escape] at hparts
  rw [filled]
  have hquote : ∀ p t, .found p t ∈ pieces find s → '\'' ∉ t := by
    rintro p t hm
    obtain ⟨rfl, hword⟩ := text_of_mem_pieces hm
    simpa using quote_notMem_tail hword
  clear h
  generalize pieces find s = ps at hparts hquote
  induction ps generalizing parts with
  | nil => cases hparts; rfl
  | cons piece ps ih =>
    have hquote' := fun p t hm => hquote p t (List.mem_cons_of_mem _ hm)
    rw [List.flatMap_cons] at hparts ⊢
    rw [Value.escape_append]
    cases piece with
    | plain c =>
      by_cases hc : c = '\''
      · rw [doubled, if_pos hc] at hparts
        rcases hparts with _ | ⟨h₁, _ | ⟨h₂, hrest⟩⟩
        cases h₁
        cases h₂
        simp [ih _ hrest hquote', escape, hc]
      · rw [doubled, if_neg hc] at hparts
        rcases hparts with _ | ⟨h₁, hrest⟩
        cases h₁
        simp [ih _ hrest hquote', escape, hc]
    | found p t =>
      rcases hparts with _ | ⟨h₁, hrest⟩
      rw [List.flatten_cons, ih _ hrest hquote', put_embedded?_found (hquote p t (by simp)) h₁]

namespace Segment

variable {args : Arguments}

/-! ### What segments become -/

theorem literalText?_of_mem_fragments {seg : Segment} {source v : List Char}
    (h : .value source v ∈ seg.fragments args) : ∃ key, args.literalText? key = some v := by
  cases seg with
  | verbatim t => simp [fragments] at h
  | bare t =>
    obtain ⟨piece, -, h⟩ := List.mem_flatMap.mp h
    cases piece with
    | plain c => simp [Fragment.ofPiece] at h
    | found p t =>
      rw [Fragment.ofPiece] at h
      split at h
      · next u hu =>
        obtain ⟨-, rfl⟩ := by simpa using h
        exact ⟨p.key, hu⟩
      · simp at h
  | literal body =>
    rw [fragments] at h
    split at h
    · next u hu =>
      obtain ⟨p, -, hu⟩ := Option.bind_eq_some_iff.mp hu
      obtain ⟨-, rfl⟩ := by simpa using h
      exact ⟨p.key, hu⟩
    · split at h <;> simp at h

/-- A literal becomes the literal of a value, where it is exactly one placeholder, or else another
literal. -/
theorem fragments_literal {body out : List Char} (h : render args (.literal body) = .ok out) :
    (∃ key, args.literalText? key = some out ∧
      fragments args (.literal body) = [.value ('\'' :: body ++ ['\'']) out]) ∨
    ∃ inner, Placeholder.replace args.embedded? body = .ok inner ∧
      out = '\'' :: inner ++ ['\''] ∧ fragments args (.literal body) = [.literal body inner] := by
  rw [render] at h
  rw [fragments]
  have longer (h : (fun inner => '\'' :: inner ++ ['\'']) <$>
      Placeholder.replace args.embedded? body = .ok out) :
      ∃ inner, Placeholder.replace args.embedded? body = .ok inner ∧ out = '\'' :: inner ++ ['\''] := by
    obtain ⟨inner, hinner, rfl⟩ := map_eq_ok_iff.mp h
    exact ⟨inner, hinner, rfl⟩
  cases hw : Placeholder.whole? body with
  | none =>
    rw [hw] at h
    obtain ⟨inner, hinner, rfl⟩ := longer h
    refine .inr ⟨inner, hinner, rfl, ?_⟩
    rw [Option.bind_none, hinner]
  | some p =>
    rw [hw, Option.bind_some, Arguments.literal?] at h
    rw [Option.bind_some]
    cases hv : args.get? p.key with
    | none =>
      rw [hv] at h
      obtain ⟨inner, hinner, rfl⟩ := longer h
      refine .inr ⟨inner, hinner, rfl, ?_⟩
      rw [Arguments.literalText?, hv, Option.bind_none, hinner]
    | some v =>
      rw [hv] at h
      change v.literal p.key = .ok out at h
      have hout : args.literalText? p.key = some out := by
        rw [Arguments.literalText?, hv, Option.bind_some, h]
        rfl
      exact .inl ⟨p.key, hout, by rw [hout]⟩

/-- A segment becomes the text of its fragments, and they are its source. -/
theorem fragments_of_render {seg : Segment} {out : List Char} (h : seg.render args = .ok out) :
    Fragment.texts (seg.fragments args) = out ∧
      Fragment.sources (seg.fragments args) = seg.source := by
  cases seg with
  | verbatim t => cases h; exact ⟨List.append_nil _, List.append_nil _⟩
  | bare t =>
    obtain ⟨parts, hparts, rfl⟩ := Placeholder.replace_eq_ok_iff.mp h
    exact ⟨Fragment.texts_pieces hparts,
      (Fragment.sources_pieces args _).trans (flatMap_text_pieces _ t)⟩
  | literal body =>
    rcases fragments_literal h with ⟨key, -, hf⟩ | ⟨inner, -, rfl, hf⟩ <;> rw [hf] <;>
      exact ⟨List.append_nil _, List.append_nil _⟩

/-- Segments become the texts of their fragments, and they are the text of the segments. -/
theorem fragments_of_forall₂ {segments : List Segment} {parts : List (List Char)}
    (h : List.Forall₂ (fun seg part => render args seg = .ok part) segments parts) :
    Fragment.texts (segments.flatMap (fragments args)) = parts.flatten ∧
      Fragment.sources (segments.flatMap (fragments args)) = sources segments := by
  induction h with
  | nil => exact ⟨rfl, rfl⟩
  | cons hseg _ ih =>
    obtain ⟨htext, hsource⟩ := fragments_of_render hseg
    simp [htext, hsource, ih.1, ih.2]

/-- The fragments of segments that follow from their text fit. -/
theorem fit_fragments {segments : List Segment} {parts : List (List Char)} (hl : Linked segments)
    (h : List.Forall₂ (fun seg part => render args seg = .ok part) segments parts) :
    Fragment.Fit (segments.flatMap (fragments args)) := by
  induction h with
  | nil => trivial
  | @cons seg part segments parts hseg h ih =>
    have hsources := (fragments_of_forall₂ h).2
    rw [List.flatMap_cons]
    cases seg with
    | bare t =>
      refine Fragment.fit_pieces (fun p t hm => ?_) ?_ (ih hl.2)
      · rw [(Placeholder.text_of_mem_pieces hm).1, List.head?_cons]
      · rw [flatMap_text_pieces, hsources]
        exact hl.1
    | verbatim t =>
      refine ⟨?_, ih hl.2⟩
      change IsRegion t (Fragment.sources (segments.flatMap (fragments args)))
      rw [hsources]
      exact hl.1
    | literal body =>
      rcases fragments_literal hseg with ⟨key, hv, hf⟩ | ⟨inner, hinner, -, hf⟩ <;> rw [hf]
      · exact ⟨⟨.inr rfl, Fragment.isValue_of_literalText? hv⟩, ih hl.2⟩
      · obtain ⟨⟨s, rfl⟩, hl⟩ := hl
        exact ⟨⟨_, Placeholder.replace_embedded?_escape hinner⟩, ih hl⟩

end Segment

namespace PreparedTemplate

/-- A template is rendered exactly if every argument has a literal, every region is closed and every
segment can be rendered. -/
theorem render_eq_ok_iff {t : PreparedTemplate} {args : Arguments} {q : CompiledQuery} :
    t.render args = .ok q ↔ args.check = .ok () ∧ ∃ segments parts,
      split t.text.toList = .ok segments ∧
      List.Forall₂ (fun seg part => Segment.render args seg = .ok part) segments parts ∧
      q = ⟨String.ofList parts.flatten, t.kind⟩ := by
  have hsplit (segments : List Segment) :
      (split t.text.toList).mapError Error.ofRegion = .ok segments ↔
        split t.text.toList = .ok segments := by
    cases split t.text.toList <;> simp [Except.mapError]
  constructor
  · intro h
    obtain ⟨query, hquery, rfl⟩ := map_eq_ok_iff.mp h
    obtain ⟨⟨⟩, hcheck, hquery⟩ := bind_eq_ok_iff.mp hquery
    obtain ⟨segments, hs, hquery⟩ := bind_eq_ok_iff.mp hquery
    obtain ⟨parts, hparts, hquery⟩ := bind_eq_ok_iff.mp hquery
    cases hquery
    exact ⟨hcheck, segments, parts, (hsplit segments).mp hs, mapM_eq_ok_iff.mp hparts, rfl⟩
  · rintro ⟨hcheck, segments, parts, hs, hparts, rfl⟩
    refine map_eq_ok_iff.mpr ⟨_, ?_, rfl⟩
    refine bind_eq_ok_iff.mpr ⟨(), hcheck, ?_⟩
    refine bind_eq_ok_iff.mpr ⟨segments, (hsplit segments).mpr hs, ?_⟩
    exact bind_eq_ok_iff.mpr ⟨parts, mapM_eq_ok_iff.mpr hparts, rfl⟩

/-- The query of a template whose segments are known is the text of their fragments, and these fit. -/
theorem fragments_of_render {t : PreparedTemplate} {args : Arguments} {q : CompiledQuery}
    {segments : List Segment} (hs : split t.text.toList = .ok segments) (h : t.render args = .ok q) :
    q.query.toList = Fragment.texts (segments.flatMap (fragments args)) ∧
      Fragment.Fit (segments.flatMap (fragments args)) := by
  obtain ⟨-, segments', parts, hs', hparts, rfl⟩ := render_eq_ok_iff.mp h
  obtain rfl : segments = segments' := Except.ok.inj (hs.symm.trans hs')
  refine ⟨?_, fit_fragments (linked_of_split hs).2 hparts⟩
  rw [(fragments_of_forall₂ hparts).1, String.toList_ofList]

end PreparedTemplate

end SchemaQuery
