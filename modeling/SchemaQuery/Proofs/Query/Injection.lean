import SchemaQuery.Proofs.Query.Rendering

/-!
What arguments can do to a query. Strings can do nothing outside the literals of the query: it has the
comments and quoted identifiers of its template, and its bare text is that of the template without the
placeholders that were filled. Other values stand in bare text themselves, and one thing can go wrong
with them: a value with a minus sign in front, put in behind a minus sign of the template, begins a
comment that swallows the rest of the line.
-/

namespace SchemaQuery

open Text Segment
open Fragment (MinusMeetsMinus)

/-! ### Comments and quoted identifiers stay -/

@[simp] theorem Fragment.verbatim?_shown (v : List Char) : (shown v).filterMap Mark.verbatim? = [] := by
  unfold shown
  split
  · rfl
  · exact Mark.filterMap_verbatim?_bare v

theorem Fragment.verbatim?_ofPiece (args : Arguments) (piece : Piece Placeholder) :
    (outline (ofPiece args piece)).filterMap Mark.verbatim? = [] := by
  cases piece with
  | plain c => rfl
  | found p t =>
    rw [ofPiece]
    split
    · simp [marks, outline]
    · rw [outline_copied, Mark.filterMap_verbatim?_bare]

/-- A segment is meant to leave the comments and quoted identifiers that it is. -/
theorem Segment.verbatim?_fragments (args : Arguments) (seg : Segment) :
    (Fragment.outline (seg.fragments args)).filterMap Mark.verbatim? =
      seg.marks.filterMap Mark.verbatim? := by
  cases seg with
  | verbatim t => rfl
  | bare t =>
    rw [marks, Mark.filterMap_verbatim?_bare, fragments]
    induction pieces Placeholder.find t with
    | nil => rfl
    | cons piece ps ih =>
      rw [List.flatMap_cons, Fragment.outline_append, List.filterMap_append, ih,
        Fragment.verbatim?_ofPiece, List.append_nil]
  | literal body =>
    rw [fragments]
    split
    · simp [Fragment.outline, Fragment.marks, marks]
    · split <;> rfl

theorem Segment.verbatim?_outline_fragments (args : Arguments) (segments : List Segment) :
    (Fragment.outline (segments.flatMap (fragments args))).filterMap Mark.verbatim? =
      verbatims segments := by
  rw [verbatims_eq_outline]
  induction segments with
  | nil => rfl
  | cons seg segments ih =>
    rw [List.flatMap_cons, Fragment.outline_append, List.filterMap_append, ih, outline_cons,
      List.filterMap_append, verbatim?_fragments]

/-- Where no value with a minus sign in front stands right behind a minus sign, the query has the comments and
quoted identifiers of the template, and outside its literals what its fragments show. -/
theorem PreparedTemplate.exists_found {t : PreparedTemplate} {args : Arguments} {q : CompiledQuery}
    {segments : List Segment} (hs : split t.text.toList = .ok segments) (hq : t.render args = .ok q)
    (hm : ¬ MinusMeetsMinus (segments.flatMap (fragments args))) :
    ∃ found, split q.query.toList = .ok found ∧ verbatims found = verbatims segments ∧
      outline found = Fragment.outline (segments.flatMap (fragments args)) := by
  obtain ⟨htexts, hfit⟩ := fragments_of_render hs hq
  rw [← Fragment.outlineOf_texts_iff hfit, ← htexts, outlineOf_eq_ok_iff] at hm
  obtain ⟨found, hfound, ho⟩ := hm
  refine ⟨found, hfound, ?_, ho⟩
  rw [verbatims_eq_outline, ho, verbatim?_outline_fragments]

/-- The query has the comments and quoted identifiers of the template, and outside its literals nothing
but the template's text and the values put in there, exactly if nowhere a value with a minus sign in
front stands right behind a minus sign. The comments alone do not tell: one that minus signs begin can
by accident read like one that its quotes have done away with. -/
theorem PreparedTemplate.verbatims_render_iff {t : PreparedTemplate} {args : Arguments}
    {q : CompiledQuery} {segments : List Segment} (hs : split t.text.toList = .ok segments)
    (hq : t.render args = .ok q) :
    (∃ found, split q.query.toList = .ok found ∧ verbatims found = verbatims segments ∧
        outline found = Fragment.outline (segments.flatMap (fragments args))) ↔
      ¬ MinusMeetsMinus (segments.flatMap (fragments args)) := by
  refine ⟨?_, exists_found hs hq⟩
  rintro ⟨found, hfound, -, ho⟩
  obtain ⟨htexts, hfit⟩ := fragments_of_render hs hq
  rw [← Fragment.outlineOf_texts_iff hfit, ← htexts, outlineOf_eq_ok_iff]
  exact ⟨found, hfound, ho⟩

/-- A negative number behind a minus sign begins a comment. Here it does away with the first quote of a
literal that goes on in the next line. -/
theorem PreparedTemplate.verbatims_render_two_minus :
    ¬ ∃ found, split "SELECT 1 --1 || 'a\nb'".toList = .ok found ∧ verbatims found = [] ∧
      outline found = "SELECT 1 --1 || ".toList.map .bare :=
  (@verbatims_render_iff ⟨"SELECT 1 -$args.n || 'a\nb'", .read⟩ (.ofList [("n", .int (-1))])
    ⟨"SELECT 1 --1 || 'a\nb'", .read⟩
    [.bare "SELECT 1 -$args.n || ".toList, .literal "a\nb".toList] rfl rfl).not.mpr
    (not_not.mpr ⟨("SELECT 1 ".toList).map .copied, _, rfl, "$args.n".toList, ['1'], _, rfl⟩)

/-- So a query need not have segments, although its template has. -/
theorem PreparedTemplate.render_loses_quote :
    ∃ (t : PreparedTemplate) (args : Arguments) (q : CompiledQuery) (segments : List Segment),
      split t.text.toList = .ok segments ∧ t.render args = .ok q ∧
        split q.query.toList = .error .literal :=
  ⟨⟨"SELECT 1 -$args.n || 'a\nb'", .read⟩, .ofList [("n", .int (-1))],
    ⟨"SELECT 1 --1 || 'a\nb'", .read⟩, _, rfl, rfl, rfl⟩

/-- Where minus signs meet first, the query has a comment that the template has not. -/
theorem PreparedTemplate.comment_of_minusMeetsMinus {t : PreparedTemplate} {args : Arguments}
    {q : CompiledQuery} {segments found : List Segment} (hs : split t.text.toList = .ok segments)
    (hq : t.render args = .ok q) (hm : MinusMeetsMinus (segments.flatMap (fragments args)))
    (hfound : split q.query.toList = .ok found) :
    ∃ before body behind after, outline found = before ++ .verbatim ('-' :: '-' :: body) :: behind ∧
      Fragment.outline (segments.flatMap (fragments args)) = before ++ .bare '-' :: after := by
  obtain ⟨htexts, hfit⟩ := fragments_of_render hs hq
  refine Fragment.comment_of_minusMeetsMinus hfit hm ?_
  rw [← htexts]
  exact outlineOf_eq_ok_iff.mpr ⟨found, hfound, rfl⟩

/-! ### Without negative numbers -/

/-- No argument is a negative number. -/
def Arguments.Nonnegative (args : Arguments) : Prop := ∀ entry ∈ args.entries, ¬ entry.2.IsNegative

/-- Then no minus sign is put in behind another. -/
theorem Arguments.Nonnegative.not_minusMeetsMinus {args : Arguments} (h : args.Nonnegative)
    (segments : List Segment) : ¬ MinusMeetsMinus (segments.flatMap (fragments args)) := by
  rintro ⟨before, after, hfs, source, rest, behind, rfl⟩
  have hmem : .value source ('-' :: rest) ∈ segments.flatMap (fragments args) := by simp [hfs]
  obtain ⟨seg, -, hmem⟩ := List.mem_flatMap.mp hmem
  obtain ⟨key, hliteral⟩ := literalText?_of_mem_fragments hmem
  obtain ⟨v, hv, ht⟩ := args.exists_literal_eq_ok hliteral
  exact h (key, v) (mem_of_valueOf? hv) (Value.isNegative_of_literal ht)

/-- So the comments and quoted identifiers of the query are those of the template. -/
theorem PreparedTemplate.verbatims_render_of_nonnegative {t : PreparedTemplate} {args : Arguments}
    {q : CompiledQuery} {segments : List Segment} (h : args.Nonnegative)
    (hs : split t.text.toList = .ok segments) (hq : t.render args = .ok q) :
    ∃ found, split q.query.toList = .ok found ∧ verbatims found = verbatims segments := by
  obtain ⟨found, hfound, hverbatims, -⟩ := exists_found hs hq (h.not_minusMeetsMinus segments)
  exact ⟨found, hfound, hverbatims⟩

/-! ### Strings stay in their literals -/

/-- Every argument is a string. -/
def Arguments.AllText (args : Arguments) : Prop := ∀ entry ∈ args.entries, ∃ s, entry.2 = .text s

/-- A piece of bare text, deleted if it is a placeholder that has an argument. -/
def Arguments.unfilled (args : Arguments) : Piece Placeholder → List Char
  | .plain c => [c]
  | .found p t => if args.contains p.key then [] else t

/-- A segment with the placeholders that have an argument deleted from its bare text. -/
def Segment.strip (args : Arguments) : Segment → Segment
  | .bare t => .bare ((pieces Placeholder.find t).flatMap args.unfilled)
  | seg => seg

section AllText

variable {args : Arguments}

theorem Arguments.AllText.get? (h : args.AllText) {key : String} {v : Value}
    (hv : args.get? key = some v) : ∃ s, v = .text s :=
  h (key, v) (mem_of_valueOf? hv)

/-- The literal of a string begins with a quote, so it shows nothing. -/
theorem Arguments.AllText.head?_literalText (h : args.AllText) {key : String} {t : List Char}
    (ht : args.literalText? key = some t) : t.head? = some '\'' := by
  obtain ⟨v, hv, ht⟩ := args.exists_literal_eq_ok ht
  obtain ⟨s, rfl⟩ := h.get? hv
  cases ht
  rfl

theorem Arguments.AllText.literalText?_isSome (h : args.AllText) (key : String) :
    (args.literalText? key).isSome = args.contains key := by
  rw [literalText?, Dictionary.contains]
  cases hv : args.get? key with
  | none => rfl
  | some v =>
    obtain ⟨s, rfl⟩ := h.get? hv
    rfl

theorem Arguments.AllText.check (h : args.AllText) : args.check = .ok () := by
  refine forM_eq_ok_iff.mpr fun ⟨key, v⟩ hm => ?_
  obtain ⟨s, hs⟩ := h (key, v) hm
  obtain rfl : v = .text s := hs
  rfl

theorem Arguments.AllText.exists_render (h : args.AllText) (seg : Segment) :
    ∃ out, seg.render args = .ok out := by
  have hliteral : ∀ key e, args.literal? key = some e → ∃ t, e = .ok t :=
    fun key e he => Arguments.literal?_of_check h.check he
  have hembedded : ∀ key e, args.embedded? key = some e → ∃ t, e = .ok t := by
    intro key e he
    obtain ⟨v, hv, rfl⟩ := Option.map_eq_some_iff.mp he
    obtain ⟨s, rfl⟩ := h.get? hv
    exact ⟨_, rfl⟩
  cases seg with
  | verbatim t => exact ⟨t, rfl⟩
  | bare t => exact Placeholder.exists_replace_eq_ok hliteral t
  | literal body =>
    rw [render]
    split
    · next e he =>
      obtain ⟨p, -, he⟩ := Option.bind_eq_some_iff.mp he
      exact hliteral p.key e he
    · obtain ⟨inner, hinner⟩ := Placeholder.exists_replace_eq_ok hembedded body
      exact ⟨_, map_eq_ok_iff.mpr ⟨inner, hinner, rfl⟩⟩

theorem Arguments.AllText.exists_query (h : args.AllText) {t : PreparedTemplate}
    {segments : List Segment} (hs : split t.text.toList = .ok segments) :
    ∃ q, t.render args = .ok q := by
  obtain ⟨parts, hparts⟩ := exists_forall₂ h.exists_render segments
  exact ⟨_, PreparedTemplate.render_eq_ok_iff.mpr ⟨h.check, segments, parts, hs, hparts, rfl⟩⟩

theorem Arguments.AllText.nonnegative (h : args.AllText) : args.Nonnegative := by
  intro entry hentry hneg
  obtain ⟨s, hs⟩ := h entry hentry
  rw [hs] at hneg
  exact hneg

/-- Strings leave nothing where they are put in. -/
theorem Arguments.AllText.outline_fragments (h : args.AllText) (seg : Segment) :
    Fragment.outline (seg.fragments args) = (seg.strip args).marks := by
  have hvalue {key : String} {source v : List Char} (hv : args.literalText? key = some v) :
      Fragment.outline [.value source v] = [] := by
    simp [Fragment.outline, Fragment.marks, Fragment.shown, h.head?_literalText hv]
  cases seg with
  | verbatim t => rfl
  | literal body =>
    rw [fragments]
    split
    · next v hv =>
      obtain ⟨p, -, hv⟩ := Option.bind_eq_some_iff.mp hv
      exact hvalue hv
    · split <;> rfl
  | bare t =>
    have hpiece (piece : Piece Placeholder) :
        Fragment.outline (Fragment.ofPiece args piece) = (args.unfilled piece).map .bare := by
      cases piece with
      | plain c => rfl
      | found p t =>
        rw [Fragment.ofPiece, unfilled, ← h.literalText?_isSome]
        cases hv : args.literalText? p.key with
        | some v => exact hvalue hv
        | none => exact Fragment.outline_copied t
    rw [fragments, strip, marks, List.map_flatMap, Fragment.outline, List.flatMap_assoc]
    congr 1
    funext piece
    exact hpiece piece

/-- What strings leave of segments is the segments without the placeholders that were filled. -/
theorem Arguments.AllText.outline_flatMap_fragments (h : args.AllText) (segments : List Segment) :
    Fragment.outline (segments.flatMap (fragments args)) = outline (segments.map (strip args)) := by
  rw [Fragment.outline, List.flatMap_assoc, outline, List.flatMap_map]
  congr 1
  funext seg
  exact h.outline_fragments seg

/-- With strings for arguments, the query leaves what the template leaves without the placeholders that
were filled. -/
theorem Arguments.AllText.exists_outline (h : args.AllText) {t : PreparedTemplate}
    {segments : List Segment} (hs : split t.text.toList = .ok segments) :
    ∃ q found, t.render args = .ok q ∧ split q.query.toList = .ok found ∧
      verbatims found = verbatims segments ∧
      outline found = outline (segments.map (strip args)) := by
  obtain ⟨q, hq⟩ := h.exists_query hs
  obtain ⟨found, hfound, hverbatims, ho⟩ :=
    PreparedTemplate.exists_found hs hq (h.nonnegative.not_minusMeetsMinus segments)
  exact ⟨q, found, hq, hfound, hverbatims, ho.trans (h.outline_flatMap_fragments segments)⟩

end AllText

/-- What is deleted depends on the names of the arguments alone. -/
theorem Segment.strip_congr {args args' : Arguments} (h : args'.keys = args.keys) :
    strip args' = strip args := by
  have hcontains (key : String) : args'.contains key = args.contains key := by
    rw [Bool.eq_iff_iff, Dictionary.contains, Dictionary.contains]
    exact valueOf?_isSome_iff.trans ((iff_of_eq (congrArg (key ∈ ·) h)).trans
      valueOf?_isSome_iff.symm)
  have hunfilled : args'.unfilled = args.unfilled := by
    funext piece
    cases piece with
    | plain c => rfl
    | found p t => rw [Arguments.unfilled, Arguments.unfilled, hcontains]
  funext seg
  cases seg with
  | bare t => rw [strip, strip, hunfilled]
  | verbatim t => rfl
  | literal b => rfl

/-- Strings never leave their literals: a template with segments is rendered, the query has segments,
its comments and quoted identifiers are those of the template, its bare text is that of the template
without the placeholders that were filled, and other strings under the same names change nothing outside
the literals. -/
theorem PreparedTemplate.strings_stay_in_literals {t : PreparedTemplate} {segments : List Segment}
    {args : Arguments} (hs : split t.text.toList = .ok segments) (hargs : args.AllText) :
    ∃ q found, t.render args = .ok q ∧ split q.query.toList = .ok found ∧
      verbatims found = verbatims segments ∧
      bareText found = bareText (segments.map (strip args)) ∧
      ∀ args' : Arguments, args'.AllText → args'.keys = args.keys →
        ∃ q' found', t.render args' = .ok q' ∧ split q'.query.toList = .ok found' ∧
          outline found' = outline found := by
  obtain ⟨q, found, hq, hfound, hverbatims, ho⟩ := hargs.exists_outline hs
  refine ⟨q, found, hq, hfound, hverbatims, ?_, fun args' hargs' hkeys => ?_⟩
  · rw [bareText_eq_outline, ho, ← bareText_eq_outline]
  · obtain ⟨q', found', hq', hfound', -, ho'⟩ := hargs'.exists_outline hs
    exact ⟨q', found', hq', hfound', by rw [ho', ho, strip_congr hkeys]⟩

/-- A string of quotes, comment openings and more quotes stays in its literals. -/
theorem PreparedTemplate.quotes_stay_in_literals :
    ∃ q found,
      render ⟨"SELECT 'a'$args.a, '$args.b' -- $args.a", .read⟩
          (.ofList [("a", .text "'; --"), ("b", .text "''")]) = .ok q ∧
        split q.query.toList = .ok found ∧ verbatims found = ["-- $args.a".toList] ∧
        bareText found = "SELECT ,  ".toList := by
  have htext : Arguments.AllText (.ofList [("a", .text "'; --"), ("b", .text "''")]) := by
    rintro entry (_ | ⟨_, _ | ⟨_, ⟨⟩⟩⟩)
    · exact ⟨_, rfl⟩
    · exact ⟨_, rfl⟩
  obtain ⟨q, found, hq, hfound, hverbatims, hbare, -⟩ :=
    @strings_stay_in_literals ⟨"SELECT 'a'$args.a, '$args.b' -- $args.a", .read⟩
      [.bare "SELECT ".toList, .literal "a".toList, .bare "$args.a, ".toList,
        .literal "$args.b".toList, .bare " ".toList, .verbatim "-- $args.a".toList] _ rfl htext
  exact ⟨q, found, hq, hfound, hverbatims, hbare⟩

end SchemaQuery
