import SchemaQuery.Proofs.Query.Outline

/-!
What the segments of a text are, without the scan that finds them. Each segment is judged by itself and by
the text behind it: a literal or a quoted identifier ends with a quote that is not doubled, a line comment
in front of a newline or at the end, a block comment with the first `*/` behind its opening, and a bare
stretch has nothing in it that opens any of these. A text has at most one such segmentation, the one that
is found, and it has none exactly if, read from the left, a literal, an identifier or a block comment is
opened and never closed.
-/

namespace SchemaQuery

namespace Segment

/-- A text in which a quote stands only in pairs. -/
inductive Paired (quote : Char) : List Char → Prop
  | nil : Paired quote []
  | pair {s : List Char} (hs : Paired quote s) : Paired quote (quote :: quote :: s)
  | char {c : Char} {s : List Char} (hc : c ≠ quote) (hs : Paired quote s) : Paired quote (c :: s)

/-- A stretch in which nothing is opened, not even together with the first character behind it. -/
structure IsBare (t behind : List Char) : Prop where
  no_quote : '\'' ∉ t
  no_doubleQuote : '"' ∉ t
  no_lineComment : ¬ ['-', '-'] <:+: t ++ behind.take 1
  no_blockComment : ¬ ['/', '*'] <:+: t ++ behind.take 1

/-- A quoted identifier up to the quote that closes it. -/
def IsIdentifier (v behind : List Char) : Prop :=
  ∃ name, v = '"' :: name ++ ['"'] ∧ Paired '"' name ∧ behind.head? ≠ some '"'

/-- A line comment up to its newline, or up to the end of the text. -/
def IsLineComment (v behind : List Char) : Prop :=
  ∃ body, v = '-' :: '-' :: body ∧ '\n' ∉ body ∧ (behind = [] ∨ behind.head? = some '\n')

/-- A block comment up to the first `*/` behind its opening. -/
def IsBlockComment (v : List Char) : Prop :=
  ∃ body, v = '/' :: '*' :: body ++ ['*', '/'] ∧ ¬ ['*', '/'] <:+: body

/-- A segment that is whole in front of a text. -/
def IsWhole : Segment → List Char → Prop
  | .bare t, behind => IsBare t behind
  | .verbatim v, behind => IsIdentifier v behind ∨ IsLineComment v behind ∨ IsBlockComment v
  | .literal body, behind => Paired '\'' body ∧ behind.head? ≠ some '\''

/-- Segments that a text is cut into up to a rest of it. -/
structure IsSegmentation (text : List Char) (segments : List Segment) (rest : List Char) : Prop where
  /-- The segments and the rest put together are the text. -/
  lossless : sources segments ++ rest = text
  /-- Only a literal may be empty. -/
  nonempty : .bare [] ∉ segments ∧ .verbatim [] ∉ segments
  /-- No two bare stretches stand side by side. -/
  apart : ∀ before t u after, segments ≠ before ++ .bare t :: .bare u :: after
  /-- Each segment is whole in front of all that comes behind it. -/
  whole : ∀ before seg after, segments = before ++ seg :: after → seg.IsWhole (sources after ++ rest)

/-- A text that opens a region with its first characters and never closes it. -/
def NeverCloses : Region → List Char → Prop
  | .literal, s => ∃ body, s = '\'' :: body ∧ Paired '\'' body
  | .identifier, s => ∃ body, s = '"' :: body ∧ Paired '"' body
  | .comment, s => ∃ body, s = '/' :: '*' :: body ∧ ¬ ['*', '/'] <:+: body

/-! ### Where regions end -/

theorem pair_isInfix_cons {a b c : Char} {s : List Char} :
    [a, b] <:+: c :: s ↔ c = a ∧ s.head? = some b ∨ [a, b] <:+: s := by
  rw [List.infix_cons_iff, List.cons_prefix_cons, eq_comm]
  cases s with
  | nil => simp
  | cons d s => simp [eq_comm]

/-- A quote is doubled throughout a text, or there is a first one that is not. -/
theorem paired_or_closed (quote : Char) (s : List Char) :
    Paired quote s ∨ ∃ body behind, s = body ++ quote :: behind ∧ Paired quote body ∧
      behind.head? ≠ some quote := by
  induction hlen : s.length using Nat.strongRecOn generalizing s with
  | ind k ih =>
    subst hlen
    match s with
    | [] => exact .inl .nil
    | c :: r =>
      by_cases hc : c = quote
      · subst hc
        by_cases hr : r.head? = some c
        · obtain ⟨r, rfl⟩ := List.head?_eq_some_iff.mp hr
          rcases ih r.length (by simp only [List.length_cons]; omega) r rfl with
            h | ⟨body, behind, rfl, hbody, hbehind⟩
          · exact .inl (.pair h)
          · exact .inr ⟨c :: c :: body, behind, rfl, .pair hbody, hbehind⟩
        · exact .inr ⟨[], r, rfl, .nil, hr⟩
      · rcases ih r.length (by simp) r rfl with h | ⟨body, behind, rfl, hbody, hbehind⟩
        · exact .inl (.char hc h)
        · exact .inr ⟨c :: body, behind, rfl, .char hc hbody, hbehind⟩

theorem unclosed_or_closed (s : List Char) :
    ¬ ['*', '/'] <:+: s ∨ ∃ body behind, s = body ++ '*' :: '/' :: behind ∧ ¬ ['*', '/'] <:+: body := by
  induction s with
  | nil => exact .inl (by simp)
  | cons c r ih =>
    by_cases hc : c = '*' ∧ r.head? = some '/'
    · obtain ⟨rfl, hr⟩ := hc
      obtain ⟨r, rfl⟩ := List.head?_eq_some_iff.mp hr
      exact .inr ⟨[], r, rfl, by simp⟩
    · rcases ih with h | ⟨body, behind, rfl, hbody⟩
      · exact .inl (by rw [pair_isInfix_cons]; exact not_or.mpr ⟨hc, h⟩)
      · refine .inr ⟨c :: body, behind, rfl, ?_⟩
        rw [pair_isInfix_cons]
        refine not_or.mpr ⟨fun ⟨hstar, hhead⟩ => hc ⟨hstar, ?_⟩, hbody⟩
        rw [List.head?_append, hhead, Option.some_or]

theorem exists_line (s : List Char) :
    ∃ body behind, s = body ++ behind ∧ '\n' ∉ body ∧ (behind = [] ∨ behind.head? = some '\n') := by
  induction s with
  | nil => exact ⟨[], [], rfl, List.not_mem_nil, .inl rfl⟩
  | cons c r ih =>
    by_cases hc : c = '\n'
    · exact ⟨[], c :: r, rfl, List.not_mem_nil, .inr (by rw [hc, List.head?_cons])⟩
    · obtain ⟨body, behind, rfl, hbody, hbehind⟩ := ih
      refine ⟨c :: body, behind, rfl, ?_, hbehind⟩
      rw [List.mem_cons, not_or]
      exact ⟨Ne.symm hc, hbody⟩

theorem source_literal_append (body behind : List Char) :
    (literal body).source ++ behind = '\'' :: (body ++ '\'' :: behind) := by
  simp [source]

theorem source_identifier_append (name behind : List Char) :
    (verbatim ('"' :: name ++ ['"'])).source ++ behind = '"' :: (name ++ '"' :: behind) := by
  simp [source]

theorem source_blockComment_append (body behind : List Char) :
    (verbatim ('/' :: '*' :: body ++ ['*', '/'])).source ++ behind =
      '/' :: '*' :: (body ++ '*' :: '/' :: behind) := by
  simp [source]

/-- How a text begins: with a character that begins nothing, with a segment that is whole, or with a region
that is never closed. -/
inductive Front : List Char → Prop
  | nil : Front []
  | plain {c : Char} {r : List Char} (hc : IsPlain c r.head?) : Front (c :: r)
  | whole {seg : Segment} {behind : List Char} (hbare : ∀ t, seg ≠ .bare t) (h : seg.IsWhole behind) :
    Front (seg.source ++ behind)
  | unclosed (region : Region) {s : List Char} (h : NeverCloses region s) : Front s

/-- Every text begins in one of these ways. -/
theorem front (s : List Char) : Front s := by
  match s with
  | [] => exact .nil
  | c :: r =>
    by_cases hplain : IsPlain c r.head?
    · exact .plain hplain
    by_cases hquote : c = '\''
    · subst hquote
      rcases paired_or_closed '\'' r with h | ⟨body, behind, rfl, hbody, hbehind⟩
      · exact .unclosed .literal ⟨r, rfl, h⟩
      · rw [← source_literal_append]
        exact .whole (by simp) ⟨hbody, hbehind⟩
    by_cases hdouble : c = '"'
    · subst hdouble
      rcases paired_or_closed '"' r with h | ⟨body, behind, rfl, hbody, hbehind⟩
      · exact .unclosed .identifier ⟨r, rfl, h⟩
      · rw [← source_identifier_append]
        exact .whole (by simp) (.inl ⟨body, rfl, hbody, hbehind⟩)
    by_cases hminus : c = '-' ∧ r.head? = some '-'
    · obtain ⟨rfl, hr⟩ := hminus
      obtain ⟨r, rfl⟩ := List.head?_eq_some_iff.mp hr
      obtain ⟨body, behind, rfl, hbody, hbehind⟩ := exists_line r
      have hwhole : IsWhole (.verbatim ('-' :: '-' :: body)) behind :=
        .inr (.inl ⟨body, rfl, hbody, hbehind⟩)
      exact .whole (by simp) hwhole
    by_cases hslash : c = '/' ∧ r.head? = some '*'
    · obtain ⟨rfl, hr⟩ := hslash
      obtain ⟨r, rfl⟩ := List.head?_eq_some_iff.mp hr
      rcases unclosed_or_closed r with h | ⟨body, behind, rfl, hbody⟩
      · exact .unclosed .comment ⟨r, rfl, h⟩
      · rw [← source_blockComment_append]
        exact .whole (by simp) (.inr (.inr ⟨body, rfl, hbody⟩))
    exact absurd ⟨hquote, hdouble, fun hc hr => hminus ⟨hc, hr⟩, fun hc hr => hslash ⟨hc, hr⟩⟩ hplain

/-! ### Reading on inside a zone -/

/-- A scan that begins in the zone reads all of a text and is still there. -/
def ReadsOn (zone : Zone) (t behind : List Char) : Prop :=
  scan zone (t ++ behind) = (scan zone behind).map fun scanned => (t ++ scanned.1, scanned.2)

theorem readsOn_nil (zone : Zone) (behind : List Char) : ReadsOn zone [] behind := by
  rw [ReadsOn, List.nil_append]
  cases scan zone behind <;> rfl

theorem ReadsOn.cons {zone : Zone} {c : Char} {t behind : List Char} (ht : ReadsOn zone t behind)
    (hc : scan zone (c :: (t ++ behind)) = (scan zone (t ++ behind)).map (extend c)) :
    ReadsOn zone (c :: t) behind := by
  rw [ReadsOn, List.cons_append, hc, ht]
  cases scan zone behind <;> rfl

theorem readsOn_bare {t behind : List Char} (h : IsBareRun t behind) : ReadsOn .bare t behind := by
  induction t with
  | nil => exact readsOn_nil _ _
  | cons c t ih => exact (ih h.2).cons (scan_bare_cons h.1)

/-- Between quotes a text is read as long as its quotes stand in pairs. -/
theorem readsOn_paired {zone : Zone} {quote : Char} {t : List Char}
    (hpair : ∀ r, scan zone (quote :: quote :: r) =
      (scan zone r).map fun s => extend quote (extend quote s))
    (hchar : ∀ c r, c ≠ quote → scan zone (c :: r) = (scan zone r).map (extend c))
    (h : Paired quote t) (behind : List Char) : ReadsOn zone t behind := by
  induction h with
  | nil => exact readsOn_nil _ _
  | @pair s _ ih =>
    rw [ReadsOn, List.cons_append, List.cons_append, hpair, ih]
    cases scan zone behind <;> rfl
  | char hc _ ih => exact ih.cons (hchar _ _ hc)

theorem readsOn_literal {t : List Char} (h : Paired '\'' t) (behind : List Char) :
    ReadsOn .literal t behind :=
  readsOn_paired scan.eq_8 (fun c r hc => scan.eq_10 c r (fun _ hc' _ => hc hc') hc) h behind

theorem readsOn_identifier {t : List Char} (h : Paired '"' t) (behind : List Char) :
    ReadsOn .identifier t behind :=
  readsOn_paired scan.eq_12 (fun c r hc => scan.eq_14 c r (fun _ hc' _ => hc hc') hc) h behind

theorem readsOn_lineComment {t : List Char} (h : '\n' ∉ t) (behind : List Char) :
    ReadsOn .lineComment t behind := by
  induction t with
  | nil => exact readsOn_nil _ _
  | cons c t ih =>
    obtain ⟨hc, ht⟩ := not_or.mp (mt List.mem_cons.mpr h)
    exact (ih ht).cons (scan.eq_17 c _ (Ne.symm hc))

/-- A block comment is read as long as there is no `*/`, also where the text behind goes on. -/
theorem readsOn_blockComment {t : List Char} (h : ¬ ['*', '/'] <:+: t) (behind : List Char)
    (hbehind : behind.head? ≠ some '/') : ReadsOn .blockComment t behind := by
  induction t with
  | nil => exact readsOn_nil _ _
  | cons c t ih =>
    obtain ⟨hc, ht⟩ := not_or.mp (mt pair_isInfix_cons.mpr h)
    refine (ih ht).cons (scan.eq_20 c _ fun r hstar hr => ?_)
    cases t with
    | nil => exact hbehind (by rw [← List.nil_append behind, hr, List.head?_cons])
    | cons d t =>
      obtain ⟨rfl, -⟩ := List.cons.inj hr
      exact hc ⟨hstar, List.head?_cons⟩

/-- A bare stretch is a bare run. -/
theorem isBareRun_iff {t behind : List Char} : IsBareRun t behind ↔ IsBare t behind := by
  induction t with
  | nil =>
    refine iff_of_true trivial ⟨by simp, by simp, ?_, ?_⟩ <;>
      cases behind <;> simp [List.infix_cons_iff]
  | cons c t ih =>
    have hhead : (t ++ behind.take 1).head? = (t ++ behind).head? := by
      cases t <;> cases behind <;> simp
    rw [IsBareRun, ih]
    constructor
    · rintro ⟨⟨hquote, hdouble, hminus, hslash⟩, ht⟩
      refine ⟨?_, ?_, ?_, ?_⟩
      · exact fun h => (List.mem_cons.mp h).elim (fun h => hquote h.symm) ht.no_quote
      · exact fun h => (List.mem_cons.mp h).elim (fun h => hdouble h.symm) ht.no_doubleQuote
      · rw [List.cons_append, pair_isInfix_cons, hhead]
        exact not_or.mpr ⟨fun h => hminus h.1 h.2, ht.no_lineComment⟩
      · rw [List.cons_append, pair_isInfix_cons, hhead]
        exact not_or.mpr ⟨fun h => hslash h.1 h.2, ht.no_blockComment⟩
    · rintro ⟨hquote, hdouble, hminus, hslash⟩
      rw [List.cons_append, pair_isInfix_cons, hhead, not_or] at hminus hslash
      rw [List.mem_cons, not_or] at hquote hdouble
      exact ⟨⟨Ne.symm hquote.1, Ne.symm hdouble.1, fun hc hr => hminus.1 ⟨hc, hr⟩,
        fun hc hr => hslash.1 ⟨hc, hr⟩⟩, hquote.2, hdouble.2, hminus.2, hslash.2⟩

/-! ### The segmentation that the scan finds -/

/-- A region that is whole is the first segment, and no bare text is in front of it. -/
theorem scan_of_isWhole {seg : Segment} {behind : List Char} (hbare : ∀ t, seg ≠ .bare t)
    (h : seg.IsWhole behind) :
    scan .bare (seg.source ++ behind) = (split behind).map fun segments => ([], seg :: segments) := by
  cases seg with
  | bare t => exact absurd rfl (hbare t)
  | literal body =>
    obtain ⟨hbody, hbehind⟩ := h
    have hclose := scan.eq_9 behind fun r hr => hbehind (by rw [hr, List.head?_cons])
    have hread := readsOn_literal hbody ('\'' :: behind)
    rw [source_literal_append, scan, hread, hclose, split]
    cases scan .bare behind <;> simp [Except.map]
  | verbatim v =>
    rcases h with ⟨name, rfl, hname, hbehind⟩ | ⟨body, rfl, hbody, hbehind⟩ | ⟨body, rfl, hbody⟩
    · have hclose := scan.eq_13 behind fun r hr => hbehind (by rw [hr, List.head?_cons])
      have hread := readsOn_identifier hname ('"' :: behind)
      rw [source_identifier_append, scan, hread, hclose, split]
      cases scan .bare behind <;> simp [Except.map]
    · have hread := readsOn_lineComment hbody behind
      have hclose := ends_nil_lineComment
        (hbehind.imp_left fun h => by rw [h, List.head?_nil]) behind (.inl rfl)
      rw [List.nil_append] at hclose
      rw [source, List.cons_append, List.cons_append, scan, hread, hclose]
      cases split behind <;> simp [Except.map]
    · have hread := readsOn_blockComment hbody ('*' :: '/' :: behind) (by simp)
      rw [source_blockComment_append, scan, hread, scan, split]
      cases scan .bare behind <;> simp [Except.map]

/-- A region that is never closed leaves no segments. -/
theorem scan_of_neverCloses {region : Region} {s : List Char} (h : NeverCloses region s) :
    scan .bare s = .error region := by
  cases region with
  | literal =>
    obtain ⟨body, rfl, hbody⟩ := h
    have hread := readsOn_literal hbody []
    rw [ReadsOn, List.append_nil] at hread
    rw [scan, hread]
    rfl
  | identifier =>
    obtain ⟨body, rfl, hbody⟩ := h
    have hread := readsOn_identifier hbody []
    rw [ReadsOn, List.append_nil] at hread
    rw [scan, hread]
    rfl
  | comment =>
    obtain ⟨body, rfl, hbody⟩ := h
    have hread := readsOn_blockComment hbody [] (by simp)
    rw [ReadsOn, List.append_nil] at hread
    rw [scan, hread]
    rfl

/-- No bare text is in front of what a scan finds next. -/
def Stops (s : List Char) : Prop := scan .bare s = (split s).map fun segments => ([], segments)

theorem stops_of_isWhole {seg : Segment} {behind : List Char} (hbare : ∀ t, seg ≠ .bare t)
    (h : seg.IsWhole behind) : Stops (seg.source ++ behind) := by
  rw [Stops, split, scan_of_isWhole hbare h]
  cases split behind <;> rfl

theorem NeverCloses.ne_nil {region : Region} {s : List Char} (h : NeverCloses region s) : s ≠ [] := by
  cases region <;> obtain ⟨body, rfl, -⟩ := h <;> simp

theorem stops_of_neverCloses {region : Region} {s : List Char} (h : NeverCloses region s) : Stops s := by
  rw [Stops, split, scan_of_neverCloses h]
  rfl

/-- A region that is whole is the first segment. -/
theorem split_of_isWhole {seg : Segment} {behind : List Char} (hbare : ∀ t, seg ≠ .bare t)
    (h : seg.IsWhole behind) : split (seg.source ++ behind) = (split behind).map (seg :: ·) := by
  rw [split, scan_of_isWhole hbare h]
  cases split behind <;> rfl

/-- A bare stretch in front of a region is the first segment. -/
theorem split_of_isBare {t behind : List Char} (ht : t ≠ []) (h : IsBare t behind)
    (hbehind : Stops behind) : split (t ++ behind) = (split behind).map (.bare t :: ·) := by
  have hread := readsOn_bare (isBareRun_iff.mpr h)
  rw [split, hread, hbehind]
  cases split behind with
  | error region => rfl
  | ok segments => simp [Except.map, afterBare, ht]

theorem IsWhole.verbatim_ne_nil {v behind : List Char} (h : IsWhole (.verbatim v) behind) : v ≠ [] := by
  rcases h with ⟨name, rfl, -⟩ | ⟨body, rfl, -⟩ | ⟨body, rfl, -⟩ <;> simp

theorem IsWhole.source_ne_nil {seg : Segment} {behind : List Char} (hbare : ∀ t, seg ≠ .bare t)
    (h : seg.IsWhole behind) : seg.source ≠ [] := by
  cases seg with
  | bare t => exact absurd rfl (hbare t)
  | verbatim v => exact h.verbatim_ne_nil
  | literal body => simp [source]

namespace IsSegmentation

theorem nil (rest : List Char) : IsSegmentation rest [] rest where
  lossless := rfl
  nonempty := ⟨List.not_mem_nil, List.not_mem_nil⟩
  apart before t u after h := by simp at h
  whole before seg after h := by simp at h

theorem cons {segments : List Segment} {behind rest : List Char}
    (h : IsSegmentation behind segments rest) (seg : Segment) (hseg : seg.IsWhole behind) (hne : seg ≠ .bare [])
    (hapart : ∀ t u after, seg = .bare t → segments ≠ .bare u :: after) :
    IsSegmentation (seg.source ++ behind) (seg :: segments) rest where
  lossless := by rw [sources_cons, List.append_assoc, h.lossless]
  nonempty := by
    refine ⟨List.not_mem_cons_of_ne_of_not_mem hne.symm h.nonempty.1,
      List.not_mem_cons_of_ne_of_not_mem ?_ h.nonempty.2⟩
    rintro rfl
    exact hseg.verbatim_ne_nil rfl
  apart before t u after heq := by
    cases before with
    | nil =>
      obtain ⟨rfl, hrest⟩ := List.cons.inj heq
      exact hapart t u after rfl hrest
    | cons _ before => exact h.apart before t u after (List.cons.inj heq).2
  whole before seg' after heq := by
    cases before with
    | nil =>
      obtain ⟨rfl, rfl⟩ := List.cons.inj heq
      rw [h.lossless]
      exact hseg
    | cons _ before => exact h.whole before seg' after (List.cons.inj heq).2

variable {text rest : List Char} {seg : Segment} {segments : List Segment}

/-- Behind the first segment the others are those of the text that is left. -/
theorem tail (h : IsSegmentation text (seg :: segments) rest) :
    IsSegmentation (sources segments ++ rest) segments rest where
  lossless := rfl
  nonempty := ⟨fun hm => h.nonempty.1 (List.mem_cons_of_mem _ hm),
    fun hm => h.nonempty.2 (List.mem_cons_of_mem _ hm)⟩
  apart before t u after heq := h.apart (seg :: before) t u after (by rw [heq, List.cons_append])
  whole before seg' after heq := h.whole (seg :: before) seg' after (by rw [heq, List.cons_append])

theorem text_eq (h : IsSegmentation text (seg :: segments) rest) :
    text = seg.source ++ (sources segments ++ rest) := by
  rw [← h.lossless, sources_cons, List.append_assoc]

theorem head (h : IsSegmentation text (seg :: segments) rest) :
    seg.IsWhole (sources segments ++ rest) :=
  h.whole [] seg segments rfl

/-- Behind a bare stretch a scan of bare text stops, if it does in front of the rest. -/
theorem stops {t : List Char} (h : IsSegmentation text (.bare t :: segments) rest)
    (hrest : Stops rest) : Stops (sources segments ++ rest) := by
  cases segments with
  | nil => exact hrest
  | cons seg segments =>
    rw [sources_cons, List.append_assoc]
    refine stops_of_isWhole ?_ h.tail.head
    rintro u rfl
    exact h.apart [] t u segments rfl

/-- The segments of a text are found, and the scan goes on with the rest. -/
theorem split_eq (h : IsSegmentation text segments rest) (hrest : Stops rest) :
    split text = (split rest).map (segments ++ ·) := by
  induction segments generalizing text with
  | nil =>
    rw [← h.lossless, sources_nil, List.nil_append]
    cases split rest <;> rfl
  | cons seg segments ih =>
    have hfirst : split text = (split (sources segments ++ rest)).map (seg :: ·) := by
      rw [h.text_eq]
      by_cases hbare : ∃ t, seg = .bare t
      · obtain ⟨t, rfl⟩ := hbare
        refine split_of_isBare ?_ h.head (h.stops hrest)
        rintro rfl
        exact h.nonempty.1 List.mem_cons_self
      · exact split_of_isWhole (not_exists.mp hbare) h.head
    rw [hfirst, ih h.tail]
    cases split rest <;> rfl

/-- A character that begins nothing joins the bare stretch in front of which it stands, or is one. -/
theorem exists_cons {c : Char} {r : List Char} (hc : IsPlain c r.head?)
    (h : IsSegmentation r segments rest) : ∃ segments', IsSegmentation (c :: r) segments' rest := by
  -- Two bare stretches may not stand side by side, so one that comes next is extended.
  by_cases hbare : ∃ t after, segments = .bare t :: after
  · obtain ⟨t, after, rfl⟩ := hbare
    obtain rfl := h.text_eq
    refine ⟨_, h.tail.cons (.bare (c :: t)) ?_ (by simp) ?_⟩
    · exact isBareRun_iff.mp ⟨hc, isBareRun_iff.mpr h.head⟩
    · rintro - u after - rfl
      exact h.apart [] t u after rfl
  · have hrun : IsBareRun [c] r := ⟨hc, trivial⟩
    exact ⟨_, h.cons (.bare [c]) (isBareRun_iff.mp hrun) (by simp)
      fun _ u after _ heq => hbare ⟨u, after, heq⟩⟩

end IsSegmentation

/-- Every text is cut into segments up to its end or up to a region that is never closed. -/
theorem exists_isSegmentation (text : List Char) : ∃ segments rest, IsSegmentation text segments rest ∧
    (rest = [] ∨ ∃ region, NeverCloses region rest) := by
  induction hlen : text.length using Nat.strongRecOn generalizing text with
  | ind k ih =>
    subst hlen
    cases front text with
    | nil => exact ⟨[], [], .nil [], .inl rfl⟩
    | @plain c r hc =>
      obtain ⟨segments, rest, h, hrest⟩ := ih r.length (by simp) r rfl
      obtain ⟨segments', h'⟩ := h.exists_cons hc
      exact ⟨segments', rest, h', hrest⟩
    | @whole seg behind hbare hseg =>
      have hlt := List.length_pos_iff.mpr (hseg.source_ne_nil hbare)
      obtain ⟨segments, rest, h, hrest⟩ := ih behind.length (by rw [List.length_append]; omega) behind rfl
      exact ⟨seg :: segments, rest, h.cons seg hseg (hbare []) fun t _ _ ht => absurd ht (hbare t), hrest⟩
    | unclosed region h => exact ⟨[], text, .nil text, .inr ⟨region, h⟩⟩

theorem IsSegmentation.split_eq_ok {text : List Char} {segments : List Segment}
    (h : IsSegmentation text segments []) : split text = .ok segments := by
  rw [h.split_eq rfl]
  exact congrArg Except.ok (List.append_nil segments)

/-- In front of a region that is never closed the scan fails with that region. -/
theorem IsSegmentation.split_eq_error {text rest : List Char} {segments : List Segment} {region : Region}
    (h : IsSegmentation text segments rest) (hrest : NeverCloses region rest) :
    split text = .error region := by
  rw [h.split_eq (stops_of_neverCloses hrest), split, scan_of_neverCloses hrest]
  rfl

/-- The segments that are found are the one segmentation of the text. -/
theorem split_eq_ok_iff {text : List Char} {segments : List Segment} :
    split text = .ok segments ↔ IsSegmentation text segments [] := by
  refine ⟨fun hsplit => ?_, IsSegmentation.split_eq_ok⟩
  obtain ⟨found, rest, h, rfl | ⟨region, hrest⟩⟩ := exists_isSegmentation text
  · obtain rfl : found = segments := Except.ok.inj (h.split_eq_ok.symm.trans hsplit)
    exact h
  · rw [h.split_eq_error hrest] at hsplit
    cases hsplit

/-- A text has no segments exactly if, behind those that are whole, it opens a region that it never closes. -/
theorem split_eq_error_iff_neverCloses {text : List Char} {region : Region} :
    split text = .error region ↔
      ∃ segments rest, IsSegmentation text segments rest ∧ NeverCloses region rest := by
  refine ⟨fun hsplit => ?_, fun ⟨_, _, h, hrest⟩ => h.split_eq_error hrest⟩
  obtain ⟨segments, rest, h, rfl | ⟨region', hrest⟩⟩ := exists_isSegmentation text
  · rw [h.split_eq_ok] at hsplit
    cases hsplit
  · obtain rfl : region' = region := Except.error.inj ((h.split_eq_error hrest).symm.trans hsplit)
    exact ⟨segments, rest, h, hrest⟩

end Segment

end SchemaQuery
