import SchemaQuery.Proofs.Fallible
import SchemaQuery.Query.Argument
import SchemaQuery.Query.Segment

/-!
What a query says outside its string literals. The outline of a text is the sequence of its bare
characters and of its comments and quoted identifiers, each of these whole; its literals leave no trace.
Two literals that stand side by side are scanned as one, but the outline does not tell the difference,
so it can be computed one piece of text after another: a quote leads into a literal and the next quote
out of it, and a piece of text is judged by itself and by the one character behind it.

The scan is then inverted. A text that has segments is made up of bare runs, escaped literals and
closed regions, each of which would be scanned in the same way in front of any text that goes on with
the same character.
-/

namespace SchemaQuery

open Value (escape)

/-- What a scan leaves outside string literals. -/
inductive Mark where
  | bare (c : Char)
  | verbatim (text : List Char)
deriving DecidableEq, Repr

namespace Mark

/-- A bare character. -/
def bare? : Mark → Option Char
  | .bare c => some c
  | .verbatim _ => none

/-- A comment or quoted identifier. -/
def verbatim? : Mark → Option (List Char)
  | .bare _ => none
  | .verbatim t => some t

@[simp] theorem filterMap_bare?_bare (t : List Char) : (t.map Mark.bare).filterMap bare? = t := by
  induction t with
  | nil => rfl
  | cons c t ih => rw [List.map_cons, List.filterMap_cons_some (rfl : bare? (bare c) = some c), ih]

@[simp] theorem filterMap_verbatim?_bare (t : List Char) :
    (t.map Mark.bare).filterMap verbatim? = [] := by
  induction t with
  | nil => rfl
  | cons c t ih => rw [List.map_cons, List.filterMap_cons_none (rfl : verbatim? (bare c) = none), ih]

end Mark

namespace Segment

/-- The marks of a segment. -/
def marks : Segment → List Mark
  | .bare t => t.map .bare
  | .verbatim t => [.verbatim t]
  | .literal _ => []

/-- What segments leave outside string literals. -/
def outline (segments : List Segment) : List Mark := segments.flatMap marks

/-- The comments and quoted identifiers among segments. -/
def verbatims (segments : List Segment) : List (List Char) :=
  segments.filterMap fun
    | .verbatim t => some t
    | _ => none

/-- The bare stretches of segments, put together. -/
def bareText (segments : List Segment) : List Char :=
  segments.flatMap fun
    | .bare t => t
    | _ => []

/-- The text that segments make up. -/
def sources (segments : List Segment) : List Char := segments.flatMap source

@[simp] theorem outline_nil : outline [] = [] := rfl

@[simp] theorem outline_cons (seg : Segment) (segments : List Segment) :
    outline (seg :: segments) = seg.marks ++ outline segments := rfl

@[simp] theorem sources_nil : sources [] = [] := rfl

@[simp] theorem sources_cons (seg : Segment) (segments : List Segment) :
    sources (seg :: segments) = seg.source ++ sources segments := rfl

@[simp] theorem outline_afterBare (t : List Char) (segments : List Segment) :
    outline (afterBare t segments) = t.map .bare ++ outline segments := by
  unfold afterBare
  split
  · next h => simp [h]
  · rfl

@[simp] theorem sources_afterBare (t : List Char) (segments : List Segment) :
    sources (afterBare t segments) = t ++ sources segments := by
  unfold afterBare
  split
  · next h => simp [h]
  · rfl

theorem verbatims_eq_outline (segments : List Segment) :
    verbatims segments = (outline segments).filterMap Mark.verbatim? := by
  induction segments with
  | nil => rfl
  | cons seg segments ih =>
    rw [outline_cons, List.filterMap_append, ← ih]
    cases seg with
    | bare t => rw [marks, Mark.filterMap_verbatim?_bare]; rfl
    | verbatim t => rfl
    | literal b => rfl

theorem bareText_eq_outline (segments : List Segment) :
    bareText segments = (outline segments).filterMap Mark.bare? := by
  induction segments with
  | nil => rfl
  | cons seg segments ih =>
    rw [outline_cons, List.filterMap_append, ← ih]
    cases seg with
    | bare t => rw [marks, Mark.filterMap_bare?_bare]; rfl
    | verbatim t => rfl
    | literal b => rfl

/-! ### Outlines of texts -/

/-- The outline of a text, or the region that it never closes. -/
def outlineOf (s : List Char) : Except Region (List Mark) := (split s).map outline

/-- The outline of a text that begins inside a literal. -/
def outlineInside (s : List Char) : Except Region (List Mark) :=
  (scan .literal s).map fun scanned => outline scanned.2

/-- A text has an outline exactly if it has segments that leave it. -/
theorem outlineOf_eq_ok_iff {s : List Char} {ms : List Mark} :
    outlineOf s = .ok ms ↔ ∃ segments, split s = .ok segments ∧ outline segments = ms := by
  unfold outlineOf
  cases split s <;> simp [Except.map]

theorem outlineOf_eq_scan (s : List Char) :
    outlineOf s = (scan .bare s).map fun scanned => scanned.1.map .bare ++ outline scanned.2 := by
  unfold outlineOf split
  cases scan .bare s <;> simp [Except.map]

@[simp] theorem outlineOf_nil : outlineOf [] = .ok [] := rfl

theorem outlineOf_quote (r : List Char) : outlineOf ('\'' :: r) = outlineInside r := by
  rw [outlineOf_eq_scan, scan, outlineInside]
  cases scan .literal r <;> simp [Except.map, marks]

/-- A quote leads out of a literal, also where it is the first of two: the second one leads in again,
and a literal leaves no trace. -/
theorem outlineInside_quote (r : List Char) : outlineInside ('\'' :: r) = outlineOf r := by
  by_cases h : ∃ r', r = '\'' :: r'
  · obtain ⟨r', rfl⟩ := h
    rw [outlineOf_quote, outlineInside, scan, outlineInside]
    cases scan .literal r' <;> simp [Except.map, extend]
  · rw [outlineInside, scan.eq_9 r fun r' hr => h ⟨r', hr⟩, outlineOf_eq_scan]
    cases scan .bare r <;> simp [Except.map]

theorem outlineInside_cons {c : Char} (h : c ≠ '\'') (r : List Char) :
    outlineInside (c :: r) = outlineInside r := by
  rw [outlineInside, scan.eq_10 c r (fun _ hc _ => h hc) h, outlineInside]
  cases scan .literal r <;> simp [Except.map, extend]

/-- A character that begins nothing, in front of the given one. -/
structure IsPlain (c : Char) (next : Option Char) : Prop where
  ne_quote : c ≠ '\''
  ne_doubleQuote : c ≠ '"'
  no_lineComment : c = '-' → next ≠ some '-'
  no_blockComment : c = '/' → next ≠ some '*'

theorem isPlain_of_notMem {c : Char} (h : c ∉ ['\'', '"', '-', '/']) (next : Option Char) :
    IsPlain c next := by
  simp only [List.mem_cons, List.not_mem_nil, or_false, not_or] at h
  exact ⟨h.1, h.2.1, fun hc => absurd hc h.2.2.1, fun hc => absurd hc h.2.2.2⟩

theorem scan_bare_cons {c : Char} {r : List Char} (h : IsPlain c r.head?) :
    scan .bare (c :: r) = (scan .bare r).map (extend c) :=
  scan.eq_6 c r h.ne_quote h.ne_doubleQuote
    (fun r' hc hr => h.no_lineComment hc (by rw [hr]; rfl))
    (fun r' hc hr => h.no_blockComment hc (by rw [hr]; rfl))

theorem outlineOf_cons {c : Char} {r : List Char} (h : IsPlain c r.head?) :
    outlineOf (c :: r) = (outlineOf r).map (.bare c :: ·) := by
  rw [outlineOf_eq_scan, scan_bare_cons h, outlineOf_eq_scan]
  cases scan .bare r <;> simp [Except.map, extend]

theorem outlineOf_lineComment {r : List Char} {ms : List Mark}
    (h : outlineOf ('-' :: '-' :: r) = .ok ms) :
    ∃ body ms', ms = .verbatim ('-' :: '-' :: body) :: ms' := by
  rw [outlineOf_eq_scan, scan] at h
  cases hs : scan .lineComment r with
  | error region => rw [hs] at h; cases h
  | ok scanned => rw [hs] at h; cases h; exact ⟨_, _, rfl⟩

theorem outlineInside_escape (s r : List Char) :
    outlineInside (escape s ++ r) = outlineInside r := by
  induction s with
  | nil => rfl
  | cons c s ih =>
    by_cases h : c = '\''
    · rw [escape, if_pos h, List.cons_append, List.cons_append, outlineInside_quote,
        outlineOf_quote, ih]
    · rw [escape, if_neg h, List.cons_append, outlineInside_cons h, ih]

/-- A literal leaves no trace. -/
theorem outlineOf_literal (s r : List Char) :
    outlineOf ('\'' :: escape s ++ '\'' :: r) = outlineOf r := by
  rw [List.cons_append, outlineOf_quote, outlineInside_escape, outlineInside_quote]

/-! ### The parts of a text that has segments -/

/-- A stretch of characters none of which begins anything, in front of a text. -/
def IsBareRun : List Char → List Char → Prop
  | [], _ => True
  | c :: t, r => IsPlain c (t ++ r).head? ∧ IsBareRun t r

theorem isBareRun_append {t u r : List Char} :
    IsBareRun (t ++ u) r ↔ IsBareRun t (u ++ r) ∧ IsBareRun u r := by
  induction t with
  | nil => simp [IsBareRun]
  | cons c t ih => rw [List.cons_append, IsBareRun, IsBareRun, ih, List.append_assoc, and_assoc]

/-- A run is itself in the outline. -/
theorem outlineOf_run {t r : List Char} (h : IsBareRun t r) :
    outlineOf (t ++ r) = (outlineOf r).map (t.map .bare ++ ·) := by
  induction t with
  | nil => rw [List.nil_append]; cases outlineOf r <;> rfl
  | cons c t ih =>
    rw [List.cons_append, outlineOf_cons h.1, ih h.2]
    cases outlineOf r <;> rfl

/-- A text goes on like another one, as far as a region in front of it can tell: with the same
character, or, where no line comment can have ended, with one that neither doubles a closing quote nor
closes a comment. -/
def GoesOnLike (r rest : List Char) : Prop :=
  r.head? = rest.head? ∨
    rest.head? ≠ none ∧ rest.head? ≠ some '\n' ∧ r.head? ≠ some '"' ∧ r.head? ≠ some '/'

/-- In front of any text that goes on like `rest`, a scan inside the zone ends behind `body`. -/
def Ends (zone : Zone) (body rest : List Char) : Prop :=
  ∀ r : List Char, GoesOnLike r rest → scan zone (body ++ r) = (split r).map (body, ·)

/-- A comment or quoted identifier, whole, in front of any text that goes on like `rest`. -/
structure IsRegion (t rest : List Char) : Prop where
  ne_nil : t ≠ []
  outlineOf_append : ∀ r : List Char, GoesOnLike r rest →
    outlineOf (t ++ r) = (outlineOf r).map (.verbatim t :: ·)

/-- Segments that follow from the text they make up. -/
def Linked : List Segment → Prop
  | [] => True
  | .bare t :: segments => IsBareRun t (sources segments) ∧ Linked segments
  | .verbatim t :: segments => IsRegion t (sources segments) ∧ Linked segments
  | .literal b :: segments => (∃ s, b = escape s) ∧ Linked segments

theorem linked_afterBare {t : List Char} {segments : List Segment}
    (ht : IsBareRun t (sources segments)) (h : Linked segments) : Linked (afterBare t segments) := by
  unfold afterBare
  split
  · exact h
  · exact ⟨ht, h⟩

/-- What is known of a scan that begins in a zone: the text it has read, that what it has read of the
zone is closed, and that the segments behind follow from their text. -/
def Scanned : Zone → List Char → List Segment → List Char → Prop
  | .bare, t, segments, s =>
    s = t ++ sources segments ∧ IsBareRun t (sources segments) ∧ Linked segments
  | .literal, b, segments, s =>
    s = b ++ '\'' :: sources segments ∧ (∃ v, b = escape v) ∧ Linked segments
  | zone, b, segments, s =>
    s = b ++ sources segments ∧ Ends zone b (sources segments) ∧ Linked segments

/-- A text begins with a character if it goes on like one that does, or else with none of these. -/
theorem GoesOnLike.head?_eq {r rest : List Char} (h : GoesOnLike r rest) {c : Char}
    (hr : r.head? = some c) (hc : c = '"' ∨ c = '/') : rest.head? = some c := by
  rcases h with h | ⟨-, -, hq, hs⟩
  · rw [← h, hr]
  · rcases hc with rfl | rfl
    · exact absurd hr hq
    · exact absurd hr hs

/-- A line comment ends where the text ends, and before a newline. -/
theorem ends_nil_lineComment {rest : List Char} (h : rest.head? = none ∨ rest.head? = some '\n') :
    Ends .lineComment [] rest := by
  intro r hr
  have hhead : r.head? = rest.head? := by
    rcases hr with hr | ⟨hnone, hnewline, -⟩
    · exact hr
    · exact absurd h (not_or.mpr ⟨hnone, hnewline⟩)
  cases r with
  | nil => rfl
  | cons c r =>
    obtain rfl : c = '\n' := by rcases h with h | h <;> simp_all
    rw [List.nil_append, scan, split, scan_bare_cons (isPlain_of_notMem (by decide) _)]
    cases scan .bare r <;> rfl

theorem ends_of_close {zone : Zone} {close rest : List Char}
    (h : ∀ r : List Char, GoesOnLike r rest →
      scan zone (close ++ r) = (scan .bare r).map fun scanned =>
        (close, afterBare scanned.1 scanned.2)) :
    Ends zone close rest := by
  intro r hr
  rw [h r hr, split]
  cases scan .bare r <;> rfl

theorem Ends.cons {zone : Zone} {c : Char} {b rest : List Char} (hb : Ends zone b rest)
    (h : ∀ r : List Char, GoesOnLike r rest →
      scan zone (c :: (b ++ r)) = (scan zone (b ++ r)).map (extend c)) :
    Ends zone (c :: b) rest := by
  intro r hr
  rw [List.cons_append, h r hr, hb r hr]
  cases split r <;> rfl

/-- A region is what opens a zone and what the zone reads up to its end. -/
theorem isRegion_of_ends {zone : Zone} {b rest : List Char} (opening : List Char)
    (hne : opening ≠ [])
    (hopen : ∀ r : List Char, scan .bare (opening ++ r) = (scan zone r).map fun scanned =>
      ([], .verbatim (opening ++ scanned.1) :: scanned.2))
    (hb : Ends zone b rest) : IsRegion (opening ++ b) rest where
  ne_nil := by simp [hne]
  outlineOf_append r hr := by
    rw [List.append_assoc, outlineOf_eq_scan, hopen, hb r hr, outlineOf]
    cases split r <;> rfl

/-- Behind anything, a text goes on like another one that it goes on like alone. -/
theorem GoesOnLike.append {r rest : List Char} (h : GoesOnLike r rest) (b : List Char) :
    GoesOnLike (b ++ r) (b ++ rest) := by
  cases b with
  | nil => exact h
  | cons c b => exact .inl rfl

theorem isPlain_of_ne {c : Char} {r : List Char} (hquote : c ≠ '\'') (hdouble : c ≠ '"')
    (hminus : ∀ r', c = '-' → r ≠ '-' :: r') (hslash : ∀ r', c = '/' → r ≠ '*' :: r') :
    IsPlain c r.head? where
  ne_quote := hquote
  ne_doubleQuote := hdouble
  no_lineComment hc hn := by
    obtain ⟨r', hr'⟩ := List.head?_eq_some_iff.mp hn
    exact hminus r' hc hr'
  no_blockComment hc hn := by
    obtain ⟨r', hr'⟩ := List.head?_eq_some_iff.mp hn
    exact hslash r' hc hr'

namespace Scanned

variable {zone next : Zone} {c : Char} {b r s : List Char} {segments : List Segment}

/-- What is known of a scan is carried over to one that goes on from it. -/
theorem of_map {f : List Char × List Segment → List Char × List Segment}
    (h : (scan next r).map f = .ok (b, segments))
    (ih : ∀ {b segments}, scan next r = .ok (b, segments) → Scanned next b segments r)
    (hf : ∀ b segments, Scanned next b segments r →
      Scanned zone (f (b, segments)).1 (f (b, segments)).2 s) : Scanned zone b segments s := by
  obtain ⟨⟨body, found⟩, hs, hb⟩ := map_eq_ok_iff.mp h
  have hscanned := hf body found (ih hs)
  rw [hb] at hscanned
  exact hscanned

/-! From bare text a quote leads into a literal, and the opening of a region into that. -/

theorem bare_quote (h : Scanned .literal b segments r) :
    Scanned .bare [] (.literal b :: segments) ('\'' :: r) := by
  obtain ⟨rfl, hv, hl⟩ := h
  exact ⟨by simp [source], trivial, hv, hl⟩

theorem bare_opening (opening : List Char) (hne : opening ≠ [])
    (hopen : ∀ r : List Char, scan .bare (opening ++ r) = (scan zone r).map fun scanned =>
      ([], .verbatim (opening ++ scanned.1) :: scanned.2))
    (h : r = b ++ sources segments ∧ Ends zone b (sources segments) ∧ Linked segments) :
    Scanned .bare [] (.verbatim (opening ++ b) :: segments) (opening ++ r) := by
  obtain ⟨rfl, he, hl⟩ := h
  exact ⟨by simp [source], trivial, isRegion_of_ends opening hne hopen he, hl⟩

theorem bare_cons (hc : IsPlain c r.head?) (h : Scanned .bare b segments r) :
    Scanned .bare (c :: b) segments (c :: r) := by
  obtain ⟨rfl, hrun, hl⟩ := h
  exact ⟨rfl, ⟨hc, hrun⟩, hl⟩

/-! A literal is an escaped text: a quote in it is doubled. -/

theorem literal_double (h : Scanned .literal b segments r) :
    Scanned .literal ('\'' :: '\'' :: b) segments ('\'' :: '\'' :: r) := by
  obtain ⟨rfl, ⟨v, rfl⟩, hl⟩ := h
  exact ⟨rfl, ⟨'\'' :: v, by simp [Value.escape]⟩, hl⟩

theorem literal_quote (h : Scanned .bare b segments r) :
    Scanned .literal [] (afterBare b segments) ('\'' :: r) := by
  obtain ⟨rfl, hrun, hl⟩ := h
  exact ⟨by simp, ⟨[], rfl⟩, linked_afterBare hrun hl⟩

theorem literal_cons (hc : c ≠ '\'') (h : Scanned .literal b segments r) :
    Scanned .literal (c :: b) segments (c :: r) := by
  obtain ⟨rfl, ⟨v, rfl⟩, hl⟩ := h
  exact ⟨rfl, ⟨c :: v, by simp [Value.escape, hc]⟩, hl⟩

/-! A quoted identifier ends with a quote that is not doubled. -/

theorem identifier_double (h : Scanned .identifier b segments r) :
    Scanned .identifier ('"' :: '"' :: b) segments ('"' :: '"' :: r) := by
  obtain ⟨rfl, he, hl⟩ := h
  refine ⟨rfl, fun r hr => ?_, hl⟩
  rw [List.cons_append, List.cons_append, scan, he r hr]
  cases split r <;> rfl

theorem identifier_quote (hne : ∀ r', r ≠ '"' :: r') (h : Scanned .bare b segments r) :
    Scanned .identifier ['"'] (afterBare b segments) ('"' :: r) := by
  obtain ⟨rfl, hrun, hl⟩ := h
  refine ⟨by simp, ends_of_close fun r hr => ?_, linked_afterBare hrun hl⟩
  refine scan.eq_13 r fun r' hr' => ?_
  have hhead := hr.head?_eq (by rw [hr', List.head?_cons]) (.inl rfl)
  rw [sources_afterBare] at hhead
  obtain ⟨r'', h''⟩ := List.head?_eq_some_iff.mp hhead
  exact hne r'' h''

theorem identifier_cons (hc : c ≠ '"') (h : Scanned .identifier b segments r) :
    Scanned .identifier (c :: b) segments (c :: r) := by
  obtain ⟨rfl, he, hl⟩ := h
  exact ⟨rfl, he.cons fun r _ => scan.eq_14 c _ (fun _ hc' _ => hc hc') hc, hl⟩

/-! A line comment ends in front of a newline, which is bare again. -/

theorem lineComment_newline (h : Scanned .bare b segments r) :
    Scanned .lineComment [] (afterBare ('\n' :: b) segments) ('\n' :: r) := by
  obtain ⟨rfl, hrun, hl⟩ := h
  have hnewline : IsPlain '\n' (b ++ sources segments).head? := isPlain_of_notMem (by decide) _
  exact ⟨by simp, ends_nil_lineComment (.inr (by simp)), linked_afterBare ⟨hnewline, hrun⟩ hl⟩

theorem lineComment_cons (hc : c ≠ '\n') (h : Scanned .lineComment b segments r) :
    Scanned .lineComment (c :: b) segments (c :: r) := by
  obtain ⟨rfl, he, hl⟩ := h
  exact ⟨rfl, he.cons fun r _ => scan.eq_17 c _ hc, hl⟩

/-! A block comment ends with the first star that a slash follows. -/

theorem blockComment_close (h : Scanned .bare b segments r) :
    Scanned .blockComment ['*', '/'] (afterBare b segments) ('*' :: '/' :: r) := by
  obtain ⟨rfl, hrun, hl⟩ := h
  exact ⟨by simp, ends_of_close fun r _ => rfl, linked_afterBare hrun hl⟩

theorem blockComment_cons (hne : ∀ r', c = '*' → r ≠ '/' :: r')
    (h : Scanned .blockComment b segments r) : Scanned .blockComment (c :: b) segments (c :: r) := by
  obtain ⟨rfl, he, hl⟩ := h
  refine ⟨rfl, he.cons fun r hr => scan.eq_20 c _ fun r' hc hr' => ?_, hl⟩
  have hhead := (hr.append b).head?_eq (by rw [hr', List.head?_cons]) (.inr rfl)
  obtain ⟨r'', h''⟩ := List.head?_eq_some_iff.mp hhead
  exact hne r'' hc h''

end Scanned

/-- What a scan that begins in a zone has read, found and left. -/
theorem scanned_of_scan {zone : Zone} {s b : List Char} {segments : List Segment}
    (h : scan zone s = .ok (b, segments)) : Scanned zone b segments s := by
  fun_induction scan zone s generalizing b segments
  -- In bare text.
  case case1 => cases h; exact ⟨rfl, trivial, trivial⟩
  case case2 ih => exact .of_map h ih fun _ _ => .bare_quote
  case case3 ih => exact .of_map h ih fun _ _ => .bare_opening ['"'] (by simp) fun _ => rfl
  case case4 ih => exact .of_map h ih fun _ _ => .bare_opening ['-', '-'] (by simp) fun _ => rfl
  case case5 ih => exact .of_map h ih fun _ _ => .bare_opening ['/', '*'] (by simp) fun _ => rfl
  case case6 hquote hdouble hminus hslash ih =>
    exact .of_map h ih fun _ _ => .bare_cons (isPlain_of_ne hquote hdouble hminus hslash)
  -- In a literal.
  case case7 => cases h
  case case8 ih => exact .of_map h ih fun _ _ => .literal_double
  case case9 ih => exact .of_map h ih fun _ _ => .literal_quote
  case case10 hc ih => exact .of_map h ih fun _ _ => .literal_cons hc
  -- In a quoted identifier.
  case case11 => cases h
  case case12 ih => exact .of_map h ih fun _ _ => .identifier_double
  case case13 hne ih => exact .of_map h ih fun _ _ => .identifier_quote hne
  case case14 hc ih => exact .of_map h ih fun _ _ => .identifier_cons hc
  -- In a line comment.
  case case15 => cases h; exact ⟨rfl, ends_nil_lineComment (.inl rfl), trivial⟩
  case case16 ih => exact .of_map h ih fun _ _ => .lineComment_newline
  case case17 hc ih => exact .of_map h ih fun _ _ => .lineComment_cons hc
  -- In a block comment.
  case case18 => cases h
  case case19 ih => exact .of_map h ih fun _ _ => .blockComment_close
  case case20 hne ih => exact .of_map h ih fun _ _ => .blockComment_cons hne

/-- Segments make up their text and follow from it. -/
theorem linked_of_split {s : List Char} {segments : List Segment} (h : split s = .ok segments) :
    s = sources segments ∧ Linked segments := by
  obtain ⟨⟨t, found⟩, hs, rfl⟩ := map_eq_ok_iff.mp h
  obtain ⟨rfl, hrun, hl⟩ := scanned_of_scan hs
  exact ⟨(sources_afterBare t found).symm, linked_afterBare hrun hl⟩

end Segment

end SchemaQuery
