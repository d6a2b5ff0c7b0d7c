import SchemaQuery.Proofs.Query.ValueText
import SchemaQuery.Query.Template

/-!
Rendering, fragment by fragment. A template is cut into characters that are copied, regions and literals
that stay in their places, and values that are put in; each fragment knows what it was in the template
and what it is in the query. What a fragment leaves in the outline of the query is then a matter of its
own text and of the character behind it. There is one way for this to fail: a value that begins with a
minus sign is put in right behind a minus sign of the template, and the two begin a comment.
-/

namespace SchemaQuery

open Text Segment
open Value (escape quote IsLiteral)

/-- A part of a template and what becomes of it. -/
inductive Fragment where
  /-- A bare character that is copied. -/
  | copied (c : Char)
  /-- A comment or a quoted identifier. -/
  | verbatim (text : List Char)
  /-- A literal with one inside in the template and another in the query. -/
  | literal (body text : List Char)
  /-- The literal of a value in place of a placeholder or of a literal that was one. -/
  | value (source text : List Char)

namespace Fragment

/-- A fragment in the template. -/
def source : Fragment → List Char
  | .copied c => [c]
  | .verbatim t => t
  | .literal b _ => '\'' :: b ++ ['\'']
  | .value s _ => s

/-- A fragment in the query. -/
def text : Fragment → List Char
  | .copied c => [c]
  | .verbatim t => t
  | .literal _ b => '\'' :: b ++ ['\'']
  | .value _ v => v

/-- What a value leaves outside string literals: all of it, unless it is quoted. -/
def shown (v : List Char) : List Mark := if v.head? = some '\'' then [] else v.map .bare

/-- What a fragment is meant to leave outside string literals. -/
def marks : Fragment → List Mark
  | .copied c => [.bare c]
  | .verbatim t => [.verbatim t]
  | .literal _ _ => []
  | .value _ v => shown v

/-- The part of the template that fragments make up. -/
def sources (fs : List Fragment) : List Char := fs.flatMap source

/-- The part of the query that fragments make up. -/
def texts (fs : List Fragment) : List Char := fs.flatMap text

/-- What fragments are meant to leave outside string literals. -/
def outline (fs : List Fragment) : List Mark := fs.flatMap marks

@[simp] theorem sources_cons (f : Fragment) (fs : List Fragment) :
    sources (f :: fs) = f.source ++ sources fs := rfl

@[simp] theorem texts_cons (f : Fragment) (fs : List Fragment) :
    texts (f :: fs) = f.text ++ texts fs := rfl

@[simp] theorem outline_cons (f : Fragment) (fs : List Fragment) :
    outline (f :: fs) = f.marks ++ outline fs := rfl

@[simp] theorem sources_append (fs gs : List Fragment) :
    sources (fs ++ gs) = sources fs ++ sources gs := List.flatMap_append

@[simp] theorem texts_append (fs gs : List Fragment) : texts (fs ++ gs) = texts fs ++ texts gs :=
  List.flatMap_append

@[simp] theorem outline_append (fs gs : List Fragment) :
    outline (fs ++ gs) = outline fs ++ outline gs := List.flatMap_append

@[simp] theorem sources_copied (t : List Char) : sources (t.map .copied) = t := by
  induction t with
  | nil => rfl
  | cons c t ih => rw [List.map_cons, sources_cons, ih]; rfl

@[simp] theorem texts_copied (t : List Char) : texts (t.map .copied) = t := by
  induction t with
  | nil => rfl
  | cons c t ih => rw [List.map_cons, texts_cons, ih]; rfl

@[simp] theorem outline_copied (t : List Char) : outline (t.map .copied) = t.map .bare := by
  induction t with
  | nil => rfl
  | cons c t ih => rw [List.map_cons, outline_cons, ih]; rfl

/-! ### What the template says about its fragments -/

/-- A text that can be put in as the literal of a value. -/
inductive IsValue : List Char → Prop where
  | quoted (s : List Char) : IsValue (quote s)
  | unquoted {v : List Char} : IsUnquoted v → IsValue v

/-- A fragment in front of the template text `rest` is what a scan of the template makes of it. -/
def Fits (rest : List Char) : Fragment → Prop
  | .copied c => IsPlain c rest.head?
  | .verbatim t => IsRegion t rest
  | .literal _ b => ∃ s, b = escape s
  | .value s v => (s.head? = some '$' ∨ s.head? = some '\'') ∧ IsValue v

/-- Fragments each of which fits in front of those behind it. -/
def Fit : List Fragment → Prop
  | [] => True
  | f :: fs => f.Fits (sources fs) ∧ Fit fs

/-- A value with a minus sign in front comes next. -/
def BeginsNegative (fs : List Fragment) : Prop :=
  ∃ source rest after, fs = .value source ('-' :: rest) :: after

/-- Somewhere a value with a minus sign in front stands right behind a bare minus sign. -/
def MinusMeetsMinus (fs : List Fragment) : Prop :=
  ∃ before after, fs = before ++ .copied '-' :: after ∧ BeginsNegative after

theorem minusMeetsMinus_cons {f : Fragment} {fs : List Fragment} :
    MinusMeetsMinus (f :: fs) ↔ (f = .copied '-' ∧ BeginsNegative fs) ∨ MinusMeetsMinus fs := by
  constructor
  · rintro ⟨before, after, h, hn⟩
    cases before with
    | nil => cases h; exact .inl ⟨rfl, hn⟩
    | cons g before => cases h; exact .inr ⟨before, after, rfl, hn⟩
  · rintro (⟨rfl, hn⟩ | ⟨before, after, rfl, hn⟩)
    · exact ⟨[], fs, rfl, hn⟩
    · exact ⟨f :: before, after, rfl, hn⟩

/-- Where minus signs meet at all, there is a first place. -/
theorem MinusMeetsMinus.first {fs : List Fragment} (h : MinusMeetsMinus fs) :
    ∃ before after, fs = before ++ .copied '-' :: after ∧ BeginsNegative after ∧
      ∀ p q, before = p ++ .copied '-' :: q → ¬ BeginsNegative (q ++ .copied '-' :: after) := by
  induction fs with
  | nil => obtain ⟨before, after, h, -⟩ := h; simp at h
  | cons f fs ih =>
    by_cases hf : f = .copied '-' ∧ BeginsNegative fs
    · obtain ⟨rfl, hn⟩ := hf
      exact ⟨[], fs, rfl, hn, fun p q hp => by simp at hp⟩
    · obtain ⟨before, after, rfl, hn, hfirst⟩ := ih ((minusMeetsMinus_cons.mp h).resolve_left hf)
      refine ⟨f :: before, after, rfl, hn, fun p q hp => ?_⟩
      cases p with
      | nil => cases hp; exact fun hq => hf ⟨rfl, hq⟩
      | cons g p => cases hp; exact hfirst p q rfl

/-! ### What fragments leave in the outline of the query -/

/-- A value has a first character: none that ends the opening of a comment, and none that could be taken
for the end of a region. -/
theorem IsValue.head? {v : List Char} (h : IsValue v) :
    ∃ c, v.head? = some c ∧ c ∉ ['*', '"', '/'] := by
  cases h with
  | quoted s => exact ⟨'\'', rfl, by decide⟩
  | unquoted h => obtain ⟨c, hc, hn, -⟩ := h.head?; exact ⟨c, hc, hn⟩

/-- A value leaves what it shows. -/
theorem IsValue.outlineOf_append {v : List Char} (h : IsValue v) (r : List Char) :
    outlineOf (v ++ r) = (outlineOf r).map (shown v ++ ·) := by
  cases h with
  | quoted s =>
    rw [quote, List.append_assoc, List.singleton_append, outlineOf_literal]
    change outlineOf r = (outlineOf r).map fun ms => ms
    cases outlineOf r <;> rfl
  | unquoted h =>
    obtain ⟨c, hc, -, hq⟩ := h.head?
    rw [outlineOf_run (h.isBareRun r), shown, if_neg (by rw [hc]; simpa using hq)]

/-- The query goes on with the character of the template, unless a value comes next. -/
theorem Fit.next {fs : List Fragment} (h : Fit fs) :
    (texts fs).head? = (sources fs).head? ∨ ∃ source v after, fs = .value source v :: after := by
  cases fs with
  | nil => exact .inl rfl
  | cons f fs =>
    cases f with
    | value source v => exact .inr ⟨source, v, fs, rfl⟩
    | copied c => exact .inl rfl
    | literal b b' => exact .inl rfl
    | verbatim t =>
      obtain ⟨c, t, rfl⟩ := List.exists_cons_of_ne_nil h.1.ne_nil
      exact .inl rfl

/-- A bare character of the template is one of the query, unless a minus sign meets another. -/
theorem Fit.isPlain {fs : List Fragment} (h : Fit fs) {c : Char}
    (hc : IsPlain c (sources fs).head?) (hm : c = '-' → ¬ BeginsNegative fs) :
    IsPlain c (texts fs).head? := by
  rcases h.next with hnext | ⟨source, v, after, rfl⟩
  · rwa [hnext]
  · obtain ⟨d, hd, hn⟩ := h.1.2.head?
    obtain ⟨v, rfl⟩ := List.head?_eq_some_iff.mp hd
    refine ⟨hc.ne_quote, hc.ne_doubleQuote, ?_, ?_⟩
    · rintro rfl hminus
      obtain rfl : d = '-' := by simpa [text] using hminus
      exact hm rfl ⟨source, v, after, rfl⟩
    · rintro rfl hstar
      obtain rfl : d = '*' := by simpa [text] using hstar
      simp at hn

/-- A region of the template is one of the query. -/
theorem Fit.goesOnLike {fs : List Fragment} (h : Fit fs) : GoesOnLike (texts fs) (sources fs) := by
  rcases h.next with hnext | ⟨source, v, after, rfl⟩
  · exact .inl hnext
  · obtain ⟨⟨hsource, hv⟩, -⟩ := h
    obtain ⟨d, hd, hn⟩ := hv.head?
    obtain ⟨v, rfl⟩ := List.head?_eq_some_iff.mp hd
    simp only [List.mem_cons, List.not_mem_nil, or_false, not_or] at hn
    obtain ⟨c, source, rfl⟩ : ∃ c r, source = c :: r := by
      cases source with
      | nil => simp at hsource
      | cons c r => exact ⟨c, r, rfl⟩
    refine .inr ⟨by simp [Fragment.source], ?_, by simpa [text] using hn.2.1,
      by simpa [text] using hn.2.2⟩
    rcases hsource with hc | hc <;> · cases hc; simp [Fragment.source]

/-- Fragments leave what they are meant to leave, up to the first place where minus signs meet. -/
theorem outlineOf_texts_append {fs gs : List Fragment} (h : Fit (fs ++ gs))
    (hm : ∀ p q, fs = p ++ .copied '-' :: q → ¬ BeginsNegative (q ++ gs)) :
    outlineOf (texts (fs ++ gs)) = (outlineOf (texts gs)).map (outline fs ++ ·) := by
  induction fs with
  | nil => rw [List.nil_append]; cases outlineOf (texts gs) <;> rfl
  | cons f fs ih =>
    have ih := ih h.2 fun p q hp => hm (f :: p) q (by rw [hp]; rfl)
    have step : outlineOf (f.text ++ texts (fs ++ gs)) =
        (outlineOf (texts (fs ++ gs))).map (f.marks ++ ·) := by
      cases f with
      | copied c =>
        exact outlineOf_cons (Fit.isPlain h.2 h.1 fun hc => hm [] fs (by rw [hc]; rfl))
      | verbatim t => exact h.1.outlineOf_append _ (Fit.goesOnLike h.2)
      | value source v => exact h.1.2.outlineOf_append _
      | literal b b' =>
        obtain ⟨s, rfl⟩ := h.1
        rw [text, List.append_assoc, List.singleton_append, outlineOf_literal]
        cases outlineOf (texts (fs ++ gs)) <;> rfl
    rw [List.cons_append, texts_cons, step, ih]
    cases outlineOf (texts gs) <;> simp [Except.map]

/-- Where minus signs meet first, a comment begins instead of a bare minus sign. -/
theorem comment_of_minusMeetsMinus {fs : List Fragment} {ms : List Mark} (h : Fit fs)
    (hm : MinusMeetsMinus fs) (ho : outlineOf (texts fs) = .ok ms) :
    ∃ before body behind after, ms = before ++ .verbatim ('-' :: '-' :: body) :: behind ∧
      outline fs = before ++ .bare '-' :: after := by
  obtain ⟨before, after, rfl, ⟨source, rest, behind, rfl⟩, hfirst⟩ := hm.first
  rw [outlineOf_texts_append h hfirst] at ho
  obtain ⟨ms', hms', rfl⟩ := map_eq_ok_iff.mp ho
  obtain ⟨body, ms'', rfl⟩ := outlineOf_lineComment hms'
  exact ⟨outline before, body, ms'', _, rfl, outline_append _ _⟩

/-- Fragments leave what they are meant to leave exactly if nowhere minus signs meet. -/
theorem outlineOf_texts_iff {fs : List Fragment} (h : Fit fs) :
    outlineOf (texts fs) = .ok (outline fs) ↔ ¬ MinusMeetsMinus fs := by
  constructor
  · intro ho hm
    obtain ⟨before, body, behind, after, hcomment, hbare⟩ := comment_of_minusMeetsMinus h hm ho
    rw [hbare] at hcomment
    cases List.append_cancel_left hcomment
  · intro hm
    have hall : outlineOf (texts (fs ++ [])) = (outlineOf (texts [])).map (outline fs ++ ·) :=
      outlineOf_texts_append (by rwa [List.append_nil])
        fun p q hp hq => hm ⟨p, q, hp, by rwa [List.append_nil] at hq⟩
    rw [List.append_nil] at hall
    rw [hall]
    change Except.ok (outline fs ++ []) = _
    rw [List.append_nil]

end Fragment

end SchemaQuery
