import SchemaQuery.Proofs.Query.Refusal

/-!
Values arrive as they were given. Outside literals, and where a literal is exactly one placeholder, a string
becomes one literal, the same wherever its key stands and in whichever form. Inside a longer literal the
quotes of everything stand doubled, so undoubling them shows the template with the values put in as they are.
Quotes are paired by where they stand, so the body of such a literal is read as a whole: a template that has
segments has only doubled quotes in it, and doubling goes part by part.
-/

namespace SchemaQuery

open Text
open Value (escape unescape quote)

namespace Value

/-- A text whose quotes stand in pairs. -/
inductive Doubled : List Char → Prop
  | nil : Doubled []
  | quotes {r : List Char} (hr : Doubled r) : Doubled ('\'' :: '\'' :: r)
  | char {c : Char} {r : List Char} (hc : c ≠ '\'') (hr : Doubled r) : Doubled (c :: r)

theorem doubled_escape (s : List Char) : Doubled (escape s) := by
  induction s with
  | nil => exact .nil
  | cons c s ih =>
    rw [escape]
    split
    · exact .quotes ih
    · next hc => exact .char hc ih

/-- A string literal that undoubling its quotes turns into `s`. -/
def Quotes (t s : List Char) : Prop :=
  ∃ body, t = '\'' :: body ++ ['\''] ∧ Doubled body ∧ unescape body = s

theorem quotes_quote (s : List Char) : Quotes (quote s) s :=
  ⟨escape s, rfl, doubled_escape s, unescape_escape s⟩

/-- What a value becomes that stands for itself: a string what `quoted` has under its key, any other value
its literal. -/
inductive ArrivesAs (quoted : String → List Char) (key : String) : Value → List Char → Prop
  | text (s : String) : ArrivesAs quoted key (.text s) (quoted key)
  | other {v : Value} {out : List Char} (hv : ∀ s, v ≠ .text s) (hout : v.literal key = .ok out) :
    ArrivesAs quoted key v out

end Value

/-- What a piece of bare text becomes. -/
inductive Placeholder.Arrival (args : Arguments) (quoted : String → List Char) :
    Piece Placeholder → List Char → Prop
  | plain (c : Char) : Arrival args quoted (.plain c) [c]
  | unsupplied {p : Placeholder} (t : List Char) (hp : args.get? p.key = none) :
    Arrival args quoted (.found p t) t
  | supplied {p : Placeholder} {v : Value} {out : List Char} (t : List Char)
    (hp : args.get? p.key = some v) (hout : v.ArrivesAs quoted p.key out) :
    Arrival args quoted (.found p t) out

/-- What a segment becomes. A literal is one placeholder with an argument and nothing else, or it is longer:
then no null stands in it, and undoubling the quotes of what it becomes gives the undoubled template with the
arguments put in as they are. -/
inductive Segment.Arrival (args : Arguments) (quoted : String → List Char) :
    Segment → List Char → Prop
  | verbatim (t : List Char) : Arrival args quoted (.verbatim t) t
  | bare {t : List Char} {parts : List (List Char)}
    (hparts : List.Forall₂ (Placeholder.Arrival args quoted) (pieces Placeholder.find t) parts) :
    Arrival args quoted (.bare t) parts.flatten
  | whole {body out : List Char} {p : Placeholder} {v : Value} (hbody : Placeholder.whole? body = some p)
    (hp : args.get? p.key = some v) (hout : v.ArrivesAs quoted p.key out) :
    Arrival args quoted (.literal body) out
  | longer {body out : List Char}
    (hbody : ∀ p, Placeholder.whole? body = some p → args.get? p.key = none)
    (hnull : ∀ p ∈ Placeholder.all body, args.get? p.key ≠ some .null)
    (hout : Value.Quotes out (Placeholder.filled args (unescape body))) :
    Arrival args quoted (.literal body) out

/-- The literal of the string argument `key`. -/
def Arguments.quoted (args : Arguments) (key : String) : List Char :=
  (args.literalText? key).getD []

variable {args : Arguments}

theorem Arguments.quoted_eq {key : String} {s : String} (h : args.get? key = some (.text s)) :
    args.quoted key = quote s.toList := by
  rw [quoted, literalText?, h]
  rfl

/-- The literal of an argument is what its value arrives as. -/
theorem Value.arrivesAs_of_literal {key : String} {v : Value} {out : List Char}
    (hv : args.get? key = some v) (h : v.literal key = .ok out) :
    v.ArrivesAs args.quoted key out := by
  by_cases htext : ∃ s, v = .text s
  · obtain ⟨s, rfl⟩ := htext
    cases h
    rw [← Arguments.quoted_eq hv]
    exact .text s
  · exact .other (fun s hs => htext ⟨s, hs⟩) h

/-- Outside literals every piece arrives. -/
theorem Placeholder.arrival_of_put {piece : Piece Placeholder} {out : List Char}
    (h : put args.literal? piece = .ok out) : Arrival args args.quoted piece out := by
  cases piece with
  | plain c => cases h; exact .plain c
  | found p t =>
    rw [put, Arguments.literal?] at h
    cases hv : args.get? p.key with
    | none =>
      rw [hv] at h
      cases h
      exact .unsupplied out hv
    | some v =>
      rw [hv] at h
      exact .supplied t hv (Value.arrivesAs_of_literal hv h)

namespace Segment

/-- A literal that is rendered and is not one placeholder with an argument arrives with its quotes
doubled. -/
theorem quotes_of_replace {s inner : List Char}
    (h : Placeholder.replace args.embedded? (escape s) = .ok inner) :
    Value.Quotes ('\'' :: inner ++ ['\'']) (Placeholder.filled args (unescape (escape s))) := by
  rw [Placeholder.replace_embedded?_escape h, Value.unescape_escape]
  exact Value.quotes_quote _

/-- No null stands in a literal that is rendered as a text. -/
theorem ne_null_of_replace (haccepted : args.Accepted) {body inner : List Char}
    (h : Placeholder.replace args.embedded? body = .ok inner) :
    ∀ p ∈ Placeholder.all body, args.get? p.key ≠ some .null := by
  intro p hp hnull
  have hmem : p.key ∈ ((Placeholder.all body).map (·.key)).filter args.isNull := by
    refine List.mem_filter.mpr ⟨List.mem_map_of_mem hp, ?_⟩
    rw [Arguments.isNull, hnull]
    rfl
  obtain ⟨key, hkey⟩ := Option.isSome_iff_exists.mp (List.isSome_head?.mpr (List.ne_nil_of_mem hmem))
  have herror := (replace_embedded?_eq_error_iff haccepted).mpr (congrArg (Option.map Error.ofNull) hkey)
  rw [h] at herror
  cases herror

/-- A literal whose quotes are doubled arrives. -/
theorem arrival_literal (haccepted : args.Accepted) {s out : List Char}
    (h : render args (.literal (escape s)) = .ok out) :
    Arrival args args.quoted (.literal (escape s)) out := by
  rw [render] at h
  cases hvalue : (Placeholder.whole? (escape s)).bind fun p => args.literal? p.key with
  | some encoded =>
    obtain ⟨p, hp, hliteral⟩ := Option.bind_eq_some_iff.mp hvalue
    obtain ⟨v, hv, hencoded⟩ := Option.map_eq_some_iff.mp hliteral
    rw [hvalue] at h
    exact .whole hp hv (Value.arrivesAs_of_literal hv (hencoded.trans h))
  | none =>
    rw [hvalue] at h
    obtain ⟨inner, hinner, rfl⟩ := map_eq_ok_iff.mp h
    refine .longer (fun p hp => ?_) (ne_null_of_replace haccepted hinner) (quotes_of_replace hinner)
    rw [hp, Option.bind_some] at hvalue
    exact Option.map_eq_none_iff.mp hvalue

/-- Segments that follow from their text arrive. -/
theorem arrival_of_forall₂ (haccepted : args.Accepted) {segments : List Segment}
    {parts : List (List Char)} (hl : Linked segments)
    (h : List.Forall₂ (fun seg part => render args seg = .ok part) segments parts) :
    List.Forall₂ (Arrival args args.quoted) segments parts := by
  induction h with
  | nil => exact .nil
  | @cons seg part segments parts hseg _ ih =>
    cases seg with
    | verbatim t => cases hseg; exact .cons (.verbatim _) (ih hl.2)
    | bare t =>
      obtain ⟨pieces, hpieces, rfl⟩ := Placeholder.replace_eq_ok_iff.mp hseg
      exact .cons (.bare (hpieces.imp fun _ _ => Placeholder.arrival_of_put)) (ih hl.2)
    | literal body =>
      obtain ⟨⟨s, rfl⟩, hl⟩ := hl
      exact .cons (arrival_literal haccepted hseg) (ih hl)

end Segment

/-- Values arrive unaltered. Where a template with these segments is rendered, the query is made of what each
of them becomes. A placeholder with a string, outside literals or as a whole literal, becomes a literal that
undoubles to the string, and it depends only on the key which one. Any other literal becomes one with doubled
quotes that undoubles to the undoubled template with the arguments put in as they are. -/
theorem PreparedTemplate.values_arrive {t : PreparedTemplate} {q : CompiledQuery}
    {segments : List Segment} (hs : Segment.split t.text.toList = .ok segments)
    (h : t.render args = .ok q) :
    ∃ quoted : String → List Char,
      (∀ key s, args.get? key = some (.text s) → Value.Quotes (quoted key) s.toList) ∧
      ∃ parts : List (List Char), q.query.toList = parts.flatten ∧
        List.Forall₂ (Segment.Arrival args quoted) segments parts := by
  obtain ⟨hcheck, segments', parts, hs', hparts, rfl⟩ := render_eq_ok_iff.mp h
  obtain rfl : segments = segments' := Except.ok.inj (hs.symm.trans hs')
  refine ⟨args.quoted, fun key s hkey => ?_, parts, String.toList_ofList, ?_⟩
  · rw [Arguments.quoted_eq hkey]
    exact Value.quotes_quote _
  · exact Segment.arrival_of_forall₂ (Arguments.check_eq_ok_iff.mp hcheck)
      (Segment.linked_of_split hs).2 hparts

/-- A string with a quote arrives outside literals and behind a quote of the template. -/
theorem PreparedTemplate.quote_arrives :
    ∃ quoted : String → List Char, Value.Quotes (quoted "x") "it's".toList ∧
      ∃ parts : List (List Char), "SELECT 'it''s', '''it''s'".toList = parts.flatten ∧
        List.Forall₂ (Segment.Arrival (.ofList [("x", .text "it's")]) quoted)
          [.bare "SELECT $source.x, ".toList, .literal "''$args.x".toList] parts := by
  have hrender : render ⟨"SELECT $source.x, '''$args.x'", .read⟩ (.ofList [("x", .text "it's")]) =
      .ok ⟨"SELECT 'it''s', '''it''s'", .read⟩ := rfl
  obtain ⟨quoted, hquoted, hparts⟩ :=
    @values_arrive _ ⟨"SELECT $source.x, '''$args.x'", .read⟩ _
      [.bare "SELECT $source.x, ".toList, .literal "''$args.x".toList] rfl hrender
  exact ⟨quoted, hquoted "x" "it's" rfl, hparts⟩

end SchemaQuery
