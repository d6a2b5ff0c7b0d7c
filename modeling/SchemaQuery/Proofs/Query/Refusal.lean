import SchemaQuery.Proofs.Query.Rendering
import SchemaQuery.Proofs.Query.Zone
import SchemaQuery.Proofs.Collection.Dictionary

/-!
What rendering refuses. Arguments are looked at first, whether or not the template mentions them, then the
regions of the template, and then the nulls that would have to stand inside a literal: the first of these
that there is decides the error. A template that has been prepared closes all its regions, so what is left
to go wrong when it is rendered is an argument.
-/

namespace SchemaQuery

open Text

/-- The error says that an argument cannot be put into a query. -/
def Error.RefusesArgument : Error → Prop
  | .validation _ | .unsupportedType _ _ => True
  | _ => False

theorem Error.RefusesArgument.isCompileTime {e : Error} (h : e.RefusesArgument) :
    e.isCompileTime = true := by
  cases e with
  | validation _ | unsupportedType _ _ => rfl
  | _ => exact h.elim

namespace Value

/-- Why the value of the argument `key` has no literal, if it has none. -/
def refusal? (key : String) : Value → Option Error
  | .float (.infinite _) | .float .notANumber => some (.validation (.notFinite key))
  | .list _ => some (.unsupportedType key "list")
  | .object _ => some (.unsupportedType key "object")
  | .null | .bool _ | .int _ | .float (.finite _) | .text _ => none

/-- Whether a value is null. -/
def isNull : Value → Bool
  | .null => true
  | _ => false

theorem literal_eq_error_iff {key : String} {v : Value} {e : Error} :
    v.literal key = .error e ↔ v.refusal? key = some e := by
  cases v with
  | null | int n | text s => simp [literal, refusal?]
  | bool b => cases b <;> simp [literal, refusal?]
  | float x => cases x <;> simp [literal, refusal?]
  | list items | object fields => simp [literal, refusal?, kind, ValueKind.name]

theorem refuses_of_refusal? {key : String} {v : Value} {e : Error} (h : v.refusal? key = some e) :
    e.RefusesArgument := by
  unfold refusal? at h
  split at h <;> cases h <;> trivial

/-- Inside a literal, of the values that have one only a null is refused. -/
theorem embedded_eq_error_iff {key : String} {v : Value} {e : Error} (h : v.refusal? key = none) :
    v.embedded key = .error e ↔ v.isNull = true ∧ .validation (.nullInLiteral key) = e := by
  have hliteral : v.literal key ≠ .error e := by
    rw [Ne, literal_eq_error_iff, h]
    simp
  cases v with
  | null => simp [embedded, isNull]
  | text s => simp [embedded, isNull]
  | bool _ | int _ | float _ | list _ | object _ =>
    exact iff_of_false hliteral (by simp [isNull])

end Value

/-- The error of a null inside a literal. -/
def Error.ofNull (key : String) : Error := .validation (.nullInLiteral key)

/-! ### Arguments -/

namespace Arguments

variable {args : Arguments}

/-- No argument is refused. -/
def Accepted (args : Arguments) : Prop :=
  ∀ key v, args.get? key = some v → v.refusal? key = none

/-- The error of the refused argument with the least key. -/
def FirstRefusal (args : Arguments) (e : Error) : Prop :=
  ∃ key v, args.get? key = some v ∧ v.refusal? key = some e ∧
    ∀ k u, args.get? k = some u → (u.refusal? k).isSome = true → key ≤ k

/-- Whether there is an argument of this name and it is null. -/
def isNull (args : Arguments) (key : String) : Bool := (args.get? key).any Value.isNull

/-- Arguments are checked in the order of their keys. -/
theorem check_eq_error_iff {e : Error} : args.check = .error e ↔ args.FirstRefusal e := by
  have hfault (entry : String × Value) (e : Error) :
      (entry.2.literal entry.1).map (fun _ => ()) = .error e ↔ entry.2.refusal? entry.1 = some e :=
    map_eq_error_iff.trans Value.literal_eq_error_iff
  rw [check, forM_eq_error_iff_findSome? hfault]
  exact Dictionary.findSome?_entries_eq_some_iff (g := Value.refusal?)

theorem check_eq_ok_iff : args.check = .ok () ↔ args.Accepted := by
  have hok (key : String) (v : Value) :
      (v.literal key).map (fun _ => ()) = .ok () ↔ v.refusal? key = none := by
    rw [Option.eq_none_iff_forall_ne_some]
    simp only [Ne, ← Value.literal_eq_error_iff]
    cases v.literal key <;> simp [Except.map]
  rw [check, forM_eq_ok_iff]
  simp only [Prod.forall, hok, ← Dictionary.get?_eq_some_iff]
  rfl

end Arguments

/-! ### Placeholders -/

/-- What replacing placeholders fails for is the first placeholder whose replacement fails. -/
theorem Placeholder.replace_eq_error_iff {f : String → Option (Except Error (List Char))}
    {fault : String → Option Error} (h : ∀ key e, f key = some (.error e) ↔ fault key = some e)
    {s : List Char} {e : Error} :
    replace f s = .error e ↔ (all s).findSome? (fun p => fault p.key) = some e := by
  have hall : (all s).findSome? (fun p => fault p.key) =
      (pieces find s).findSome? fun piece => piece.item?.bind fun p => fault p.key := by
    rw [all, items, ← List.head?_filterMap, List.filterMap_filterMap, List.head?_filterMap]
  rw [replace_eq, map_eq_error_iff, hall]
  refine mapM_eq_error_iff_findSome? fun piece e => ?_
  cases piece with
  | plain c => simp [put, Piece.item?]
  | found p t =>
    change (f p.key).getD (.ok t) = .error e ↔ fault p.key = some e
    rw [← h]
    cases f p.key <;> simp

/-! ### Segments -/

namespace Segment

/-- The nulls that a segment would put inside a literal, by the keys of their placeholders, from left to
right. A literal that is exactly one placeholder is replaced as a whole, also by a null. -/
def nulls (args : Arguments) : Segment → List String
  | .literal body =>
    if (Placeholder.whole? body).isSome then []
    else ((Placeholder.all body).map (·.key)).filter args.isNull
  | _ => []

variable {args : Arguments}

/-- Outside literals, accepted arguments can be put in. -/
theorem replace_literal?_ne_error (h : args.Accepted) (s : List Char) (e : Error) :
    Placeholder.replace args.literal? s ≠ .error e := by
  obtain ⟨out, hout⟩ := Placeholder.exists_replace_eq_ok
    (fun key e he => Arguments.literal?_of_check (Arguments.check_eq_ok_iff.mpr h) he) s
  rw [hout]
  simp

/-- Inside a literal, putting in accepted arguments fails for the first null. -/
theorem replace_embedded?_eq_error_iff (h : args.Accepted) {s : List Char} {e : Error} :
    Placeholder.replace args.embedded? s = .error e ↔
      (((Placeholder.all s).map (·.key)).filter args.isNull).head?.map .ofNull = some e := by
  have hfault (key : String) (e : Error) : args.embedded? key = some (.error e) ↔
      (if args.isNull key then some (Error.ofNull key) else none) = some e := by
    rw [Arguments.embedded?, Arguments.isNull]
    cases hv : args.get? key with
    | none => simp
    | some v =>
      rw [Option.map_some, Option.some.injEq, Value.embedded_eq_error_iff (h key v hv),
        Option.any_some, Option.ite_none_right_eq_some, Option.some.injEq]
      rfl
  have hfirst (ps : List Placeholder) : ((ps.map (·.key)).filter args.isNull).head?.map Error.ofNull =
      ps.findSome? fun p => if args.isNull p.key then some (Error.ofNull p.key) else none := by
    induction ps with
    | nil => rfl
    | cons p ps ih =>
      rw [List.map_cons, List.filter_cons, List.findSome?_cons]
      cases args.isNull p.key with
      | true => rfl
      | false => exact ih
  rw [Placeholder.replace_eq_error_iff hfault, hfirst]

theorem all_of_whole? {body : List Char} {p : Placeholder} (h : Placeholder.whole? body = some p) :
    Placeholder.all body = [p] := by
  unfold Placeholder.whole? at h
  split at h
  · next q t hpieces =>
    cases h
    rw [Placeholder.all, items, hpieces]
    rfl
  · cases h

/-- Rendering a segment with accepted arguments fails for the first null that it would put inside a
literal. -/
theorem render_eq_error_iff (h : args.Accepted) {seg : Segment} {e : Error} :
    seg.render args = .error e ↔ (seg.nulls args).head?.map .ofNull = some e := by
  cases seg with
  | verbatim t => simp [render, nulls]
  | bare t => exact iff_of_false (replace_literal?_ne_error h t e) (by simp [nulls])
  | literal body =>
    rw [render, nulls]
    cases hwhole : Placeholder.whole? body with
    | none =>
      change _ <$> Placeholder.replace args.embedded? body = .error e ↔ _
      exact map_eq_error_iff.trans (replace_embedded?_eq_error_iff h)
    | some p =>
      refine iff_of_false ?_ (by simp)
      rw [Option.bind_some]
      cases hliteral : args.literal? p.key with
      | some encoded =>
        obtain ⟨t, rfl⟩ := Arguments.literal?_of_check (Arguments.check_eq_ok_iff.mpr h) hliteral
        simp
      | none =>
        -- The placeholder has no argument, so it is no null.
        have hget : args.get? p.key = none := Option.map_eq_none_iff.mp hliteral
        refine mt map_eq_error_iff.mp ?_
        rw [replace_embedded?_eq_error_iff h, all_of_whole? hwhole]
        simp [Arguments.isNull, hget]

end Segment

namespace PreparedTemplate

open Segment (Zone split nulls)

variable {t : PreparedTemplate} {args : Arguments} {e : Error}

/-- Rendering fails for a refused argument, or else for a region that is not closed, or else for a null
inside a literal; of each, for the first one. -/
theorem render_eq_error_iff :
    t.render args = .error e ↔ args.FirstRefusal e ∨ args.Accepted ∧
      ((∃ region, split t.text.toList = .error region ∧ .ofRegion region = e) ∨
        ∃ segments key, split t.text.toList = .ok segments ∧
          (segments.flatMap (nulls args)).head? = some key ∧ .ofNull key = e) := by
  have hwalk (h : args.Accepted) (segments : List Segment) :
      segments.mapM (Segment.render args) = .error e ↔
        ∃ key, (segments.flatMap (nulls args)).head? = some key ∧ .ofNull key = e := by
    rw [mapM_eq_error_iff_findSome? fun seg e => Segment.render_eq_error_iff h,
      ← Option.map_eq_some_iff, List.head?_flatMap, List.map_findSome?]
    rfl
  refine map_eq_error_iff.trans ?_
  rw [renderText, bind_eq_error_iff, Arguments.check_eq_error_iff]
  refine or_congr_right ⟨?_, ?_⟩
  · rintro ⟨⟨⟩, hcheck, h⟩
    have haccepted := Arguments.check_eq_ok_iff.mp hcheck
    refine ⟨haccepted, ?_⟩
    rcases bind_eq_error_iff.mp h with h | ⟨segments, hsegments, h⟩
    · exact .inl (mapError_eq_error_iff.mp h)
    · rcases bind_eq_error_iff.mp h with h | ⟨parts, -, h⟩
      · exact .inr ⟨segments, ((hwalk haccepted segments).mp h).imp fun key hkey =>
          ⟨mapError_eq_ok_iff.mp hsegments, hkey⟩⟩
      · cases h
  · rintro ⟨haccepted, h⟩
    refine ⟨(), Arguments.check_eq_ok_iff.mpr haccepted, bind_eq_error_iff.mpr ?_⟩
    rcases h with h | ⟨segments, key, hsegments, hkey⟩
    · exact .inl (mapError_eq_error_iff.mpr h)
    · refine .inr ⟨segments, mapError_eq_ok_iff.mpr hsegments, bind_eq_error_iff.mpr (.inl ?_)⟩
      exact (hwalk haccepted segments).mpr ⟨key, hkey⟩

/-- A template that closes all its regions fails to be rendered only for an argument. -/
theorem refuses_of_render {segments : List Segment} (hs : split t.text.toList = .ok segments)
    (h : t.render args = .error e) : e.RefusesArgument := by
  rcases render_eq_error_iff.mp h with ⟨key, v, -, hv, -⟩ | ⟨-, ⟨region, hregion, -⟩ | h⟩
  · exact Value.refuses_of_refusal? hv
  · rw [hs] at hregion
    cases hregion
  · obtain ⟨-, key, -, -, rfl⟩ := h
    trivial

/-- Rendering gives a query exactly if no argument is refused, every region is closed and no null would
stand inside a literal. -/
theorem exists_render_eq_ok_iff :
    (∃ q, t.render args = .ok q) ↔ args.Accepted ∧ ∃ segments,
      split t.text.toList = .ok segments ∧ segments.flatMap (nulls args) = [] := by
  constructor
  · rintro ⟨q, hq⟩
    obtain ⟨hcheck, segments, -, hsegments, -, -⟩ := render_eq_ok_iff.mp hq
    have haccepted := Arguments.check_eq_ok_iff.mp hcheck
    refine ⟨haccepted, segments, hsegments, ?_⟩
    cases hnulls : segments.flatMap (nulls args) with
    | nil => rfl
    | cons key keys =>
      have herror := render_eq_error_iff.mpr
        (.inr ⟨haccepted, .inr ⟨segments, key, hsegments, by rw [hnulls]; rfl, rfl⟩⟩)
      rw [hq] at herror
      cases herror
  · rintro ⟨haccepted, segments, hsegments, hnulls⟩
    cases hrender : t.render args with
    | ok q => exact ⟨q, rfl⟩
    | error e =>
      rcases render_eq_error_iff.mp hrender with ⟨key, v, hget, hv, -⟩ | ⟨-, ⟨region, hregion, -⟩ | h⟩
      · rw [haccepted key v hget] at hv
        cases hv
      · rw [hsegments] at hregion
        cases hregion
      · obtain ⟨segments', key, hsegments', hkey, -⟩ := h
        obtain rfl : segments = segments' := Except.ok.inj (hsegments.symm.trans hsegments')
        rw [hnulls] at hkey
        cases hkey

/-- Exactly when rendering fails, and for what. If any argument is a float that is not finite, a list or an
object, it fails for the one of these with the least key, whether or not the template mentions it; or else,
if the template ends inside a literal, a quoted identifier or a block comment, for that region; or else, if a
null would stand inside a literal that is not one placeholder alone, for the first such null of the text.
Otherwise it gives a query. All its errors are errors of making a query, and with an error there is none. -/
theorem render_failures (t : PreparedTemplate) (args : Arguments) :
    (∀ e, t.render args = .error e ↔ args.FirstRefusal e ∨ args.Accepted ∧
      ((∃ region, (Zone.after .bare t.text.toList).unclosed? = some region ∧
          e = .compile (.unterminated region)) ∨
        ∃ segments key, split t.text.toList = .ok segments ∧
          (segments.flatMap (nulls args)).head? = some key ∧
          e = .validation (.nullInLiteral key))) ∧
    ((∃ q, t.render args = .ok q) ↔ args.Accepted ∧ ∃ segments,
      split t.text.toList = .ok segments ∧ segments.flatMap (nulls args) = []) ∧
    ∀ e, t.render args = .error e → e.isCompileTime = true ∧ ∀ q, t.render args ≠ .ok q := by
  refine ⟨fun e => ?_, exists_render_eq_ok_iff, fun e h => ⟨?_, fun q hq => ?_⟩⟩
  · simp only [eq_comm (a := e), ← Segment.split_eq_error_iff]
    exact render_eq_error_iff
  · rcases render_eq_error_iff.mp h with ⟨key, v, -, hv, -⟩ | ⟨-, ⟨region, -, rfl⟩ | h⟩
    · exact (Value.refuses_of_refusal? hv).isCompileTime
    · rfl
    · obtain ⟨-, key, -, -, rfl⟩ := h
      rfl
  · rw [h] at hq
    cases hq

end PreparedTemplate

end SchemaQuery
