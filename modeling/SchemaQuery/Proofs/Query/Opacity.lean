import SchemaQuery.Proofs.Query.Resolution
import SchemaQuery.Proofs.Query.Zone

/-!
Comments and quoted identifiers of a prepared template. Macros are replaced before the text is cut into
regions, so a macro that begins inside a comment or a quoted identifier is replaced like any other; and
where it begins in a line comment and goes on behind the newline, the comment grows by what follows. It
is only these macros that make a difference: elsewhere neither a macro nor a dotted word holds a sign
that the scan looks for, and both are passed over alike.
-/

namespace SchemaQuery

open Text
open Segment (Zone verbatims verbatimsFrom gather)
open Segment.Zone (signs)

namespace JoinMacro

/-- Some macro of a text that begins in a zone stands inside a comment or a quoted identifier, with its
dollar sign at least. -/
def HiddenFrom (zone : Zone) (s : List Char) : Prop :=
  ∃ before name written behind, s = before ++ '$' :: (written ++ behind) ∧ IsTail name written ∧
    (zone.after before).isVerbatim = true

/-- Outside comments and quoted identifiers, a scan passes over a macro. -/
theorem IsTail.passes {name : String} {written : List Char} (hw : IsTail name written) {zone : Zone}
    (hz : zone.isVerbatim = false) : ∀ c ∈ '$' :: written, zone.Passes c := by
  intro c hc
  refine Zone.passes_of_isVerbatim hz fun hsign => ?_
  rcases List.mem_cons.mp hc with rfl | hc
  · exact absurd hsign (by decide)
  · have hmark := List.mem_append_left ['$'] hsign
    rcases hw.char_cases hc with hpart | hblank | rfl | rfl
    · exact IsPlainPart.notMem (.inl hpart) hmark
    · exact notMem_of_isBlank hblank hmark
    · exact absurd hsign (by decide)
    · exact absurd hsign (by decide)

/-- In front of a dollar sign, a scan steps as it does where the text ends. -/
theorem step_append_dollar {zone next : Zone} {c : Char} {taken : Bool} {before r : List Char}
    (h : zone.step c (before ++ '$' :: r).head? = (next, taken)) :
    zone.step c before.head? = (next, taken) := by
  cases before with
  | nil => rwa [List.nil_append, List.head?_cons, Zone.step_dollar] at h
  | cons d before => exact h

/-- A character that begins no macro hides none. -/
theorem hiddenFrom_cons {zone next : Zone} {c : Char} {s : List Char} (hf : find c s = none)
    (h : zone.step c s.head? = (next, false)) : HiddenFrom zone (c :: s) ↔ HiddenFrom next s := by
  constructor
  · rintro ⟨before, name, written, behind, hs, hw, hz⟩
    cases before with
    | nil => exact absurd ⟨name, written, behind, hs, hw⟩ (not_begins hf)
    | cons d before =>
      obtain ⟨rfl, rfl⟩ := List.cons.inj hs
      rw [Zone.after_cons (step_append_dollar h)] at hz
      exact ⟨before, name, written, behind, rfl, hw, hz⟩
  · rintro ⟨before, name, written, behind, rfl, hw, hz⟩
    refine ⟨c :: before, name, written, behind, rfl, hw, ?_⟩
    rwa [Zone.after_cons (step_append_dollar h)]

/-- Two characters that are read together hide no macro. -/
theorem hiddenFrom_cons_cons {zone next : Zone} {c d : Char} {s : List Char}
    (hf : find c (d :: s) = none) (h : zone.step c (some d) = (next, true)) :
    HiddenFrom zone (c :: d :: s) ↔ HiddenFrom next s := by
  constructor
  · rintro ⟨before, name, written, behind, hs, hw, hz⟩
    cases before with
    | nil => exact absurd ⟨name, written, behind, hs, hw⟩ (not_begins hf)
    | cons c' before =>
      obtain ⟨rfl, htail⟩ := List.cons.inj hs
      cases before with
      | nil =>
        obtain ⟨rfl, -⟩ := List.cons.inj htail
        obtain ⟨d, hd, hdollar⟩ := Zone.mem_signs_of_step h
        cases hdollar
        exact absurd hd (by decide)
      | cons d' before =>
        obtain ⟨rfl, rfl⟩ := List.cons.inj htail
        rw [Zone.after_cons_cons h] at hz
        exact ⟨before, name, written, behind, rfl, hw, hz⟩
  · rintro ⟨before, name, written, behind, rfl, hw, hz⟩
    refine ⟨c :: d :: before, name, written, behind, rfl, hw, ?_⟩
    rwa [Zone.after_cons_cons h]

/-- A macro outside comments and quoted identifiers hides none. -/
theorem hiddenFrom_put {zone : Zone} (hz : zone.isVerbatim = false) {name : String}
    {written s : List Char} (hw : IsTail name written) :
    HiddenFrom zone ('$' :: (written ++ s)) ↔ HiddenFrom zone s := by
  have hafter (before : List Char) :
      zone.after ('$' :: (written ++ before)) = zone.after before :=
    Zone.after_append (hw.passes hz) before
  constructor
  · rintro ⟨before, name', written', behind, hs, hw', hz'⟩
    cases before with
    | nil =>
      rw [Zone.after, hz] at hz'
      cases hz'
    | cons c before =>
      obtain ⟨rfl, htail⟩ := List.cons.inj hs
      -- A macro has no second dollar sign, so the next one begins behind it.
      obtain ⟨before, rfl, rfl⟩ := exists_of_append_eq_append_cons hw.dollar_notMem htail
      rw [hafter] at hz'
      exact ⟨before, name', written', behind, rfl, hw', hz'⟩
  · rintro ⟨before, name', written', behind, rfl, hw', hz'⟩
    refine ⟨'$' :: (written ++ before), name', written', behind, by simp, hw', ?_⟩
    rwa [hafter]

end JoinMacro

namespace JoinTables

variable {t : JoinTables}

theorem Proper.passes (ht : t.Proper) {name physical : String} (hp : t.get? name = some physical)
    (zone : Zone) : ∀ c ∈ physical.toList, zone.Passes c := by
  intro c hc
  have hpart := isPlainPart_of_isDottedFrom (ht name physical hp) c hc
  refine Zone.passes_of_notMem (fun hm => ?_) zone
  rcases List.mem_cons.mp hm with rfl | hsign
  · exact absurd hpart (by unfold IsPlainPart; decide)
  · exact hpart.notMem (List.mem_append_left ['$'] hsign)

/-- In front of what becomes of a text, a scan steps as in front of the text. -/
theorem Resolves.step_head? {s s' : List Char} (h : t.Resolves s s') (ht : t.Proper) (zone : Zone)
    (c : Char) : zone.step c s'.head? = zone.step c s.head? := by
  rcases h.head?_cases ht with ⟨-, hhead⟩ | ⟨-, hs, d, r, rfl, hd⟩
  · rw [hhead]
  · have hword : ∀ d' ∈ some d, d' ∉ signs := by
      rintro d' ⟨⟩ hsign
      have hpart : IsPlainPart d := .inl (isWordPart_of_isWordStart hd)
      exact hpart.notMem (List.mem_append_left ['$'] hsign)
    rw [hs, List.head?_cons, Zone.step_dollar, Zone.step_of_notMem hword]

/-- A text and what becomes of it have the same comments and quoted identifiers, or else a macro stands
in one of them, and where the text has segments the two differ in them. -/
def Settled (zone : Zone) (s s' : List Char) : Prop :=
  ¬ JoinMacro.HiddenFrom zone s ∧ verbatimsFrom zone s' = verbatimsFrom zone s ∨
    JoinMacro.HiddenFrom zone s ∧
      ∀ found, verbatimsFrom zone s = .ok found → verbatimsFrom zone s' ≠ .ok found

/-- What is settled behind a step is settled in front of it. -/
theorem Settled.of_step {zone next : Zone} {read s s' r r' : List Char} (h : Settled next r r')
    (hhidden : JoinMacro.HiddenFrom zone s ↔ JoinMacro.HiddenFrom next r)
    (hs : verbatimsFrom zone s = (verbatimsFrom next r).map (gather zone next read))
    (hs' : verbatimsFrom zone s' = (verbatimsFrom next r').map (gather zone next read)) :
    Settled zone s s' := by
  rcases h with ⟨hn, heq⟩ | ⟨hh, hne⟩
  · exact .inl ⟨mt hhidden.mp hn, by rw [hs, hs', heq]⟩
  · refine .inr ⟨hhidden.mpr hh, fun found hfound hfound' => ?_⟩
    rw [hs] at hfound
    rw [hs'] at hfound'
    obtain ⟨rest, hrest, rfl⟩ := map_eq_ok_iff.mp hfound
    obtain ⟨rest', hrest', heq⟩ := map_eq_ok_iff.mp hfound'
    obtain rfl := Segment.gather_inj (fun hz => Segment.ne_nil_of_verbatimsFrom hz hrest')
      (fun hz => Segment.ne_nil_of_verbatimsFrom hz hrest) heq
    exact hne rest' hrest hrest'

/-- What becomes of a text has the same comments and quoted identifiers exactly if no macro stands in one
of them. -/
theorem Resolves.settled {s s' : List Char} (h : t.Resolves s s') (ht : t.Proper) (zone : Zone) :
    Settled zone s s' := by
  induction hlen : s.length using Nat.strongRecOn generalizing zone s s' with
  | ind k ih =>
    subst hlen
    cases h with
    | nil =>
      refine .inl ⟨?_, rfl⟩
      rintro ⟨before, name, written, behind, hs, -, -⟩
      simp at hs
    | @plain c s s' hf h =>
      obtain ⟨⟨next, taken⟩, hstep⟩ : ∃ step, zone.step c s.head? = step := ⟨_, rfl⟩
      have hstep' : zone.step c s'.head? = (next, taken) := (h.step_head? ht zone c).trans hstep
      cases taken with
      | false =>
        exact (ih s.length (by simp) h next rfl).of_step (JoinMacro.hiddenFrom_cons hf hstep)
          (Segment.verbatimsFrom_cons hstep) (Segment.verbatimsFrom_cons hstep')
      | true =>
        -- A sign that is read with the one in front of it begins no macro.
        obtain ⟨d, hd, hhead⟩ := Zone.mem_signs_of_step hstep
        obtain ⟨s, rfl⟩ := List.head?_eq_some_iff.mp hhead
        rw [List.head?_cons] at hstep
        cases h with
        | put hw hp h => exact absurd hd (by decide)
        | plain hfd h =>
          have hlt : s.length < (c :: d :: s).length := by
            rw [List.length_cons, List.length_cons]
            omega
          exact (ih s.length hlt h next rfl).of_step
            (JoinMacro.hiddenFrom_cons_cons hf hstep) (Segment.verbatimsFrom_cons_cons hstep)
            (Segment.verbatimsFrom_cons_cons hstep)
    | @put name physical written s s' hw hp h =>
      cases hz : zone.isVerbatim with
      | false =>
        have hlt : s.length < ('$' :: (written ++ s)).length := by
          rw [List.length_cons, List.length_append]
          omega
        have hs : verbatimsFrom zone ('$' :: (written ++ s)) = verbatimsFrom zone s :=
          Segment.verbatimsFrom_append hz (hw.passes hz) s
        have hs' := Segment.verbatimsFrom_append hz (ht.passes hp zone) s'
        rw [Settled, JoinMacro.hiddenFrom_put hz hw, hs, hs']
        exact ih s.length hlt h zone rfl
      | true =>
        obtain ⟨c, r, hr, hc⟩ := exists_cons_of_isDottedWord (ht name physical hp)
        have hpc : zone.Passes c := ht.passes hp zone c (by simp [hr])
        have hne : '$' ≠ c := by
          rintro rfl
          exact absurd hc (by decide)
        refine .inr ⟨⟨[], name, written, s, rfl, hw, hz⟩, fun found hfound => ?_⟩
        rw [hr]
        exact Segment.verbatimsFrom_ne hz (Zone.passes_of_notMem (by decide) zone) hpc hne hfound

/-- A prepared template has the comments and quoted identifiers of its template, byte for byte and in
their order, exactly if no macro of the template begins inside one of them. -/
theorem verbatims_prepare_iff {naming : TableNaming} {names : List String} {template : String}
    {prepared : PreparedTemplate} (ht : build naming names = .ok t)
    (hp : t.prepare template = .ok prepared) :
    (∃ segments found, Segment.split template.toList = .ok segments ∧
        Segment.split prepared.text.toList = .ok found ∧ verbatims found = verbatims segments) ↔
      ¬ JoinMacro.HiddenFrom .bare template.toList := by
  obtain ⟨-, htext, found, hfound⟩ := prepare_eq_ok_iff.mp hp
  have hverbatims : verbatimsFrom .bare prepared.text.toList = .ok (verbatims found) := by
    rw [Segment.verbatimsFrom_bare, hfound]
    rfl
  have hsettled := (resolves_of_resolve htext).settled (proper_of_build ht) .bare
  constructor
  · rintro ⟨segments, found', hsegments, hfound', heq⟩ hhidden
    obtain rfl : found = found' := Except.ok.inj (hfound.symm.trans hfound')
    rcases hsettled with ⟨hn, -⟩ | ⟨-, hne⟩
    · exact hn hhidden
    · refine hne (verbatims segments) ?_ (heq ▸ hverbatims)
      rw [Segment.verbatimsFrom_bare, hsegments]
      rfl
  · intro hn
    rcases hsettled with ⟨-, heq⟩ | ⟨hhidden, -⟩
    · rw [hverbatims, Segment.verbatimsFrom_bare] at heq
      obtain ⟨segments, hsegments, hv⟩ := map_eq_ok_iff.mp heq.symm
      exact ⟨segments, found, hsegments, hfound, hv.symm⟩
    · exact absurd hhidden hn

/-- A macro that is a quoted identifier is replaced like any other. -/
theorem verbatims_prepare_quotedMacro :
    ∃ t prepared, build ⟨"jt_", ∅⟩ ["a"] = .ok t ∧
      t.prepare "SELECT \"$join_table(a)\"" = .ok prepared ∧
      ¬ ∃ segments found, Segment.split "SELECT \"$join_table(a)\"".toList = .ok segments ∧
        Segment.split prepared.text.toList = .ok found ∧ verbatims found = verbatims segments := by
  have ht : build ⟨"jt_", ∅⟩ ["a"] = .ok ⟨Dictionary.ofList [("a", "jt_a")]⟩ := rfl
  have hp : prepare ⟨Dictionary.ofList [("a", "jt_a")]⟩ "SELECT \"$join_table(a)\"" =
      .ok ⟨"SELECT \"jt_a\"", .read⟩ := rfl
  refine ⟨_, _, ht, hp, ?_⟩
  rw [verbatims_prepare_iff ht hp, not_not]
  refine ⟨"SELECT \"".toList, "a", "join_table(a)".toList, ['"'], rfl, ⟨[], [], ?_⟩, rfl⟩
  exact ⟨rfl, rfl, by simp, by simp⟩

/-- A macro that begins in a line comment and ends behind the newline takes the newline away, and with it
the rest of the query. -/
theorem prepare_moves_comment_end :
    ∃ t prepared segments found, build ⟨"jt_", ∅⟩ ["a"] = .ok t ∧
      t.prepare "SELECT 1 -- $join_table(\na), 'b'" = .ok prepared ∧
      Segment.split "SELECT 1 -- $join_table(\na), 'b'".toList = .ok segments ∧
      Segment.split prepared.text.toList = .ok found ∧
      verbatims segments = ["-- $join_table(".toList] ∧
      verbatims found = ["-- jt_a, 'b'".toList] :=
  ⟨_, _, _, _, rfl, rfl, rfl, rfl, rfl, rfl⟩

end JoinTables

end SchemaQuery
