import SchemaQuery.Proofs.Query.Resolution

/-!
Whether resolving is complete and adds nothing. Macros are replaced in one pass, and a name that is put
in is not set off from what stands around it. So it may lengthen the name of a placeholder in front of
it, and it may complete something that a dollar sign only seemed to begin: a macro around the macro, or
a placeholder whose name the macro stood for. There is nothing else: where neither happens, no macro is
left and the placeholders are those of the template.
-/

namespace SchemaQuery

open Text

namespace Placeholder

/-- A placeholder goes on as long as its name does. -/
theorem find_tail_append {p : Placeholder} (hp : isWord p.key.toList = true) (s : List Char) :
    find '$' (p.tail ++ s) = some (⟨p.scope, p.key ++ String.ofList (s.takeWhile isWordPart)⟩,
      p.tail.length + (s.takeWhile isWordPart).length) := by
  have hword : isWord (p.key.toList ++ s.takeWhile isWordPart) = true := by
    cases hk : p.key.toList with
    | nil => rw [hk] at hp; cases hp
    | cons c w =>
      rw [hk] at hp
      obtain ⟨hc, hw⟩ := Bool.and_eq_true_iff.mp hp
      have hall : (s.takeWhile isWordPart).all isWordPart = true := List.all_takeWhile
      rw [List.cons_append, isWord, List.all_append, hc, hw, hall]
      rfl
  refine find_eq_some_iff.mpr ⟨rfl, ?_, s.dropWhile isWordPart, ?_, ?_, head?_dropWhile s⟩
  · simp [tail]
    omega
  · simp [tail, List.takeWhile_append_dropWhile]
  · simpa using hword

/-- Behind a dollar sign there is a placeholder, and right behind that a macro. -/
def MeetsMacro (r : List Char) : Prop :=
  ∃ p rest, r = tail p ++ rest ∧ isWord p.key.toList = true ∧ JoinMacro.Begins rest

/-- In front of a text that does not go on with its name, a placeholder meets a macro exactly if one begins
there. -/
theorem meetsMacro_tail_append {p : Placeholder} {rest : List Char} (hword : isWord p.key.toList = true)
    (hend : ∀ c ∈ rest.head?, isWordPart c = false) :
    MeetsMacro (p.tail ++ rest) ↔ JoinMacro.Begins rest := by
  constructor
  · rintro ⟨q, rest', heq, hq, hbegins⟩
    have hp : find '$' (p.tail ++ rest) = some (p, p.tail.length) :=
      find_eq_some_iff.mpr ⟨rfl, rfl, rest, rfl, hword, hend⟩
    have hlength : p.tail.length = q.tail.length := by
      obtain ⟨name, written, behind, rfl, hw⟩ := hbegins
      rw [heq, find_tail_append hq, List.takeWhile_cons_of_neg (by decide)] at hp
      exact (Prod.mk.inj (Option.some.inj hp)).2.symm
    rwa [(List.append_inj heq hlength).2]
  · intro hbegins
    exact ⟨p, rest, rfl, hword, hbegins⟩

/-- A placeholder stays the same exactly if its name does not go on. -/
theorem name_eq_iff {p : Placeholder} {w : List Char} :
    (⟨p.scope, p.key ++ String.ofList w⟩ : Placeholder) = p ↔ w = [] := by
  obtain ⟨scope, key⟩ := p
  rw [Placeholder.mk.injEq, ← String.toList_inj]
  simp

end Placeholder

theorem JoinMacro.find_tail_append (p : Placeholder) (s : List Char) :
    find '$' (p.tail ++ s) = none := by
  obtain ⟨scope, key⟩ := p
  cases scope <;> rfl

theorem JoinMacro.IsTail.find_append {name : String} {written : List Char} (hw : IsTail name written)
    (s : List Char) : Placeholder.find '$' (written ++ s) = none := by
  obtain ⟨gap, gap', rfl, -, -, -⟩ := hw
  rfl

theorem JoinMacro.IsTail.all_append {name : String} {written : List Char} (hw : IsTail name written)
    (s : List Char) : Placeholder.all ('$' :: (written ++ s)) = Placeholder.all s := by
  rw [Placeholder.all_cons, hw.find_append, Placeholder.all_append hw.dollar_notMem]
  rfl

namespace JoinTables

variable {t : JoinTables}

/-- A dollar sign in front of the text begins neither a macro nor a placeholder, but it begins one once
the macros behind it are replaced. -/
def Completes (t : JoinTables) (r : List Char) : Prop :=
  JoinMacro.find '$' r = none ∧ Placeholder.find '$' r = none ∧
    (JoinMacro.find '$' (t.resolved r) ≠ none ∨ Placeholder.find '$' (t.resolved r) ≠ none)

/-- Somewhere in a text, a name that is put in runs together with what stands in front of it. -/
def Fuses (t : JoinTables) (s : List Char) : Prop :=
  ∃ before r, s = before ++ '$' :: r ∧ (Placeholder.MeetsMacro r ∨ t.Completes r)

/-- A text fuses at its first character or behind it. -/
theorem fuses_cons {c : Char} {s : List Char} :
    t.Fuses (c :: s) ↔ c = '$' ∧ (Placeholder.MeetsMacro s ∨ t.Completes s) ∨ t.Fuses s := by
  constructor
  · rintro ⟨before, r, hs, hr⟩
    cases before with
    | nil =>
      obtain ⟨rfl, rfl⟩ := List.cons.inj hs
      exact .inl ⟨rfl, hr⟩
    | cons d before =>
      obtain ⟨rfl, rfl⟩ := List.cons.inj hs
      exact .inr ⟨before, r, rfl, hr⟩
  · rintro (⟨rfl, hr⟩ | ⟨before, r, rfl, hr⟩)
    · exact ⟨[], s, rfl, hr⟩
    · exact ⟨c :: before, r, rfl, hr⟩

theorem fuses_append {u : List Char} (hu : '$' ∉ u) (s : List Char) :
    t.Fuses (u ++ s) ↔ t.Fuses s := by
  induction u with
  | nil => rfl
  | cons c u ih =>
    obtain ⟨hc, hu⟩ := not_or.mp (mt List.mem_cons.mpr hu)
    rw [List.cons_append, fuses_cons, ih hu]
    simp [Ne.symm hc]

/-- At a dollar sign that begins no macro, nothing changes exactly if nothing fuses there; and a placeholder
that begins there still begins one, if not the same. -/
theorem Resolves.find_dollar {s s' : List Char} (h : t.Resolves s s') (ht : t.Proper)
    (hf : JoinMacro.find '$' s = none) :
    (JoinMacro.find '$' s' = none ∧
        (Placeholder.find '$' s').map Prod.fst = (Placeholder.find '$' s).map Prod.fst ↔
      ¬ (Placeholder.MeetsMacro s ∨ t.Completes s)) ∧
    ((Placeholder.find '$' s).map Prod.fst).toList.length ≤
      ((Placeholder.find '$' s').map Prod.fst).toList.length := by
  cases hp : Placeholder.find '$' s with
  | none =>
    have hmeets : ¬ Placeholder.MeetsMacro s := by
      rintro ⟨p, rest, rfl, hword, -⟩
      rw [Placeholder.find_tail_append hword] at hp
      cases hp
    refine ⟨?_, by simp⟩
    rw [Completes, ← h.eq_resolved]
    simp [hmeets, hf, hp]
  | some found =>
    obtain ⟨p, n⟩ := found
    obtain ⟨-, -, rest, rfl, hword, hend⟩ := Placeholder.find_eq_some_iff.mp hp
    obtain ⟨rest', rfl, hrest⟩ := h.of_append (Placeholder.dollar_notMem_tail hword)
    have hmeets := Placeholder.meetsMacro_tail_append hword hend
    have hcompletes : ¬ t.Completes (p.tail ++ rest) := by
      rintro ⟨-, hnone, -⟩
      rw [hp] at hnone
      cases hnone
    rw [Placeholder.find_tail_append hword, JoinMacro.find_tail_append, or_iff_left hcompletes,
      hmeets]
    refine ⟨?_, by simp⟩
    simp only [Option.map_some, Option.some.injEq, true_and, Placeholder.name_eq_iff]
    rcases hrest.head?_cases ht with ⟨hbegins, hhead⟩ | ⟨hbegins, -, c, w, rfl, hc⟩
    · have hshort : rest'.takeWhile isWordPart = [] := by
        rw [← hhead] at hend
        cases rest' with
        | nil => rfl
        | cons c r => rw [List.takeWhile_cons_of_neg (by simp [hend c rfl])]
      exact iff_of_true hshort hbegins
    · rw [List.takeWhile_cons_of_pos (isWordPart_of_isWordStart hc)]
      exact iff_of_false (List.cons_ne_nil _ _) (not_not.mpr hbegins)

/-- Resolving loses no placeholder. -/
theorem Resolves.length_all_le {s s' : List Char} (h : t.Resolves s s') (ht : t.Proper) :
    (Placeholder.all s).length ≤ (Placeholder.all s').length := by
  induction h with
  | nil => exact Nat.le_refl _
  | @plain c s s' hf h ih =>
    by_cases hc : c = '$'
    · subst hc
      rw [Placeholder.all_cons, Placeholder.all_cons, List.length_append, List.length_append]
      exact Nat.add_le_add (h.find_dollar ht hf).2 ih
    · have hnone := Placeholder.isMarked_find.find_eq_none hc
      rw [Placeholder.all_cons, Placeholder.all_cons, hnone, hnone]
      exact ih
  | put hw hp h ih =>
    rwa [hw.all_append, Placeholder.all_append (ht.dollar_notMem hp)]

/-- No macro is left and the placeholders are those of the text exactly if nothing in it fuses. -/
theorem Resolves.faithful_iff {s s' : List Char} (h : t.Resolves s s') (ht : t.Proper) :
    items JoinMacro.find s' = [] ∧ Placeholder.all s' = Placeholder.all s ↔ ¬ t.Fuses s := by
  induction h with
  | nil =>
    have hnone : ¬ t.Fuses [] := by
      rintro ⟨before, r, hs, -⟩
      simp at hs
    simp [hnone, items]
  | @plain c s s' hf h ih =>
    rw [fuses_cons, JoinMacro.isMarked_find.items_cons, Placeholder.all_cons, Placeholder.all_cons]
    by_cases hc : c = '$'
    · subst hc
      obtain ⟨hhere, hfirst⟩ := h.find_dollar ht hf
      have hrest := h.length_all_le ht
      rw [and_iff_right rfl, not_or, ← ih, ← hhere, List.append_eq_nil_iff]
      constructor
      · rintro ⟨⟨hbegins, hmacros⟩, hall⟩
        -- No part of the list gets shorter, so each part is what it was.
        have hlength := congrArg List.length hall
        rw [List.length_append, List.length_append] at hlength
        obtain ⟨hp, hps⟩ := List.append_inj hall (by omega)
        have hsame : (Placeholder.find '$' s').map Prod.fst = (Placeholder.find '$' s).map Prod.fst :=
          Option.ext fun p => by rw [← Option.mem_toList, hp, Option.mem_toList]
        exact ⟨⟨by simpa using hbegins, hsame⟩, hmacros, hps⟩
      · rintro ⟨⟨hbegins, hp⟩, hmacros, hps⟩
        rw [hbegins, hp, hps]
        exact ⟨⟨rfl, hmacros⟩, rfl⟩
    · have hbegins := JoinMacro.isMarked_find.find_eq_none hc
      have hplaceholder := Placeholder.isMarked_find.find_eq_none hc
      rw [hbegins, hplaceholder, hplaceholder]
      simpa [hc] using ih
  | @put name physical written s s' hw hp h ih =>
    have hhere : ¬ (Placeholder.MeetsMacro (written ++ s) ∨ t.Completes (written ++ s)) := by
      rintro (⟨p, rest, hr, hword, -⟩ | ⟨hnone, -⟩)
      · have hplaceholder := hw.find_append s
        rw [hr, Placeholder.find_tail_append hword] at hplaceholder
        cases hplaceholder
      · rw [JoinMacro.find_eq_some_iff.mpr ⟨rfl, written, s, rfl, rfl, hw⟩] at hnone
        cases hnone
    have hdollar := ht.dollar_notMem hp
    rw [JoinMacro.isMarked_find.items_append hdollar, Placeholder.all_append hdollar, hw.all_append,
      ih, fuses_cons, fuses_append hw.dollar_notMem]
    simp [hhere]

/-- A resolved template has no macro left, so that resolving it again changes nothing, and it has the
placeholders of the template, exactly if no name that is put in runs together with what stands in front
of it. -/
theorem resolve_faithful_iff {naming : TableNaming} {names : List String} {template text : String}
    (ht : build naming names = .ok t) (htext : t.resolve template = .ok text) :
    JoinMacro.names text = [] ∧ t.resolve text = .ok text ∧
        Placeholder.all text.toList = Placeholder.all template.toList ↔
      ¬ t.Fuses template.toList := by
  rw [← (resolves_of_resolve htext).faithful_iff (proper_of_build ht)]
  constructor
  · rintro ⟨hmacros, -, hall⟩
    exact ⟨hmacros, hall⟩
  · rintro ⟨hmacros, hall⟩
    exact ⟨hmacros, resolve_eq_self hmacros, hall⟩

/-- A placeholder with a macro right behind it becomes another placeholder. -/
theorem resolve_longerName :
    ∃ t text, build ⟨"jt_", ∅⟩ ["a"] = .ok t ∧
      t.resolve "SELECT $args.x$join_table(a) FROM t" = .ok text ∧
      ¬ (JoinMacro.names text = [] ∧ t.resolve text = .ok text ∧
        Placeholder.all text.toList =
          Placeholder.all "SELECT $args.x$join_table(a) FROM t".toList) := by
  have ht : build ⟨"jt_", ∅⟩ ["a"] = .ok ⟨Dictionary.ofList [("a", "jt_a")]⟩ := rfl
  have htext : resolve ⟨Dictionary.ofList [("a", "jt_a")]⟩ "SELECT $args.x$join_table(a) FROM t" =
      .ok "SELECT $args.xjt_a FROM t" := rfl
  refine ⟨_, _, ht, htext, ?_⟩
  rw [resolve_faithful_iff ht htext, not_not]
  refine ⟨"SELECT ".toList, _, rfl, .inl ?_⟩
  refine ⟨⟨.args, "x"⟩, "$join_table(a) FROM t".toList, rfl, rfl, "a", "join_table(a)".toList, _, rfl, ?_⟩
  exact ⟨[], [], rfl, rfl, by simp, by simp⟩

/-- A macro whose name is a macro leaves one, and a placeholder in front of a macro takes its name on. -/
theorem resolve_nested :
    ∃ t text, build ⟨"jt_", ∅⟩ ["a"] = .ok t ∧
      t.resolve "SELECT $args.x$join_table(a) FROM $join_table($join_table(a))" = .ok text ∧
      JoinMacro.names text = ["jt_a"] ∧ Placeholder.all text.toList = [⟨.args, "xjt_a"⟩] ∧
      Placeholder.all "SELECT $args.x$join_table(a) FROM $join_table($join_table(a))".toList =
        [⟨.args, "x"⟩] :=
  ⟨_, _, rfl, rfl, rfl, rfl, rfl⟩

end JoinTables

end SchemaQuery
