import SchemaQuery.Toml.Quoted

/-!
Strings of TOML are read back as they were written, whichever form they are written in. The forms over
many lines need most of the care: up to two quotes of the text may stand right before the closing ones,
so a reader that comes upon a quote has to look at what follows it.
-/

namespace SchemaQuery.Toml

variable {q : Char} {s r : List Char}

/-! ### The ends of blocks -/

theorem afterPair?_cons_ne {c : Char} (hc : c ≠ q) (r : List Char) : afterPair? q (c :: r) = none := by
  cases r with
  | nil => rfl
  | cons d r => exact if_neg fun h => hc h.1

theorem afterPair?_cons_cons_ne {c d : Char} (hd : d ≠ q) (r : List Char) :
    afterPair? q (c :: d :: r) = none :=
  if_neg fun h => hd h.2

/-- Up to two quotes in front of the closing ones are given back to the text. -/
theorem blockEnd_replicate (hr : r.head? ≠ some q) {j : Nat} (hj : j ≤ 2) :
    blockEnd q (List.replicate j q ++ r) = (List.replicate j q, r) := by
  have hhead {c : Char} {r' : List Char} (h : r = c :: r') : c ≠ q := by
    rintro rfl
    exact hr (h ▸ rfl)
  match j, hj with
  | 0, _ =>
    match r, @hhead with
    | [], _ => rfl
    | [c], hhead => simp [blockEnd, hhead rfl]
    | c :: d :: r, hhead => simp [blockEnd, hhead rfl]
  | 1, _ =>
    match r, @hhead with
    | [], _ => simp [blockEnd]
    | c :: r, hhead => simp [blockEnd, hhead rfl]
  | 2, _ => simp [List.replicate, blockEnd]

/-- Behind a quote in a block the reader goes on in the text, or the text ends with this quote and one more
at most. -/
theorem afterPair?_block {body : List Char} (hbody : ∀ rest, body ≠ q :: q :: rest) (r : List Char) :
    afterPair? q (body ++ (tripled q ++ r)) = none ∨ ∃ j ≤ 1, body = List.replicate j q ∧
      afterPair? q (body ++ (tripled q ++ r)) = some (List.replicate (j + 1) q ++ r) := by
  match body with
  | [] => exact .inr ⟨0, Nat.zero_le 1, rfl, by simp [tripled, afterPair?]⟩
  | [c] =>
    by_cases hc : c = q
    · subst hc
      exact .inr ⟨1, Nat.le_refl 1, rfl, by simp [tripled, afterPair?, List.replicate]⟩
    · exact .inl (afterPair?_cons_ne hc _)
  | c :: d :: rest =>
    refine .inl ?_
    by_cases hc : c = q
    · exact afterPair?_cons_cons_ne (fun hd => hbody rest (by rw [hc, hd])) _
    · exact afterPair?_cons_ne hc _

/-- A reader that comes upon a quote of the text reads it as such, whether or not the block ends behind
it. -/
theorem scan_quote {body : List Char} (hbody : ∀ rest, body ≠ q :: q :: rest) (hr : r.head? ≠ some q)
    {scan : Scan} (hscan : scan = some (s, r)) (hs : ∀ j ≤ 1, body = List.replicate j q → s = body) :
    (match afterPair? q (body ++ (tripled q ++ r)) with
      | some r' => some (blockEnd q r')
      | none => scan.cons q) = some (q :: s, r) := by
  rcases afterPair?_block hbody r with hnone | ⟨j, hj, heq, hsome⟩
  · rw [hnone, hscan]
    rfl
  · rw [hsome, hs j hj heq, heq]
    exact congrArg some (blockEnd_replicate hr (by omega))

/-! ### Basic strings over many lines -/

theorem exists_escapeChar_eq {c : Char} (hc : c ≠ '"') :
    ∃ a r, escapeChar c = a :: r ∧ a ≠ '"' ∧ a ≠ '\n' ∧ a ≠ '\r' := by
  unfold escapeChar codeEscape
  iterate 6
    split
    · exact ⟨_, _, rfl, by decide⟩
  split
  · exact ⟨c, [], rfl, hc, by assumption, by assumption⟩
  · exact ⟨_, _, rfl, by decide⟩

theorem basicBlockBody_quote {k : Nat} (hk : k < 2) (s : List Char) :
    basicBlockBody k ('"' :: s) = '"' :: basicBlockBody (k + 1) s := by
  rw [basicBlockBody, if_pos rfl, if_neg (by omega)]

/-- What stands for another character than a quote does not begin with one. -/
theorem exists_basicBlockBody_cons {c : Char} (hc : c ≠ '"') (k : Nat) (s : List Char) :
    ∃ a rest, basicBlockBody k (c :: s) = a :: rest ∧ a ≠ '"' := by
  rw [basicBlockBody, if_neg hc]
  split
  · exact ⟨'\n', _, rfl, by decide⟩
  · obtain ⟨a, rest, heq, ha, -⟩ := exists_escapeChar_eq hc
    exact ⟨a, _, by rw [heq, List.cons_append], ha⟩

theorem basicBlockBody_two_ne (s rest : List Char) : basicBlockBody 2 s ≠ '"' :: rest := by
  cases s with
  | nil => nofun
  | cons c s =>
    by_cases hc : c = '"'
    · subst hc
      simp [basicBlockBody]
    · obtain ⟨a, rest', heq, ha⟩ := exists_basicBlockBody_cons hc 2 s
      rw [heq]
      exact fun h => ha (List.cons.inj h).1

/-- Behind a quote of the text no two more follow in the body. -/
theorem basicBlockBody_ne {k : Nat} (hk : k = 1 ∨ k = 2) (s rest : List Char) :
    basicBlockBody k s ≠ '"' :: '"' :: rest := by
  rcases hk with rfl | rfl
  · cases s with
    | nil => nofun
    | cons c s =>
      by_cases hc : c = '"'
      · subst hc
        rw [basicBlockBody_quote (by decide)]
        exact fun h => basicBlockBody_two_ne s rest (List.cons.inj h).2
      · obtain ⟨a, rest', heq, ha⟩ := exists_basicBlockBody_cons hc 1 s
        rw [heq]
        exact fun h => ha (List.cons.inj h).1
  · exact basicBlockBody_two_ne s _

theorem eq_nil_of_basicBlockBody_eq_nil {k : Nat} {s : List Char} (h : basicBlockBody k s = []) :
    s = [] := by
  cases s with
  | nil => rfl
  | cons c s =>
    by_cases hc : c = '"'
    · subst hc
      rw [basicBlockBody, if_pos rfl] at h
      split at h <;> cases h
    · obtain ⟨a, rest, heq, -⟩ := exists_basicBlockBody_cons hc k s
      rw [heq] at h
      cases h

/-- A body that is one quote, or nothing, is the text itself. -/
theorem eq_of_basicBlockBody_eq_replicate {k j : Nat} (hj : j ≤ 1) {s : List Char}
    (h : basicBlockBody k s = List.replicate j '"') : s = basicBlockBody k s := by
  match j, hj with
  | 0, _ => rw [h, eq_nil_of_basicBlockBody_eq_nil h, List.replicate_zero]
  | 1, _ =>
    rw [h]
    cases s with
    | nil => cases h
    | cons c s =>
      by_cases hc : c = '"'
      · subst hc
        rw [basicBlockBody, if_pos rfl] at h
        split at h
        · cases h
        · rw [eq_nil_of_basicBlockBody_eq_nil (List.cons.inj h).2]
          rfl
      · obtain ⟨a, rest, heq, ha⟩ := exists_basicBlockBody_cons hc k s
        rw [heq] at h
        exact absurd (List.cons.inj h).1 ha

/-- The body of a basic string over many lines is read back up to the quotes behind it. -/
theorem escapedFrom_basicBlockBody (hr : r.head? ≠ some '"') {k : Nat} (hk : k ≤ 2) (s : List Char) :
    escapedFrom true (.text false) (basicBlockBody k s ++ (tripled '"' ++ r)) = some (s, r) := by
  induction s generalizing k with
  | nil =>
    have hend := blockEnd_replicate hr (Nat.zero_le 2)
    simpa [basicBlockBody, tripled, escapedFrom, afterPair?] using hend
  | cons c s ih =>
    by_cases hc : c = '"'
    · subst hc
      by_cases hk' : k = 2
      · subst hk'
        simp [basicBlockBody, escapedFrom, escaped?, startsGap, ih]
      · rw [basicBlockBody_quote (by omega)]
        refine scan_quote (basicBlockBody_ne (by omega) s) hr (ih (by omega)) fun j hj h => ?_
        exact eq_of_basicBlockBody_eq_replicate hj h
    · rw [basicBlockBody, if_neg hc]
      split
      · next hline =>
        subst hline
        simp [escapedFrom, isPlain, ih]
      · rw [List.append_assoc, escapedFrom_escapeChar true hc, ih (Nat.zero_le 2), Scan.cons_some]

/-! ### Literal strings over many lines -/

theorem hasTriple_of_tail {c : Char} {s : List Char} (h : hasTriple q (c :: s) = false) :
    hasTriple q s = false := by
  match s with
  | [] => rfl
  | [_] => rfl
  | a :: b :: r => exact (Bool.or_eq_false_iff.mp h).2

/-- A text that can stand in a literal string over many lines is read back up to the quotes behind it. -/
theorem literalBlockFrom_append (hr : r.head? ≠ some '\'') {s : List Char}
    (hplain : s.all fun c => isPlain c || c = '\n') (htriple : hasTriple '\'' s = false) :
    literalBlockFrom (s ++ (tripled '\'' ++ r)) = some (s, r) := by
  induction s with
  | nil =>
    have hend := blockEnd_replicate hr (Nat.zero_le 2)
    simpa [tripled, literalBlockFrom, afterPair?] using hend
  | cons c s ih =>
    obtain ⟨hc, hs⟩ := Bool.and_eq_true_iff.mp (List.all_cons ▸ hplain)
    have ih := ih hs (hasTriple_of_tail htriple)
    by_cases hquote : c = '\''
    · subst hquote
      refine scan_quote (fun rest h => ?_) hr ih fun _ _ _ => rfl
      rw [h] at htriple
      simp [hasTriple] at htriple
    · rw [List.cons_append, literalBlockFrom, if_neg hquote, if_pos hc, ih, Scan.cons_some]

/-! ### Whole strings -/

/-- Whether a text can be written in a form: in one with escapes always, and in another if it needs none. -/
def Form.Takes (s : List Char) : Form → Prop
  | .basic | .basicBlock => True
  | .literal => Form.literal.suits s = true
  | .literalBlock => Form.literalBlock.suits s = true

/-- The quote around a string of a form. -/
def Form.quote : Form → Char
  | .basic | .basicBlock => '"'
  | .literal | .literalBlock => '\''

theorem Form.takes_of (s : List Char) : (Form.of s).Takes s := by
  unfold Form.of
  cases hfind : (Form.order s).find? (Form.suits s) with
  | none =>
    rw [Option.getD_none]
    split <;> trivial
  | some form =>
    have hsuits := List.find?_some hfind
    cases form with
    | basic | basicBlock => trivial
    | literal | literalBlock => exact hsuits

theorem dropOpeningLine_of_head? {s : List Char} (hline : s.head? ≠ some '\n')
    (hreturn : s.head? ≠ some '\r') : dropOpeningLine s = s := by
  unfold dropOpeningLine
  split
  · exact absurd rfl hline
  · exact absurd rfl hreturn
  · rfl

/-- The line feed that is written behind an opening is dropped, and no other. -/
theorem dropOpeningLine_openingLine {s body : List Char}
    (h : s.contains '\n' = false → body.head? ≠ some '\n' ∧ body.head? ≠ some '\r') :
    dropOpeningLine (openingLine s ++ body) = body := by
  unfold openingLine
  split
  · rfl
  · next hline =>
    obtain ⟨hbody, hbody'⟩ := h (by simpa using hline)
    exact dropOpeningLine_of_head? hbody hbody'

/-- A string on one line is not taken for one over many lines, be it empty or not. -/
theorem string?_line {body : List Char} (hbody : body.head? ≠ some q) (hr : r.head? ≠ some q) :
    string? q (body ++ q :: r) = lineString? q (body ++ q :: r) := by
  have hpair : afterPair? q (body ++ q :: r) = none := by
    cases body with
    | nil =>
      cases r with
      | nil => rfl
      | cons c r => exact afterPair?_cons_cons_ne (fun hc => hr (congrArg some hc)) r
    | cons c body => exact afterPair?_cons_ne (fun hc => hbody (congrArg some hc)) _
  rw [string?, hpair]

theorem head?_basicBody_ne (s : List Char) : (basicBody s).head? ≠ some '"' := by
  cases s with
  | nil => nofun
  | cons c s =>
    rw [basicBody, List.flatMap_cons]
    split
    · simp
    · next hc =>
      obtain ⟨a, rest, heq, ha, -⟩ := exists_escapeChar_eq hc
      rw [heq]
      simpa using ha

theorem head?_basicBlock_ne {s : List Char} (h : s.contains '\n' = false) (r : List Char) :
    (basicBlockBody 0 s ++ (tripled '"' ++ r)).head? ≠ some '\n' ∧
      (basicBlockBody 0 s ++ (tripled '"' ++ r)).head? ≠ some '\r' := by
  cases s with
  | nil => exact ⟨nofun, nofun⟩
  | cons c s =>
    by_cases hc : c = '"'
    · subst hc
      rw [basicBlockBody_quote (by decide)]
      exact ⟨nofun, nofun⟩
    · have hline : c ≠ '\n' := by
        rintro rfl
        simp at h
      obtain ⟨a, rest, heq, -, hline', hreturn⟩ := exists_escapeChar_eq hc
      rw [basicBlockBody, if_neg hc, if_neg hline, heq]
      exact ⟨fun h => hline' (Option.some.inj h), fun h => hreturn (Option.some.inj h)⟩

theorem head?_literalBlock_ne {s : List Char} (hplain : s.all fun c => isPlain c || c = '\n')
    (h : s.contains '\n' = false) (r : List Char) :
    (s ++ (tripled '\'' ++ r)).head? ≠ some '\n' ∧ (s ++ (tripled '\'' ++ r)).head? ≠ some '\r' := by
  cases s with
  | nil => exact ⟨nofun, nofun⟩
  | cons c s =>
    obtain ⟨hc, -⟩ := Bool.and_eq_true_iff.mp (List.all_cons ▸ hplain)
    refine ⟨fun heq => ?_, fun heq => ?_⟩
    · obtain rfl := Option.some.inj heq
      simp at h
    · obtain rfl := Option.some.inj heq
      revert hc
      decide

/-- What is written of a text in a form that can take it is read back, up to where the string ends. -/
theorem Form.string?_write {s : List Char} {form : Form} (hform : form.Takes s)
    (hr : r.head? ≠ some form.quote) :
    ∃ rest, form.write s ++ r = form.quote :: rest ∧ string? form.quote rest = some (s, r) := by
  cases form with
  | basic =>
    refine ⟨basicBody s ++ '"' :: r, by simp [Form.write, Form.quote], ?_⟩
    exact (string?_line (head?_basicBody_ne s) hr).trans (escapedFrom_basicBody s r)
  | literal =>
    refine ⟨s ++ '\'' :: r, by simp [Form.write, Form.quote], ?_⟩
    have hhead : s.head? ≠ some '\'' := by
      intro hs
      have hmem := List.all_eq_true.mp hform _ (List.mem_of_head? hs)
      simp at hmem
    exact (string?_line hhead hr).trans (literalFrom_append hform r)
  | basicBlock =>
    refine ⟨'"' :: '"' :: (openingLine s ++ (basicBlockBody 0 s ++ (tripled '"' ++ r))), ?_, ?_⟩
    · simp [Form.write, Form.quote, tripled]
    · simp only [string?, afterPair?, Form.quote, and_self, if_true]
      rw [dropOpeningLine_openingLine fun h => head?_basicBlock_ne h r]
      exact escapedFrom_basicBlockBody hr (Nat.zero_le 2) s
  | literalBlock =>
    obtain ⟨hplain, htriple⟩ := Bool.and_eq_true_iff.mp hform
    refine ⟨'\'' :: '\'' :: (openingLine s ++ (s ++ (tripled '\'' ++ r))), ?_, ?_⟩
    · simp [Form.write, Form.quote, tripled]
    · simp only [string?, afterPair?, Form.quote, and_self, if_true]
      rw [dropOpeningLine_openingLine fun h => head?_literalBlock_ne hplain h r]
      exact literalBlockFrom_append hr hplain (by simpa using htriple)

/-- Every text is read back from the string that is written for it. -/
theorem string?_quoted (hdouble : r.head? ≠ some '"') (hsingle : r.head? ≠ some '\'') (s : List Char) :
    ∃ q rest, (q = '"' ∨ q = '\'') ∧ quoted s ++ r = q :: rest ∧ string? q rest = some (s, r) := by
  have hquote : r.head? ≠ some (Form.of s).quote := by
    cases Form.of s with
    | basic | basicBlock => exact hdouble
    | literal | literalBlock => exact hsingle
  obtain ⟨rest, heq, hstring⟩ := Form.string?_write (Form.takes_of s) hquote
  refine ⟨(Form.of s).quote, rest, ?_, heq, hstring⟩
  cases Form.of s with
  | basic | basicBlock => exact .inl rfl
  | literal | literalBlock => exact .inr rfl

end SchemaQuery.Toml
