import SchemaQuery.Json.Print
import SchemaQuery.Proofs.Number.Digits

/-!
Numbers and strings of JSON are read back from their texts. A number goes on as long as digits, points and
exponents do, and what follows one in a document is none of these; a string says itself where it ends.
-/

namespace SchemaQuery

namespace Json

variable {s r rest : List Char}

namespace Node

/-! ### Numbers -/

/-- A character with which a number could go on. -/
def isNumberPart (c : Char) : Bool := c.isDigit || c = '.' || c = 'e' || c = 'E'

/-- No number goes on with the text. -/
def EndsNumber (r : List Char) : Prop := ∀ c ∈ r.head?, isNumberPart c = false

theorem endsNumber_cons {c : Char} (hc : isNumberPart c = false) (r : List Char) : EndsNumber (c :: r) := by
  intro d hd
  cases hd
  exact hc

theorem EndsNumber.isDigit (h : EndsNumber r) : ∀ c ∈ r.head?, c.isDigit = false := by
  intro c hc
  have hpart := h c hc
  simp only [isNumberPart, Bool.or_eq_false_iff] at hpart
  exact hpart.1.1.1

theorem digits_append (hr : ∀ c ∈ r.head?, c.isDigit = false) (s : List Char) :
    digits (s ++ r) = ((digits s).1, (digits s).2 ++ r) := by
  induction s with
  | nil =>
    cases r with
    | nil => rfl
    | cons c r => simp [digits, hr c rfl]
  | cons c s ih =>
    simp only [digits, Prod.mk.injEq] at ih ⊢
    cases hc : c.isDigit <;> simp [hc, ih]

theorem EndsNumber.head?_ne (h : EndsNumber r) {c : Char} (hc : isNumberPart c = true) :
    r.head? ≠ some c := by
  intro hr
  rw [h c hr] at hc
  cases hc

theorem digits_of_all (h : ∀ c ∈ s, c.isDigit = true) : digits s = (s, []) := by
  induction s with
  | nil => rfl
  | cons c s ih =>
    have ih := ih fun d hd => h d (by simp [hd])
    simp only [digits, Prod.mk.injEq] at ih ⊢
    simp [h c (by simp), ih]

theorem fraction?_of_head? (h : s.head? ≠ some '.') : fraction? s = some ([], s) := by
  unfold fraction?
  split
  · exact absurd rfl h
  · rfl

theorem fraction?_append (hr : EndsNumber r) {ds : List Char} (h : fraction? s = some (ds, rest)) :
    fraction? (s ++ r) = some (ds, rest ++ r) := by
  cases s with
  | nil =>
    cases h
    exact fraction?_of_head? (hr.head?_ne (by decide))
  | cons c s =>
    by_cases hc : c = '.'
    · subst hc
      rw [fraction?] at h
      rw [List.cons_append, fraction?, digits_append hr.isDigit]
      split at h
      · cases h
      · next hne heq =>
        cases h
        rw [heq]
        cases ds with
        | nil => exact absurd rfl hne
        | cons d ds => rfl
    · have hhead : (c :: s).head? ≠ some '.' := fun h => hc (Option.some.inj h)
      rw [fraction?_of_head? hhead] at h
      cases h
      exact fraction?_of_head? fun h => hc (Option.some.inj h)

theorem exponentDigits?_append (hr : EndsNumber r) {negative : Bool} {e : Option Int}
    (h : exponentDigits? negative s = some (e, rest)) :
    exponentDigits? negative (s ++ r) = some (e, rest ++ r) := by
  unfold exponentDigits? at h ⊢
  rw [digits_append hr.isDigit]
  split at h
  · cases h
  · next ds _ hne heq =>
    cases h
    rw [heq]
    cases ds with
    | nil => exact absurd rfl hne
    | cons d ds => rfl

/-- An exponent behind its letter may begin with a sign. -/
theorem exponent?_cons_cons {c : Char} (hc : c = 'e' ∨ c = 'E') (d : Char) (s : List Char) :
    exponent? (c :: d :: s) =
      if d = '-' then exponentDigits? true s
      else if d = '+' then exponentDigits? false s
      else exponentDigits? false (d :: s) := by
  by_cases hminus : d = '-'
  · subst hminus
    rw [exponent?, if_pos hc, if_pos rfl]
  · by_cases hplus : d = '+'
    · subst hplus
      rw [exponent?, if_pos hc, if_neg hminus, if_pos rfl]
    · rw [exponent?, if_pos hc, if_neg hminus, if_neg hplus]
      · rintro _ ⟨⟩
        exact hminus rfl
      · rintro _ ⟨⟩
        exact hplus rfl

theorem exponent?_of_letter {c : Char} (hc : ¬ (c = 'e' ∨ c = 'E')) (s : List Char) :
    exponent? (c :: s) = some (none, c :: s) := by
  rw [exponent?.eq_def]
  exact if_neg hc

theorem exponent?_append (hr : EndsNumber r) {e : Option Int} (h : exponent? s = some (e, rest)) :
    exponent? (s ++ r) = some (e, rest ++ r) := by
  cases s with
  | nil =>
    cases h
    cases r with
    | nil => rfl
    | cons c r =>
      refine exponent?_of_letter ?_ r
      rintro (rfl | rfl) <;> exact absurd (hr _ rfl) (by decide)
  | cons c s =>
    by_cases hc : c = 'e' ∨ c = 'E'
    · cases s with
      | nil =>
        rw [exponent?.eq_def] at h
        simp only [if_pos hc] at h
        cases h
      | cons d s =>
        rw [exponent?_cons_cons hc] at h
        rw [List.cons_append, List.cons_append, exponent?_cons_cons hc]
        split at h
        · next hd => rw [if_pos hd]; exact exponentDigits?_append hr h
        · next hminus =>
          rw [if_neg hminus]
          split at h
          · next hd => rw [if_pos hd]; exact exponentDigits?_append hr h
          · next hplus => rw [if_neg hplus]; exact exponentDigits?_append hr h
    · rw [exponent?_of_letter hc] at h
      cases h
      exact exponent?_of_letter hc (s ++ r)

theorem unsigned?_append (hr : EndsNumber r) {negative : Bool} {n : Numeral}
    (h : unsigned? negative s = some (n, rest)) : unsigned? negative (s ++ r) = some (n, rest ++ r) := by
  unfold unsigned? at h ⊢
  rw [digits_append hr.isDigit]
  simp only at h ⊢
  by_cases hwhole : (digits s).1 = [] ∨ (digits s).1.head? = some '0' ∧ (digits s).1 ≠ ['0']
  · rw [if_pos hwhole] at h
    cases h
  · rw [if_neg hwhole] at h ⊢
    obtain ⟨⟨fraction, rest₁⟩, hfraction, h⟩ := Option.bind_eq_some_iff.mp h
    obtain ⟨⟨exponent, rest₂⟩, hexponent, h⟩ := Option.bind_eq_some_iff.mp h
    cases h
    rw [fraction?_append hr hfraction]
    simp only [Option.bind_eq_bind, Option.bind_some]
    rw [exponent?_append hr hexponent]
    rfl

theorem numeral?_cons (c : Char) (s : List Char) :
    numeral? (c :: s) = if c = '-' then unsigned? true s else unsigned? false (c :: s) := by
  by_cases hc : c = '-'
  · subst hc
    rfl
  · rw [if_neg hc, numeral?]
    rintro _ ⟨⟩
    exact hc rfl

/-- A number is read alike, whatever follows it that is no part of a number. -/
theorem numeral?_append (hr : EndsNumber r) {n : Numeral} (h : numeral? s = some (n, rest)) :
    numeral? (s ++ r) = some (n, rest ++ r) := by
  cases s with
  | nil => cases h
  | cons c s =>
    rw [numeral?_cons] at h
    rw [List.cons_append, numeral?_cons]
    split at h
    · next hc => rw [if_pos hc]; exact unsigned?_append hr h
    · next hc => rw [if_neg hc]; exact unsigned?_append hr h

theorem head?_of_numeral? {n : Numeral} (h : numeral? s = some (n, rest)) :
    ∃ c s', s = c :: s' ∧ (c = '-' ∨ c.isDigit = true) := by
  cases s with
  | nil => cases h
  | cons c s =>
    refine ⟨c, s, rfl, ?_⟩
    rw [numeral?_cons] at h
    split at h
    · next hc => exact .inl hc
    · refine .inr (eq_true_of_ne_false fun hc => ?_)
      simp [unsigned?, digits, hc] at h

/-- A text that begins like a number is read as one. -/
theorem value?_of_numeral? {n : Numeral} (h : numeral? s = some (n, rest)) (fuel : Nat) :
    value? (fuel + 1) s = some (.number n, rest) := by
  obtain ⟨c, s', rfl, hc⟩ := head?_of_numeral? h
  have hne {d : Char} (hd : d ≠ '-' ∧ d.isDigit = false) : c ≠ d := by
    rintro rfl
    rcases hc with rfl | hc
    · exact hd.1 rfl
    · rw [hc] at hd
      cases hd.2
  rw [value?]
  · rw [h]
    rfl
  all_goals
    rintro _ ⟨⟩
    exact hne (by decide) rfl

end Node

/-- The numeral of an integer. -/
def Integer.numeral (n : Integer) : Numeral := ⟨n.value < 0, Decimal.digits n.value.natAbs, [], none⟩

theorem Integer.numeral?_integerText (n : Integer) :
    Node.numeral? (Decimal.integerText n.value) = some (n.numeral, []) := by
  obtain ⟨c, ds, hdigits⟩ := List.exists_cons_of_ne_nil (Decimal.digits_ne_nil n.value.natAbs)
  have hdigit {d : Char} (hd : d ∈ c :: ds) : d.isDigit = true :=
    Decimal.isDigit_of_mem_digits (hdigits ▸ hd)
  have hread : Node.digits (c :: ds) = (c :: ds, []) := Node.digits_of_all fun _ => hdigit
  have hwhole : ¬ (c :: ds = [] ∨ (c :: ds).head? = some '0' ∧ c :: ds ≠ ['0']) := by
    rintro (hnil | ⟨hzero, hne⟩)
    · cases hnil
    · rcases hdigits ▸ Decimal.digits_eq_zero_or n.value.natAbs with h | h
      · exact hne h
      · exact h hzero
  have hunsigned (negative : Bool) : Node.unsigned? negative (c :: ds) =
      some (⟨negative, c :: ds, [], none⟩, []) := by
    rw [Node.unsigned?, hread]
    simp only
    rw [if_neg hwhole]
    rfl
  unfold Decimal.integerText numeral
  split
  · next hneg => rw [hdigits, Node.numeral?_cons, if_pos rfl, hunsigned, decide_eq_true hneg]
  · next hneg =>
    have hminus : c ≠ '-' := by
      rintro rfl
      exact absurd (hdigit List.mem_cons_self) (by decide)
    rw [hdigits, Node.numeral?_cons, if_neg hminus, hunsigned, decide_eq_false hneg]

/-! ### Strings -/

namespace Node

theorem hex?_hexChar : ∀ n < 0x20,
    Text.hex? ['0', '0', hexChar (n / 16), hexChar (n % 16)] = some n := by
  decide

theorem stringBody_escaped {e c : Char} (hu : e ≠ 'u') (he : escaped? e = some c) (r : List Char) :
    stringBody none ('\\' :: e :: r) = (stringBody none r).map (StringRead.cons c) := by
  rw [stringBody]
  · rw [he]
    cases stringBody none r <;> rfl
  · exact fun _ _ _ _ _ hu' => absurd hu' hu

/-- A character of a string is read back. -/
theorem stringBody_escapeChar (c : Char) (r : List Char) :
    stringBody none (escapeChar c ++ r) = (stringBody none r).map (StringRead.cons c) := by
  unfold escapeChar
  iterate 7
    split
    · next h =>
      subst h
      exact stringBody_escaped (by decide) rfl r
  split
  · next hlow =>
    have hunit := hex?_hexChar c.toNat hlow
    have hhigh : ¬ (0xd800 ≤ c.toNat ∧ c.toNat ≤ 0xdbff) := by omega
    have hlow' : ¬ (0xdc00 ≤ c.toNat ∧ c.toNat ≤ 0xdfff) := by omega
    simp only [List.cons_append, List.nil_append]
    rw [stringBody, hunit]
    simp only [Option.bind_eq_bind, Option.bind_some, hhigh, hlow', if_false, Char.ofNat_toNat]
    cases stringBody none r <;> rfl
  · next hquote hslash _ _ _ _ _ hlow =>
    rw [List.singleton_append, stringBody]
    · rw [if_neg fun h => h.elim hlow hslash]
      cases stringBody none r <;> rfl
    · exact hquote
    · rintro _ _ _ _ _ rfl
      exact absurd rfl hslash
    · rintro _ _ rfl
      exact absurd rfl hslash

/-- A string is read back behind its opening quote. -/
theorem string?_stringText (text : String) (r : List Char) :
    string? (text.toList.flatMap escapeChar ++ '"' :: r) = some (some text, r) := by
  have hbody (cs : List Char) : stringBody none (cs.flatMap escapeChar ++ '"' :: r) = some (some cs, r) := by
    induction cs with
    | nil => rfl
    | cons c cs ih =>
      rw [List.flatMap_cons, List.append_assoc, stringBody_escapeChar, ih]
      rfl
  rw [string?, hbody]
  exact congrArg (fun text => some (some text, r)) String.ofList_toList

end Node

end Json

end SchemaQuery
