import SchemaQuery.Proofs.Query.Outline
import SchemaQuery.Text.Word

/-!
The texts of values in a query. A string is quoted and leaves no trace in an outline. Every other value
is words, digits and points, a minus sign in front at most, so it is bare text that begins nothing of
its own: neither a literal nor a comment, and whatever comes behind it makes no difference.
-/

namespace SchemaQuery

open Text Segment

/-! ### Words and numbers -/

/-- A character of a word or a number. -/
def IsPlainPart (c : Char) : Prop := isWordPart c = true ∨ c = '.'

/-- No such character begins anything, nor does one close a comment's opening. -/
theorem IsPlainPart.notMem {c : Char} (h : IsPlainPart c) : c ∉ ['\'', '"', '-', '/', '*', '$'] := by
  intro hc
  simp only [List.mem_cons, List.not_mem_nil, or_false] at hc
  rcases hc with rfl | rfl | rfl | rfl | rfl | rfl <;> exact absurd h (by unfold IsPlainPart; decide)

/-- A text of words, digits and points. -/
structure IsPlainWord (t : List Char) : Prop where
  ne_nil : t ≠ []
  parts : ∀ c ∈ t, IsPlainPart c

/-- A value without quotes: such a text, or one behind a minus sign. -/
inductive IsUnquoted : List Char → Prop where
  | plain {t : List Char} : IsPlainWord t → IsUnquoted t
  | minus {t : List Char} : IsPlainWord t → IsUnquoted ('-' :: t)

theorem IsPlainWord.append {t u : List Char} (ht : IsPlainWord t) (hu : ∀ c ∈ u, IsPlainPart c) :
    IsPlainWord (t ++ u) where
  ne_nil := by simp [ht.ne_nil]
  parts c hc := (List.mem_append.mp hc).elim (ht.parts c) (hu c)

theorem IsPlainWord.ne_minus {t u : List Char} (h : IsPlainWord t) : t ≠ '-' :: u := by
  rintro rfl
  exact (h.parts '-' (by simp)).notMem (by simp)

/-- Characters of words and numbers are a bare run, whatever comes behind them. -/
theorem isBareRun_of_parts {t : List Char} (h : ∀ c ∈ t, IsPlainPart c) (r : List Char) :
    IsBareRun t r := by
  induction t with
  | nil => trivial
  | cons c t ih =>
    have hc := (h c (by simp)).notMem
    exact ⟨isPlain_of_notMem (fun hm => hc (by simp at hm ⊢; tauto)) _,
      ih fun d hd => h d (List.mem_cons_of_mem _ hd)⟩

theorem IsUnquoted.isBareRun {t : List Char} (h : IsUnquoted t) (r : List Char) : IsBareRun t r := by
  cases h with
  | plain ht => exact isBareRun_of_parts ht.parts r
  | @minus t ht =>
    obtain ⟨c, t, rfl⟩ := List.exists_cons_of_ne_nil ht.ne_nil
    have hc := (ht.parts c (by simp)).notMem
    refine ⟨⟨by decide, by decide, ?_, fun h => absurd h (by decide)⟩,
      isBareRun_of_parts ht.parts r⟩
    rintro - hhead
    obtain rfl : c = '-' := by simpa using hhead
    exact hc (by simp)

/-- A value without quotes has a first character: no quote, none that ends the opening of a comment, and
none that could be taken for the end of a region. -/
theorem IsUnquoted.head? {t : List Char} (h : IsUnquoted t) :
    ∃ c, t.head? = some c ∧ c ∉ ['*', '"', '/'] ∧ c ≠ '\'' := by
  cases h with
  | plain ht =>
    obtain ⟨c, t, rfl⟩ := List.exists_cons_of_ne_nil ht.ne_nil
    have hc := (ht.parts c (by simp)).notMem
    exact ⟨c, rfl, fun hm => hc (by simp at hm ⊢; tauto), by rintro rfl; simp at hc⟩
  | minus ht => exact ⟨'-', rfl, by decide, by decide⟩

theorem IsUnquoted.quote_notMem {t : List Char} (h : IsUnquoted t) : '\'' ∉ t := by
  cases h with
  | plain ht => exact fun hq => (ht.parts _ hq).notMem (by simp)
  | minus ht =>
    intro hq
    rcases List.mem_cons.mp hq with hq | hq
    · exact absurd hq (by decide)
    · exact (ht.parts _ hq).notMem (by simp)

/-! ### Numbers -/

theorem isPlainPart_of_isDigit {c : Char} (h : c.isDigit = true) : IsPlainPart c := by
  simp [IsPlainPart, isWordPart, Char.isAlphanum, h]

namespace Decimal

theorem isPlainWord_digits (n : Nat) : IsPlainWord (digits n) where
  ne_nil := Nat.toDigits_ne_nil
  parts _ hc := isPlainPart_of_isDigit (Nat.isDigit_of_mem_toDigits (by decide) (by decide) hc)

theorem isPlainPart_of_mem_zeros {n : Nat} {c : Char} (h : c ∈ zeros n) : IsPlainPart c := by
  rw [List.eq_of_mem_replicate h]
  exact .inl (by decide)

theorem isUnquoted_integerText (n : Int) : IsUnquoted (integerText n) := by
  unfold integerText
  split
  · exact .minus (isPlainWord_digits _)
  · exact .plain (isPlainWord_digits _)

theorem negative_of_integerText {n : Int} {t : List Char} (h : integerText n = '-' :: t) : n < 0 := by
  unfold integerText at h
  split at h
  · assumption
  · exact absurd h (isPlainWord_digits n.natAbs).ne_minus

/-- A number in plain form is a sign and a text of digits and points. -/
theorem exists_plain_eq (d : Decimal) : ∃ t, IsPlainWord t ∧ d.plain = d.sign ++ t := by
  have hds := isPlainWord_digits d.coefficient
  have hpoint : IsPlainPart '.' := .inr rfl
  have hzero : IsPlainPart '0' := .inl (by decide)
  unfold plain
  simp only [List.append_assoc]
  split
  · refine ⟨_, ?_, rfl⟩
    split
    · exact ⟨by simp, by simpa using hzero⟩
    · exact hds.append fun c => isPlainPart_of_mem_zeros
  · split
    · refine ⟨_, ⟨by simp, fun c hc => ?_⟩, rfl⟩
      simp only [List.mem_append, List.mem_cons] at hc
      rcases hc with hc | rfl | hc
      · exact hds.parts c (List.mem_of_mem_take hc)
      · exact hpoint
      · exact hds.parts c (List.mem_of_mem_drop hc)
    · refine ⟨_, ⟨by simp, fun c hc => ?_⟩, rfl⟩
      simp only [List.cons_append, List.mem_append, List.mem_cons] at hc
      rcases hc with rfl | rfl | hc | hc
      · exact hzero
      · exact hpoint
      · exact isPlainPart_of_mem_zeros hc
      · exact hds.parts c hc

theorem isUnquoted_plain (d : Decimal) : IsUnquoted d.plain := by
  obtain ⟨t, ht, h⟩ := d.exists_plain_eq
  rw [h, sign]
  split
  · exact .minus ht
  · exact .plain ht

theorem negative_of_plain {d : Decimal} {t : List Char} (h : d.plain = '-' :: t) :
    d.negative = true := by
  obtain ⟨u, hu, hplain⟩ := d.exists_plain_eq
  rw [hplain, sign] at h
  split at h
  · assumption
  · exact absurd h hu.ne_minus

@[simp] theorem negative_strip (d : Decimal) : d.strip.negative = d.negative := by
  have go (fuel : Nat) (d : Decimal) : (stripFrom fuel d).negative = d.negative := by
    induction fuel generalizing d with
    | zero => rfl
    | succ fuel ih =>
      rw [stripFrom]
      split
      · exact ih _
      · rfl
  exact go _ d

end Decimal

namespace Finite64

-- The candidates stay a variable: their places are quotients of huge powers, which nothing here is to
-- work out.
theorem exists_shortest_eq {x : Finite64} (h : x.units ≠ 0) (tie : Tie) :
    ∃ grids : List Int, x.shortest tie =
      match grids.findSome? fun k => (x.neighbour? tie k).map (Decimal.mk x.negative · k) with
      | some d => d.strip
      | none => x.exact :=
  ⟨_, if_neg h⟩

theorem negative_shortest (tie : Tie) (x : Finite64) :
    (x.shortest tie).negative = x.negative := by
  by_cases h : x.units = 0
  · rw [shortest, if_pos h]
  obtain ⟨grids, hs⟩ := exists_shortest_eq h tie
  rw [hs]
  split
  · next d hd =>
    obtain ⟨k, -, hk⟩ := List.exists_of_findSome?_eq_some hd
    obtain ⟨coefficient, -, rfl⟩ := Option.map_eq_some_iff.mp hk
    rw [Decimal.negative_strip]
  · rw [exact]

end Finite64

/-! ### Values -/

namespace Value

/-- What the literal of a value can be: a quoted string, or a text that needs no quotes. -/
inductive IsLiteral : Value → List Char → Prop where
  | text (s : String) : IsLiteral (.text s) (quote s.toList)
  | unquoted {v : Value} {t : List Char} : IsUnquoted t → IsLiteral v t

/-- A literal is a quoted string or needs no quotes. -/
theorem isLiteral_of_literal {key : String} {v : Value} {t : List Char}
    (h : v.literal key = .ok t) : IsLiteral v t := by
  have word {t : List Char} (ht : t ≠ []) (hp : t.all isWordPart = true) : IsUnquoted t :=
    .plain ⟨ht, fun c hc => .inl (List.all_eq_true.mp hp c hc)⟩
  match v, h with
  | .null, rfl => exact .unquoted (word (by simp) (by decide))
  | .bool true, rfl => exact .unquoted (word (by simp) (by decide))
  | .bool false, rfl => exact .unquoted (word (by simp) (by decide))
  | .int n, rfl => exact .unquoted (Decimal.isUnquoted_integerText _)
  | .float (.finite x), rfl =>
    rw [Finite64.plainText, String.toList_ofList]
    exact .unquoted (Decimal.isUnquoted_plain _)
  | .text s, rfl => exact .text s

/-- A negative number; a zero may be one as well. -/
def IsNegative : Value → Prop
  | .int n => n.toInt < 0
  | .float (.finite x) => x.negative = true
  | _ => False

/-- Only negative numbers have a minus sign in front. -/
theorem isNegative_of_literal {key : String} {v : Value} {t : List Char}
    (h : v.literal key = .ok ('-' :: t)) : v.IsNegative := by
  match v, h with
  | .null, h => cases h
  | .bool true, h => cases h
  | .bool false, h => cases h
  | .text s, h => cases h
  | .int n, h => exact Decimal.negative_of_integerText (Except.ok.inj h)
  | .float (.finite x), h =>
    have hplain : (x.shortest .up).plain = '-' :: t := by
      have htext : x.plainText.toList = '-' :: t := Except.ok.inj h
      rwa [Finite64.plainText, String.toList_ofList] at htext
    exact (x.negative_shortest .up).symm.trans (Decimal.negative_of_plain hplain)

end Value

end SchemaQuery
