import SchemaQuery.Proofs.Number.Digits
import SchemaQuery.Proofs.Toml.Quoted
import SchemaQuery.Toml.Document

/-!
Documents that are written line by line are read back. A line is a header, or a key and its value, and it
is enough to know of each line alone what it is read as: none of them begins with space or like a comment,
and the reader takes them one after the other.
-/

namespace SchemaQuery.Toml

variable {r : List Char}

/-! ### Where keys and values begin -/

/-- A character with which a header, a key or a value begins. -/
def isFront (c : Char) : Bool := c = '[' || c = '"' || c = '\'' || isBare c

/-- The text is not empty and begins with such a character. -/
def Fronted (s : List Char) : Prop := ∃ c rest, s = c :: rest ∧ isFront c = true

theorem Fronted.append {s : List Char} (h : Fronted s) (r : List Char) : Fronted (s ++ r) := by
  obtain ⟨c, rest, rfl, hc⟩ := h
  exact ⟨c, rest ++ r, rfl, hc⟩

theorem ne_of_isFront {c d : Char} (hc : isFront c = true) (hd : isFront d = false) : c ≠ d := by
  rintro rfl
  rw [hc] at hd
  cases hd

@[simp] theorem skipSpace_space (r : List Char) : skipSpace (' ' :: r) = skipSpace r := rfl

theorem skipSpace_cons {c : Char} (hspace : c ≠ ' ') (htab : c ≠ '\t') (r : List Char) :
    skipSpace (c :: r) = c :: r := by
  simp [skipSpace, hspace, htab]

theorem Fronted.skipSpace_eq {s : List Char} (h : Fronted s) : skipSpace s = s := by
  obtain ⟨c, rest, rfl, hc⟩ := h
  exact skipSpace_cons (ne_of_isFront hc (by decide)) (ne_of_isFront hc (by decide)) rest

/-! ### Keys -/

theorem exists_keyText_eq (key : String) :
    ∃ c rest, keyText key = c :: rest ∧ (c = '"' ∨ isBare c = true) := by
  unfold keyText
  dsimp only
  split
  · next h =>
    obtain ⟨hne, hbare⟩ := h
    obtain ⟨c, rest, heq⟩ := List.exists_cons_of_ne_nil hne
    rw [heq, List.all_cons, Bool.and_eq_true] at hbare
    exact ⟨c, rest, heq, .inr hbare.1⟩
  · exact ⟨'"', _, rfl, .inl rfl⟩

theorem fronted_keyText (key : String) : Fronted (keyText key) := by
  obtain ⟨c, rest, heq, hc⟩ := exists_keyText_eq key
  refine ⟨c, rest, heq, ?_⟩
  rcases hc with rfl | hc
  · decide
  · simp [isFront, hc]

theorem head?_keyText_ne (key : String) (r : List Char) : (keyText key ++ r).head? ≠ some '[' := by
  obtain ⟨c, rest, heq, hc⟩ := exists_keyText_eq key
  rw [heq]
  intro h
  obtain rfl : c = '[' := Option.some.inj h
  rcases hc with hc | hc <;> exact absurd hc (by decide)

/-- A key is read back from how it is written, up to where no key goes on. -/
theorem key?_keyText (key : String) (hr : ∀ c ∈ r.head?, isBare c = false) :
    key? (keyText key ++ r) = some (key, r) := by
  unfold keyText
  dsimp only
  split
  · next h =>
    obtain ⟨hne, hbare⟩ := h
    obtain ⟨c, rest, heq⟩ := List.exists_cons_of_ne_nil hne
    rw [heq, List.all_cons, Bool.and_eq_true, List.all_eq_true] at hbare
    have hquote : ¬ (c = '"' ∨ c = '\'') := by
      rintro (rfl | rfl) <;> exact absurd hbare.1 (by decide)
    have hend : r.takeWhile isBare = [] ∧ r.dropWhile isBare = r := by
      cases r with
      | nil => exact ⟨rfl, rfl⟩
      | cons d r =>
        have hd := hr d rfl
        simp [hd]
    rw [heq, List.cons_append, key?, if_neg hquote, if_pos hbare.1,
      List.takeWhile_append_of_pos hbare.2, List.dropWhile_append_of_pos hbare.2, hend.1, hend.2,
      List.append_nil, ← heq, String.ofList_toList]
  · have heq : Form.basic.write key.toList ++ r = '"' :: (basicBody key.toList ++ '"' :: r) := by
      simp [Form.write]
    rw [heq, key?, if_pos (.inl rfl), lineString?, if_pos rfl, escapedFrom_basicBody, Option.map_some]
    exact congrArg (fun key => some (key, r)) String.ofList_toList

theorem path?_keyText (n : Nat) (key : String) (hr : ∀ c ∈ r.head?, isBare c = false)
    (hpoint : (skipSpace r).head? ≠ some '.') :
    path? (n + 1) (keyText key ++ r) = some ([key], skipSpace r) := by
  rw [path?, ((fronted_keyText key).append r).skipSpace_eq, key?_keyText key hr]
  simp only [Option.bind_eq_bind, Option.bind_some]
  split
  · next heq => exact absurd (heq ▸ rfl) hpoint
  · rfl

theorem path?_intercalate {path : List String} (hne : path ≠ []) {n : Nat} (hn : path.length ≤ n)
    (r : List Char) :
    path? n (List.intercalate ['.'] (path.map keyText) ++ ']' :: r) = some (path, ']' :: r) := by
  induction path generalizing n with
  | nil => exact absurd rfl hne
  | cons key path ih =>
    obtain ⟨n, rfl⟩ : ∃ m, n = m + 1 := ⟨n - 1, by simp only [List.length_cons] at hn; omega⟩
    cases path with
    | nil =>
      have hend : ∀ c ∈ (']' :: r).head?, isBare c = false := by
        intro c hc
        cases hc
        decide
      have hlast := path?_keyText n key hend (by simp [skipSpace])
      rw [skipSpace_cons (by decide) (by decide)] at hlast
      rwa [List.map_singleton, List.intercalate_singleton]
    | cons next path =>
      have hpoint (rest : List Char) : ∀ c ∈ ('.' :: rest).head?, isBare c = false := by
        intro c hc
        cases hc
        decide
      have ih := ih (by simp) (Nat.le_of_succ_le_succ hn)
      rw [List.map_cons, List.map_cons, List.intercalate_cons_cons, List.append_assoc, List.append_assoc,
        List.singleton_append, path?, ((fronted_keyText key).append _).skipSpace_eq,
        key?_keyText key (hpoint _)]
      simp only [Option.bind_eq_bind, Option.bind_some]
      rw [skipSpace_cons (by decide) (by decide)]
      simp only
      rw [← List.map_cons, ih]
      rfl

/-! ### Values -/

/-- A text that is read as a value up to the end of its line. -/
structure ReadsAs (s : List Char) (node : Node) : Prop where
  fronted : Fronted s
  value : ∀ room fuel r, value? room (fuel + 1) (s ++ '\n' :: r) = some (node, '\n' :: r)

theorem readsAs_quoted (s : List Char) : ReadsAs (quoted s) (.text (String.ofList s)) where
  fronted := by
    obtain ⟨q, rest, hq, heq, -⟩ := string?_quoted (r := []) nofun nofun s
    refine ⟨q, rest, by simpa using heq, ?_⟩
    rcases hq with rfl | rfl <;> decide
  value room fuel r := by
    obtain ⟨q, rest, hq, heq, hstring⟩ := string?_quoted (r := '\n' :: r) nofun nofun s
    rw [heq, value?, if_pos hq, hstring]
    rfl

/-! ### Numbers -/

section Digits

variable {ds : List Char}

theorem digitRun?_eq_self (hne : ds ≠ []) (h : ∀ c ∈ ds, c.isDigit = true) :
    digitRun? Char.isDigit ds = some ds := by
  induction ds with
  | nil => exact absurd rfl hne
  | cons c ds ih =>
    have hc := h c (by simp)
    cases ds with
    | nil => simp [digitRun?, hc]
    | cons d ds =>
      have hd := h d (by simp)
      have hunderscore : d ≠ '_' := by
        rintro rfl
        revert hd
        decide
      rw [digitRun?, if_pos hc, if_neg hunderscore, ih (by simp) fun c hc => h c (by simp [hc])]
      rfl

theorem momentText?_eq_none (h : ∀ c ∈ ds, c.isDigit = true) : momentText? ds = none := by
  have hne {c d : Char} (hc : c ∈ ds) (hd : d.isDigit = false) : c ≠ d := by
    rintro rfl
    rw [h c hc] at hd
    cases hd
  have hdate : isDate (ds.take 10) = false := by
    unfold isDate
    split
    · next heq =>
      have hmem : '-' ∈ ds.take 10 := by rw [heq]; simp
      exact absurd rfl (hne (List.mem_of_mem_take hmem) (by decide))
    · rfl
  have htime : timeText? ds = none := by
    unfold timeText?
    split
    · next heq =>
      have hmem : ':' ∈ ds.drop 5 := by rw [heq]; simp
      exact absurd rfl (hne (List.mem_of_mem_drop hmem) (by decide))
    · rfl
  rw [momentText?, hdate]
  exact htime

/-- Digits without a leading zero are an integer, if it fits. -/
theorem integer?_of_digits (hne : ds ≠ []) (h : ∀ c ∈ ds, c.isDigit = true)
    (hzero : ds = ['0'] ∨ ds.head? ≠ some '0') : integer? ds = int64? (Decimal.ofDigits ds) := by
  have hsigned : signed ds = (false, ds) := by
    unfold signed
    split
    · exact absurd (h '-' (by simp)) (by decide)
    · exact absurd (h '+' (by simp)) (by decide)
    · rfl
  have hwhole : wholeDigits? ds = some ds := by
    rw [wholeDigits?, digitRun?_eq_self hne h]
    simpa using hzero
  unfold integer?
  split
  · exact absurd (h 'x' (by simp)) (by decide)
  · exact absurd (h 'o' (by simp)) (by decide)
  · exact absurd (h 'b' (by simp)) (by decide)
  · rw [hsigned]
    dsimp only
    rw [hwhole]
    rfl

theorem run_digits (h : ∀ c ∈ ds, c.isDigit = true) (r : List Char) : run (ds ++ '\n' :: r) = ds := by
  have hends : ∀ c ∈ ds, (!endsScalar c) = true := by
    intro c hc
    have hdigit := h c hc
    simp only [endsScalar, Bool.not_eq_true', Bool.or_eq_false_iff, decide_eq_false_iff_not]
    refine ⟨⟨⟨⟨⟨⟨⟨?_, ?_⟩, ?_⟩, ?_⟩, ?_⟩, ?_⟩, ?_⟩, ?_⟩ <;> (rintro rfl; revert hdigit; decide)
  have hfirst : (ds ++ '\n' :: r).takeWhile (!endsScalar ·) = ds := by
    rw [List.takeWhile_append_of_pos hends]
    simp [endsScalar]
  rw [run, hfirst, List.drop_left]
  rfl

end Digits

theorem scalar?_digits {n : Nat} (hn : (n : Int) ≤ Int64.maxValue.toInt) :
    scalar? (Decimal.digits n) = some (.integer (Int64.ofInt n)) := by
  have hdigit {c : Char} (hc : c ∈ Decimal.digits n) : c.isDigit = true :=
    Decimal.isDigit_of_mem_digits hc
  have hword {s : List Char} (hs : ∃ c ∈ s, c.isDigit = false) : Decimal.digits n ≠ s := by
    rintro rfl
    obtain ⟨c, hc, hc'⟩ := hs
    rw [hdigit hc] at hc'
    cases hc'
  have hmin : Int64.minValue.toInt ≤ (n : Int) := Int.le_trans (by decide) (Int.natCast_nonneg n)
  rw [scalar?, if_neg (hword ⟨'t', by decide, by decide⟩), if_neg (hword ⟨'f', by decide, by decide⟩),
    momentText?_eq_none fun _ => hdigit, integer?_of_digits (Decimal.digits_ne_nil n) (fun _ => hdigit)
      (Decimal.digits_eq_zero_or n), Decimal.ofDigits_digits, int64?, if_pos ⟨hmin, hn⟩]
  rfl

/-- A number that fits is read back as a value. -/
theorem readsAs_digits {n : Nat} (hn : (n : Int) ≤ Int64.maxValue.toInt) :
    ReadsAs (Decimal.digits n) (.integer (Int64.ofInt n)) where
  fronted := by
    obtain ⟨c, rest, heq⟩ := List.exists_cons_of_ne_nil (Decimal.digits_ne_nil n)
    have hc : c.isDigit = true := Decimal.isDigit_of_mem_digits (n := n) (by rw [heq]; simp)
    exact ⟨c, rest, heq, by simp [isFront, isBare, Char.isAlphanum, hc]⟩
  value room fuel r := by
    obtain ⟨c, rest, heq⟩ := List.exists_cons_of_ne_nil (Decimal.digits_ne_nil n)
    have hc : c.isDigit = true := Decimal.isDigit_of_mem_digits (n := n) (by rw [heq]; simp)
    have hne {d : Char} (hd : d.isDigit = false) : c ≠ d := by
      rintro rfl
      rw [hc] at hd
      cases hd
    have hrun := run_digits (fun _ => Decimal.isDigit_of_mem_digits (n := n)) r
    have hquote : ¬ (c = '"' ∨ c = '\'') := fun h => h.elim (hne (by decide)) (hne (by decide))
    rw [heq, List.cons_append] at hrun ⊢
    rw [value?, if_neg hquote, if_neg (hne (by decide)), if_neg (hne (by decide)), hrun, ← heq,
      scalar?_digits hn, ← List.cons_append, ← heq, List.drop_left]
    rfl

/-! ### Lines -/

theorem statement?_of_head? {s : List Char} (h : s.head? ≠ some '[') : statement? s = entry? s := by
  unfold statement?
  split
  · exact absurd rfl h
  · exact absurd rfl h
  · rfl

theorem statement?_entry {value : List Char} {node : Node} (h : ReadsAs value node) (key : String)
    (r : List Char) :
    statement? (keyText key ++ ' ' :: '=' :: ' ' :: (value ++ '\n' :: r)) =
      some (.entry [key] node, '\n' :: r) := by
  have hspace : ∀ c ∈ (' ' :: '=' :: ' ' :: (value ++ '\n' :: r)).head?, isBare c = false := by
    intro c hc
    cases hc
    decide
  rw [statement?_of_head? (head?_keyText_ne key _), entry?, mostParts,
    path?_keyText 78 key hspace (by simp [skipSpace]), skipSpace_space,
    skipSpace_cons (by decide) (by decide)]
  simp only [Option.bind_eq_bind, Option.bind_some, skipSpace_space]
  rw [(h.fronted.append _).skipSpace_eq, h.value]
  rfl

theorem statement?_header {path : List String} (hne : path ≠ []) (hpath : path.length ≤ mostParts)
    (r : List Char) :
    statement? ('[' :: (List.intercalate ['.'] (path.map keyText) ++ ']' :: '\n' :: r)) =
      some (.header path, '\n' :: r) := by
  have hhead : (List.intercalate ['.'] (path.map keyText) ++ ']' :: '\n' :: r).head? ≠ some '[' := by
    cases path with
    | nil => exact absurd rfl hne
    | cons key path =>
      cases path with
      | nil =>
        rw [List.map_singleton, List.intercalate_singleton]
        exact head?_keyText_ne key _
      | cons next path =>
        rw [List.map_cons, List.map_cons, List.intercalate_cons_cons, List.append_assoc, List.append_assoc]
        exact head?_keyText_ne key _
  have hread := path?_intercalate hne hpath ('\n' :: r)
  unfold statement?
  split
  · next heq => exact absurd (by rw [(List.cons.inj heq).2]; rfl) hhead
  · next heq =>
    rw [← (List.cons.inj heq).2, hread]
    rfl
  · next heq => exact absurd rfl (heq _)

/-- A text that is read as some statements. -/
def Reads (s : List Char) (statements : List Statement) : Prop :=
  ∀ fuel, s.length < fuel → statementsFrom fuel s = some statements

theorem reads_nil : Reads [] [] := by
  intro fuel hfuel
  cases fuel with
  | zero => cases hfuel
  | succ fuel => rfl

theorem Reads.blank {statements : List Statement} (h : Reads r statements) :
    Reads ('\n' :: r) statements := by
  intro fuel hfuel
  cases fuel with
  | zero => cases hfuel
  | succ fuel => exact h fuel (Nat.lt_of_succ_lt_succ hfuel)

theorem Reads.line {line : List Char} {statement : Statement} {statements : List Statement}
    (hline : Fronted line) (hstatement : statement? (line ++ '\n' :: r) = some (statement, '\n' :: r))
    (h : Reads r statements) : Reads (line ++ '\n' :: r) (statement :: statements) := by
  intro fuel hfuel
  cases fuel with
  | zero => cases hfuel
  | succ fuel =>
    have hrest := h fuel (by simp only [List.length_append, List.length_cons] at hfuel; omega)
    rw [statementsFrom, (hline.append _).skipSpace_eq]
    obtain ⟨c, rest, rfl, hc⟩ := hline
    have hmark : ¬ (c = '#' ∨ c = '\n' ∨ c = '\r') := by
      rintro (rfl | rfl | rfl) <;> exact absurd hc (by decide)
    rw [List.cons_append] at hstatement ⊢
    have hend : lineEnd? ('\n' :: r) = some r := by
      rw [lineEnd?, skipSpace_cons (by decide) (by decide)]
      rfl
    simp only [if_neg hmark, hstatement, Option.bind_eq_bind, Option.bind_some, hend, hrest]

end SchemaQuery.Toml
