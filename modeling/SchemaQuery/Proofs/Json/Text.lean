import SchemaQuery.Proofs.Json.Scalar

/-!
The text of a value is read back as its node, one value inside the other. The text of a binary number is
taken as it is found: it is only asked whether it reads back as that number.
-/

namespace SchemaQuery

/-- The numeral that the text of a binary number is. -/
def Finite64.numeral (x : Finite64) : Json.Numeral :=
  match Json.Node.numeral? x.documentText.toList with
  | some (n, _) => n
  | none => ⟨x.negative, [], [], none⟩

/-- The text of a binary number is one numeral, and that is read back as the number. -/
structure Finite64.ReadsBack (x : Finite64) : Prop where
  text : Json.Node.numeral? x.documentText.toList = some (x.numeral, [])
  value : Json.ofNumeral? x.numeral = some (.float x)

theorem Json.ofNumeral?_eq_float_iff {n : Numeral} {x : Finite64} :
    ofNumeral? n = some (.float x) ↔ n.integer? = none ∧ Finite64.ofDecimal? n.value = some x := by
  unfold ofNumeral?
  cases n.integer? <;> simp

instance (x : Finite64) : Decidable x.ReadsBack :=
  decidable_of_iff (Json.Node.numeral? x.documentText.toList = some (x.numeral, []) ∧
      x.numeral.integer? = none ∧ Finite64.ofDecimal? x.numeral.value = some x)
    ⟨fun h => ⟨h.1, Json.ofNumeral?_eq_float_iff.mpr h.2⟩,
      fun h => ⟨h.text, Json.ofNumeral?_eq_float_iff.mp h.value⟩⟩

namespace Json

mutual

/-- The node of a value. -/
def node : Json → Node
  | .null => .null
  | .bool b => .bool b
  | .int n => .number n.numeral
  | .float x => .number x.numeral
  | .string s => .string (some s)
  | .array items => .array (nodes items)
  | .object fields => .object (members fields)

/-- The nodes of the items of an array. -/
def nodes : List Json → List Node
  | [] => []
  | item :: items => item.node :: nodes items

/-- The members of the fields of an object. -/
def members : List (String × Json) → List (Option String × Node)
  | [] => []
  | (name, item) :: fields => (some name, item.node) :: members fields

end

mutual

/-- Every binary number in the value reads back. -/
def Legible : Json → Prop
  | .null | .bool _ | .int _ | .string _ => True
  | .float x => x.ReadsBack
  | .array items => LegibleItems items
  | .object fields => LegibleFields fields

/-- Every binary number in the items reads back. -/
def LegibleItems : List Json → Prop
  | [] => True
  | item :: items => item.Legible ∧ LegibleItems items

/-- Every binary number in the fields reads back. -/
def LegibleFields : List (String × Json) → Prop
  | [] => True
  | (_, item) :: fields => item.Legible ∧ LegibleFields fields

end

theorem legibleItems_iff {items : List Json} : LegibleItems items ↔ ∀ item ∈ items, item.Legible := by
  induction items with
  | nil => simp [LegibleItems]
  | cons item items ih => simp [LegibleItems, ih]

theorem legibleFields_iff {fields : List (String × Json)} :
    LegibleFields fields ↔ ∀ e ∈ fields, e.2.Legible := by
  induction fields with
  | nil => simp [LegibleFields]
  | cons e fields ih =>
    obtain ⟨name, item⟩ := e
    simp [LegibleFields, ih]

/-- A character with which a value begins. -/
def isFront (c : Char) : Bool := !Node.isSpace c && c ≠ ']'

/-- A value begins with a character that is neither space nor the end of an array. -/
theorem exists_compact_eq {v : Json} (hv : v.Legible) : ∃ c s, v.compact = c :: s ∧ isFront c = true := by
  have hnumber {s : List Char} {n : Numeral} (h : Node.numeral? s = some (n, [])) :
      ∃ c s', s = c :: s' ∧ isFront c = true := by
    obtain ⟨c, s', rfl, hc⟩ := Node.head?_of_numeral? h
    refine ⟨c, s', rfl, ?_⟩
    rcases hc with rfl | hc
    · decide
    · have hne {d : Char} (hd : d.isDigit = false) : c ≠ d := by
        rintro rfl
        rw [hc] at hd
        cases hd
      simp [isFront, Node.isSpace, hne]
  cases v with
  | null => exact ⟨'n', _, rfl, by decide⟩
  | bool b => cases b <;> exact ⟨_, _, rfl, by decide⟩
  | int n => exact hnumber n.numeral?_integerText
  | float x => exact hnumber hv.text
  | string s => exact ⟨'"', _, rfl, by decide⟩
  | array items => exact ⟨'[', _, rfl, by decide⟩
  | object fields => exact ⟨'{', _, rfl, by decide⟩

theorem compactItems_cons_cons (item next : Json) (items : List Json) :
    compactItems (item :: next :: items) = item.compact ++ ',' :: compactItems (next :: items) := rfl

theorem compactFields_cons_cons (name next : String) (item nextItem : Json)
    (fields : List (String × Json)) :
    compactFields ((name, item) :: (next, nextItem) :: fields) =
      stringText name ++ ':' :: item.compact ++ ',' :: compactFields ((next, nextItem) :: fields) := rfl

namespace Node

theorem skip_cons {c : Char} (hc : isSpace c = false) (s : List Char) : skip (c :: s) = c :: s := by
  simp [skip, hc]

theorem skip_compact {v : Json} (hv : v.Legible) (s : List Char) : skip (v.compact ++ s) = v.compact ++ s := by
  obtain ⟨c, s', heq, hc⟩ := exists_compact_eq hv
  rw [heq, List.cons_append, skip_cons]
  simp only [isFront, Bool.and_eq_true, Bool.not_eq_true'] at hc
  exact hc.1

theorem skip_compactItems {item : Json} (hitem : item.Legible) (items : List Json) (r : List Char) :
    ∃ c s, skip (compactItems (item :: items) ++ r) = c :: s ∧ c ≠ ']' ∧
      compactItems (item :: items) ++ r = c :: s := by
  obtain ⟨c, s, heq, hc⟩ := exists_compact_eq hitem
  simp only [isFront, Bool.and_eq_true, Bool.not_eq_true', decide_eq_true_eq] at hc
  obtain ⟨rest, hrest⟩ : ∃ rest, compactItems (item :: items) ++ r = c :: rest := by
    cases items with
    | nil => exact ⟨_, by rw [compactItems, heq]; rfl⟩
    | cons next items => exact ⟨_, by rw [compactItems_cons_cons, heq]; rfl⟩
  exact ⟨c, rest, by rw [hrest, skip_cons hc.1], hc.2, hrest⟩

theorem exists_compactFields_eq (name : String) (item : Json) (fields : List (String × Json)) :
    ∃ s, compactFields ((name, item) :: fields) = '"' :: s := by
  cases fields with
  | nil => exact ⟨_, rfl⟩
  | cons next fields => exact ⟨_, rfl⟩

mutual

/-- A value is read back, if there are more steps than characters. -/
theorem value?_compact : ∀ (v : Json) (fuel : Nat) (r : List Char), v.Legible → v.compact.length < fuel →
    EndsNumber r → value? fuel (v.compact ++ r) = some (v.node, r)
  | .null, fuel + 1, r, _, _, _ => rfl
  | .bool true, fuel + 1, r, _, _, _ => rfl
  | .bool false, fuel + 1, r, _, _, _ => rfl
  | .int n, fuel + 1, r, _, _, hr => value?_of_numeral? (numeral?_append hr n.numeral?_integerText) fuel
  | .float x, fuel + 1, r, hv, _, hr => value?_of_numeral? (numeral?_append hr hv.text) fuel
  | .string text, fuel + 1, r, _, _, _ => by
    rw [compact, stringText, List.append_assoc, List.cons_append, List.singleton_append, value?,
      string?_stringText]
    rfl
  | .array [], fuel + 1, r, _, _, _ => rfl
  | .array (item :: items), fuel + 1, r, hv, hfuel, _ => by
    have hread := items?_compactItems item items fuel r hv (by
      simp only [compact, List.length_cons] at hfuel
      omega)
    obtain ⟨c, s, hskip, hc, heq⟩ := skip_compactItems hv.1 items r
    rw [compact, List.cons_append, value?, hskip]
    simp only
    split
    · next h => exact absurd (List.cons.inj h).1 hc
    · rw [← heq, hread]
      rfl
  | .object [], fuel + 1, r, _, _, _ => rfl
  | .object ((name, item) :: fields), fuel + 1, r, hv, hfuel, _ => by
    have hread := members?_compactFields name item fields fuel r hv (by
      simp only [compact, List.length_cons] at hfuel
      omega)
    obtain ⟨s, heq⟩ := exists_compactFields_eq name item fields
    rw [heq, List.cons_append] at hread
    rw [compact, List.cons_append, value?, heq, List.cons_append, skip_cons (by decide)]
    exact congrArg (Option.map fun (ms, r) => (object ms, r)) hread

/-- The items of an array are read back. -/
theorem items?_compactItems : ∀ (item : Json) (items : List Json) (fuel : Nat) (r : List Char),
    LegibleItems (item :: items) → (compactItems (item :: items)).length < fuel →
      items? fuel (compactItems (item :: items) ++ r) = some (nodes (item :: items), r)
  | item, [], fuel + 1, r, hitems, hfuel => by
    have hread := value?_compact item fuel (']' :: r) hitems.1 (by
      simp only [compactItems, List.length_append, List.length_singleton] at hfuel
      omega) (endsNumber_cons (by decide) r)
    rw [compactItems, List.append_assoc, List.singleton_append, items?, hread]
    rfl
  | item, next :: items, fuel + 1, r, hitems, hfuel => by
    simp only [compactItems_cons_cons, List.length_append, List.length_cons] at hfuel
    have hread := value?_compact item fuel (',' :: (compactItems (next :: items) ++ r)) hitems.1 (by omega)
      (endsNumber_cons (by decide) _)
    have hrest := items?_compactItems next items fuel r hitems.2 (by omega)
    obtain ⟨c, s, hskip, -, heq⟩ := skip_compactItems hitems.2.1 items r
    rw [compactItems_cons_cons, List.append_assoc, List.cons_append, items?, hread]
    simp only [Option.bind_eq_bind, Option.bind_some, skip_cons (c := ',') (by decide)]
    rw [hskip, ← heq, hrest]
    rfl

/-- The members of an object are read back. -/
theorem members?_compactFields : ∀ (name : String) (item : Json) (fields : List (String × Json)) (fuel : Nat)
    (r : List Char), LegibleFields ((name, item) :: fields) →
      (compactFields ((name, item) :: fields)).length < fuel →
        members? fuel (compactFields ((name, item) :: fields) ++ r) =
          some (members ((name, item) :: fields), r)
  | name, item, [], fuel + 1, r, hfields, hfuel => by
    simp only [compactFields, List.length_append, List.length_cons, List.length_nil] at hfuel
    have hread := value?_compact item fuel ('}' :: r) hfields.1 (by omega) (endsNumber_cons (by decide) r)
    rw [compactFields, stringText]
    simp only [List.append_assoc, List.cons_append, List.nil_append]
    rw [members?, string?_stringText]
    simp only [Option.bind_eq_bind, Option.bind_some]
    rw [skip_cons (by decide)]
    simp only
    rw [skip_compact hfields.1, hread]
    rfl
  | name, item, (next, nextItem) :: fields, fuel + 1, r, hfields, hfuel => by
    simp only [compactFields_cons_cons, List.length_append, List.length_cons] at hfuel
    have hread := value?_compact item fuel (',' :: (compactFields ((next, nextItem) :: fields) ++ r))
      hfields.1 (by omega) (endsNumber_cons (by decide) _)
    have hrest := members?_compactFields next nextItem fields fuel r hfields.2 (by omega)
    rw [compactFields_cons_cons, stringText]
    simp only [List.append_assoc, List.cons_append, List.nil_append]
    rw [members?, string?_stringText]
    simp only [Option.bind_eq_bind, Option.bind_some]
    rw [skip_cons (by decide)]
    simp only
    obtain ⟨s, heq⟩ := exists_compactFields_eq next nextItem fields
    rw [heq, List.cons_append] at hread hrest ⊢
    rw [skip_compact hfields.1, hread]
    simp only [Option.bind_some]
    rw [skip_cons (by decide)]
    simp only
    rw [skip_cons (by decide), hrest]
    rfl

end

/-- A document is read back as the node of its value. -/
theorem read?_compact {v : Json} (hv : v.Legible) : read? v.compact = some v.node := by
  have hread := value?_compact v (v.compact.length + 1) [] hv (Nat.lt_succ_self _) nofun
  have hskip := skip_compact hv []
  rw [List.append_nil] at hread hskip
  rw [read?, hskip, hread]
  rfl

end Node

end Json

end SchemaQuery
