import SchemaQuery.Proofs.Collection.Dictionary
import SchemaQuery.Proofs.Json.Text

/-!
The node of a value means the value, if its containers are not nested too deeply. Nothing else can go wrong:
the fields of an object stand in the order of their names, and no number is too great.
-/

namespace SchemaQuery

namespace Json

theorem Integer.integer?_numeral (n : Integer) : n.numeral.integer? = some n := by
  have hvalue : (if n.value < 0 then -(n.value.natAbs : Int) else n.value.natAbs) = n.value := by
    split <;> omega
  have hzero : (decide (n.value < 0) && decide (n.value.natAbs = 0)) = false := by
    rw [Bool.and_eq_false_iff, decide_eq_false_iff_not, decide_eq_false_iff_not]
    omega
  have hfits : Int64.minValue.toInt ≤ n.value ∧ n.value < UInt64.size := ⟨n.lower, n.upper⟩
  simp only [Numeral.integer?, numeral, Numeral.isInteger, Decimal.ofDigits_digits, hzero,
    decide_eq_true_eq, hvalue, List.isEmpty_nil, Option.isNone_none, Bool.and_self, Bool.not_false, if_true,
    ofInt?, dif_pos hfits]

theorem ofNumeral?_numeral (n : Integer) : ofNumeral? n.numeral = some (.int n) := by
  rw [ofNumeral?, n.integer?_numeral]

mutual

/-- How many containers of the value are nested in each other. -/
def depth : Json → Nat
  | .null | .bool _ | .int _ | .float _ | .string _ => 0
  | .array items => depthItems items + 1
  | .object fields => depthFields fields + 1

/-- How many containers are nested in each other in the items of an array. -/
def depthItems : List Json → Nat
  | [] => 0
  | item :: items => max item.depth (depthItems items)

/-- How many containers are nested in each other in the fields of an object. -/
def depthFields : List (String × Json) → Nat
  | [] => 0
  | (_, item) :: fields => max item.depth (depthFields fields)

end

theorem depthItems_le_iff {items : List Json} {room : Nat} :
    depthItems items ≤ room ↔ ∀ item ∈ items, item.depth ≤ room := by
  induction items with
  | nil => simp [depthItems]
  | cons item items ih => rw [depthItems, Nat.max_le, ih, List.forall_mem_cons]

theorem depthFields_le_iff {fields : List (String × Json)} {room : Nat} :
    depthFields fields ≤ room ↔ ∀ e ∈ fields, e.2.depth ≤ room := by
  induction fields with
  | nil => simp [depthFields]
  | cons e fields ih =>
    obtain ⟨name, item⟩ := e
    rw [depthFields, Nat.max_le, ih, List.forall_mem_cons]

mutual

/-- In every object of the value the names of the fields increase. -/
def Ordered : Json → Prop
  | .null | .bool _ | .int _ | .float _ | .string _ => True
  | .array items => OrderedItems items
  | .object fields => (fields.map Prod.fst).Pairwise (· < ·) ∧ OrderedFields fields

/-- Every item is ordered. -/
def OrderedItems : List Json → Prop
  | [] => True
  | item :: items => item.Ordered ∧ OrderedItems items

/-- The value of every field is ordered. -/
def OrderedFields : List (String × Json) → Prop
  | [] => True
  | (_, item) :: fields => item.Ordered ∧ OrderedFields fields

end

theorem orderedItems_iff {items : List Json} : OrderedItems items ↔ ∀ item ∈ items, item.Ordered := by
  induction items with
  | nil => simp [OrderedItems]
  | cons item items ih => simp [OrderedItems, ih]

theorem orderedFields_iff {fields : List (String × Json)} :
    OrderedFields fields ↔ ∀ e ∈ fields, e.2.Ordered := by
  induction fields with
  | nil => simp [OrderedFields]
  | cons e fields ih =>
    obtain ⟨name, item⟩ := e
    simp [OrderedFields, ih]

mutual

/-- The node of a value means the value, if there is room for it. -/
theorem ofNode?_node : ∀ (v : Json) (room : Nat), v.Legible → v.Ordered →
    ofNode? room v.node = if v.depth ≤ room then some v else none
  | .null, room, _, _ => rfl
  | .bool b, room, _, _ => rfl
  | .int n, room, _, _ => ofNumeral?_numeral n
  | .float x, room, hv, _ => hv.value
  | .string s, room, _, _ => rfl
  | .array items, room, hv, ho => by
    rw [node, ofNode?, depth]
    cases room with
    | zero => rfl
    | succ room =>
      rw [if_neg (Nat.succ_ne_zero room), Nat.add_sub_cancel, ofNodes?_nodes items room hv ho]
      simp only [Nat.add_le_add_iff_right]
      split <;> rfl
  | .object fields, room, hv, ho => by
    rw [node, ofNode?, depth]
    cases room with
    | zero => rfl
    | succ room =>
      rw [if_neg (Nat.succ_ne_zero room), Nat.add_sub_cancel, ofMembers?_members fields ho.1 room hv ho.2]
      simp only [Nat.add_le_add_iff_right]
      split <;> rfl

theorem ofNodes?_nodes : ∀ (items : List Json) (room : Nat), LegibleItems items → OrderedItems items →
    ofNodes? room (nodes items) = if depthItems items ≤ room then some items else none
  | [], room, _, _ => rfl
  | item :: items, room, hv, ho => by
    rw [nodes, ofNodes?, ofNode?_node item room hv.1 ho.1, ofNodes?_nodes items room hv.2 ho.2, depthItems]
    simp only [Nat.max_le]
    by_cases hitem : item.depth ≤ room <;> by_cases hitems : depthItems items ≤ room <;>
      simp [hitem, hitems]

/-- The members of fields mean the fields, if there is room for all of them. -/
theorem ofMembers?_members : ∀ (fields : List (String × Json))
    (hsorted : (fields.map Prod.fst).Pairwise (· < ·)) (room : Nat), LegibleFields fields →
      OrderedFields fields →
        ofMembers? room (members fields) = if depthFields fields ≤ room then some ⟨fields, hsorted⟩ else none
  | [], _, room, _, _ => rfl
  | (name, item) :: fields, hsorted, room, hv, ho => by
    obtain ⟨hname, hfields⟩ := List.pairwise_cons.mp hsorted
    rw [members, ofMembers?, ofNode?_node item room hv.1 ho.1,
      ofMembers?_members fields hfields room hv.2 ho.2, depthFields]
    simp only [Nat.max_le]
    by_cases hitem : item.depth ≤ room <;> by_cases hrest : depthFields fields ≤ room
    · have hcontains : (⟨fields, hfields⟩ : Dictionary Json).contains name = false :=
        Dictionary.contains_eq_false hname
      have hinsert : (⟨fields, hfields⟩ : Dictionary Json).insert name item =
          ⟨(name, item) :: fields, hsorted⟩ := by
        simp only [Dictionary.insert, Dictionary.insertEntry_of_forall_lt hname]
      simp [hitem, hrest, hcontains, hinsert]
    all_goals simp [hitem, hrest]

end

end Json

end SchemaQuery
