import SchemaQuery.Proofs.Wire.Reading
import SchemaQuery.Wire.Task

/-!
The decoders of states, notifications, tasks and views invert their encodings. States and notifications are
never nested deeply; the arguments and the results of a task may be. The texts of times are taken as they
are found: it is only asked whether they read back.
-/

namespace SchemaQuery

open Decoder
open Json (Within)

/-! ### States and notifications -/

theorem ExecutionState.inverts (state : ExecutionState) : Inverts decoder state.toJson state := by
  cases state with
  | running => exact inverts_tagged_alone fun _ => rfl
  | succeeded => exact inverts_tagged_alone fun _ => rfl
  | cancelled => exact inverts_tagged_alone fun _ => rfl
  | failed reason =>
    refine inverts_tagged (by decide) (by cases reason <;> trivial) (by cases reason <;> trivial)
      (inverts_record (by simp) fun room => ?_)
    refine Eq.trans (bind_eq_ite (memberOrNull_ofFields (inverts_ofOption_string reason) rfl room)
      (pure_eq_ite _)) ?_
    simp

theorem ExecutionState.within (state : ExecutionState) : state.toJson.Within 1 := by
  cases state <;> exact .ofFields (by simp) (by simp [Within.ofOption Within.string])

theorem ExecutionId.inverts (id : ExecutionId) : Inverts decoder (.string id.text) id :=
  (inverts_string id.text).map ExecutionId.mk

theorem Notification.inverts (n : Notification) : Inverts decoder n.toJson n := by
  refine inverts_record (by simp) fun room => ?_
  refine Eq.trans (bind_eq_ite (member_ofFields n.execution.inverts rfl room)
    (bind_eq_ite (member_ofFields n.state.inverts rfl room) (pure_eq_ite _))) ?_
  simp

theorem Notification.within (n : Notification) : n.toJson.Within 2 :=
  .ofFields (by simp) (by simp [n.state.within])

/-! ### Argument values -/

namespace Value

mutual

/-- Every binary number in the value is finite. -/
def Finite : Value → Prop
  | .null | .bool _ | .int _ | .text _ => True
  | .float x => ∃ y, x = .finite y
  | .list items => FiniteItems items
  | .object fields => FiniteFields fields

/-- Every binary number in the items is finite. -/
def FiniteItems : List Value → Prop
  | [] => True
  | item :: items => item.Finite ∧ FiniteItems items

/-- Every binary number in the fields is finite. -/
def FiniteFields : List (String × Value) → Prop
  | [] => True
  | (_, item) :: fields => item.Finite ∧ FiniteFields fields

end

theorem ofInteger_ofInt64 (n : Int64) : ofInteger (.ofInt64 n) = .int n := by
  have hvalue : (Json.Integer.ofInt64 n).value = n.toInt := rfl
  rw [ofInteger, hvalue, if_pos n.toInt_le, Int64.ofInt_toInt]

mutual

/-- A value whose binary numbers are finite is what its JSON value stands for. -/
theorem ofJson_toJson : ∀ v : Value, v.Finite → ofJson v.toJson = v
  | .null, _ => rfl
  | .bool _, _ => rfl
  | .int n, _ => ofInteger_ofInt64 n
  | .float _, ⟨_, rfl⟩ => rfl
  | .text _, _ => rfl
  | .list items, h => congrArg Value.list (ofJsonItems_toJsonItems items h)
  | .object fields, h => congrArg Value.object (ofJsonFields_toJsonFields fields h)

theorem ofJsonItems_toJsonItems : ∀ items : List Value, FiniteItems items →
    ofJsonItems (toJsonItems items) = items
  | [], _ => rfl
  | item :: items, h =>
    congr (congrArg List.cons (ofJson_toJson item h.1)) (ofJsonItems_toJsonItems items h.2)

theorem ofJsonFields_toJsonFields : ∀ fields : List (String × Value), FiniteFields fields →
    ofJsonFields (toJsonFields fields) = fields
  | [], _ => rfl
  | (name, item) :: fields, h =>
    congr (congrArg (fun v => List.cons (name, v)) (ofJson_toJson item h.1))
      (ofJsonFields_toJsonFields fields h.2)

end

theorem inverts {v : Value} (h : v.Finite) (hv : v.toJson.Legible) (ho : v.toJson.Ordered) :
    Inverts decoder v.toJson v := by
  have hread := (inverts_json hv ho).map ofJson
  rwa [ofJson_toJson v h] at hread

end Value

/-- Every binary number in the arguments is finite. -/
def Arguments.Finite (args : Arguments) : Prop := ∀ e ∈ args.entries, e.2.Finite

theorem Arguments.inverts {args : Arguments} (h : args.Finite) (hv : args.toJson.Legible)
    (ho : args.toJson.Ordered) : Inverts decoder args.toJson args := by
  refine inverts_dictionary fun e he => Value.inverts (h e he) ?_ ?_
  · rw [toJson, Json.ofDictionary, Json.Legible, Json.legibleFields_iff, Dictionary.map,
      List.forall_mem_map] at hv
    exact hv e he
  · rw [toJson, Json.ofDictionary, Json.Ordered, Json.orderedFields_iff, Dictionary.map,
      List.forall_mem_map] at ho
    exact ho.2 e he

/-! ### Records -/

theorem Record.inverts_list {rows : List Record} (hv : (listToJson rows).Legible)
    (ho : (listToJson rows).Ordered) : Inverts listDecoder (listToJson rows) rows := by
  rw [listToJson, Json.Legible, Json.legibleItems_iff, List.forall_mem_map] at hv
  rw [listToJson, Json.Ordered, Json.orderedItems_iff, List.forall_mem_map] at ho
  refine Decoder.inverts_list fun row hrow => ?_
  have hrow' : row.map id = row := by simp [Dictionary.map]
  have hread : Inverts (dictionary json) (.ofDictionary (row.map id)) row :=
    inverts_dictionary fun e he => inverts_json (Json.legibleFields_iff.mp (hv row hrow) e he)
      (Json.orderedFields_iff.mp (ho row hrow).2 e he)
  rwa [hrow'] at hread

/-! ### Tasks and views -/

theorem TaskStatus.inverts (status : TaskStatus) : Inverts decoder status.toJson status :=
  inverts_choice (by cases status <;> rfl)

theorem ViewStatus.inverts (status : ViewStatus) : Inverts decoder status.toJson status :=
  inverts_choice (by cases status <;> rfl)

theorem TaskId.inverts (id : TaskId) : Inverts decoder (.string id.text) id :=
  (inverts_string id.text).map TaskId.mk

/-- The text of the time reads back as the time. -/
def Instant.ReadsBack (t : Instant) : Prop := read? t.text = some t

instance (t : Instant) : Decidable t.ReadsBack := inferInstanceAs (Decidable (_ = _))

theorem Instant.inverts {t : Instant} (h : t.ReadsBack) : Inverts decoder t.toJson t := by
  intro room
  rw [decoder, toJson, Json.node, Decoder.string, Option.bind_some, h]
  rfl

theorem Instant.inverts_ofOption {time : Option Instant} (h : ∀ t ∈ time, t.ReadsBack) :
    Inverts (nullable decoder) (.ofOption toJson time) time :=
  Decoder.inverts_ofOption (fun t ht => Instant.inverts (h t ht)) fun _ => nofun

theorem Record.inverts_ofOption {result : Option (List Record)}
    (hv : (Json.ofOption listToJson result).Legible) (ho : (Json.ofOption listToJson result).Ordered) :
    Inverts (nullable listDecoder) (.ofOption listToJson result) result := by
  refine Decoder.inverts_ofOption (fun rows hrows => ?_) fun _ => nofun
  obtain rfl : result = some rows := hrows
  exact inverts_list hv ho

/-- The times of a task. -/
def Task.times (t : Task) : List Instant := t.startedAt :: t.finishedAt.toList

/-- Only in the arguments and the result of a task there may be numbers that cannot be read. -/
theorem Task.legible_iff {t : Task} : t.toJson.Legible ↔
    t.arguments.toJson.Legible ∧ (Json.ofOption Record.listToJson t.result).Legible := by
  have hfinished : (Json.ofOption Instant.toJson t.finishedAt).Legible := by
    cases t.finishedAt <;> trivial
  have herror : (Json.ofOption Json.string t.error).Legible := by cases t.error <;> trivial
  rw [toJson, Json.legible_ofFields_iff (by simp)]
  simp [Json.Legible, TaskStatus.toJson, Instant.toJson, hfinished, herror]

theorem Task.ordered_iff {t : Task} : t.toJson.Ordered ↔
    t.arguments.toJson.Ordered ∧ (Json.ofOption Record.listToJson t.result).Ordered := by
  have hfinished : (Json.ofOption Instant.toJson t.finishedAt).Ordered := by
    cases t.finishedAt <;> trivial
  have herror : (Json.ofOption Json.string t.error).Ordered := by cases t.error <;> trivial
  rw [toJson, Json.ordered_ofFields_iff (by simp)]
  simp [Json.Ordered, TaskStatus.toJson, Instant.toJson, hfinished, herror]

theorem Task.inverts {t : Task} (hargs : t.arguments.Finite) (hv : t.toJson.Legible)
    (ho : t.toJson.Ordered) (htimes : ∀ time ∈ t.times, time.ReadsBack) : Inverts decoder t.toJson t := by
  obtain ⟨hvargs, hvresult⟩ := legible_iff.mp hv
  obtain ⟨hoargs, horesult⟩ := ordered_iff.mp ho
  have hstarted := Instant.inverts (htimes t.startedAt (by simp [times]))
  have hfinished := Instant.inverts_ofOption fun time (h : time ∈ t.finishedAt) =>
    htimes time (by simpa [times] using .inr h)
  refine inverts_record (by simp) fun room => ?_
  refine Eq.trans (bind_eq_ite (member_ofFields t.id.inverts rfl room)
    (bind_eq_ite (member_ofFields (inverts_string t.field) rfl room)
    (bind_eq_ite (member_ofFields (Arguments.inverts hargs hvargs hoargs) rfl room)
    (bind_eq_ite (member_ofFields t.status.inverts rfl room)
    (bind_eq_ite (member_ofFields t.execution.inverts rfl room)
    (bind_eq_ite (member_ofFields hstarted rfl room)
    (bind_eq_ite (memberOrNull_ofFields hfinished rfl room)
    (bind_eq_ite (memberOrNull_ofFields (Record.inverts_ofOption hvresult horesult) rfl room)
    (bind_eq_ite (memberOrNull_ofFields (inverts_ofOption_string t.error) rfl room)
      (pure_eq_ite _)))))))))) ?_
  simp

namespace StatusView

/-- The times of a view. -/
def times (v : StatusView) : List Instant := v.startedAt :: v.finishedAt.toList

/-- The fields of a view: the last one only if there is an error. -/
def fields (v : StatusView) : List (String × Json) :=
  [("status", v.status.toJson), ("result", .ofOption Record.listToJson v.result),
    ("startedAt", v.startedAt.toJson), ("finishedAt", .ofOption Instant.toJson v.finishedAt)]
  ++ match v.error with
    | some error => [("error", .string error)]
    | none => []

theorem toJson_eq (v : StatusView) : v.toJson = .ofFields v.fields := rfl

theorem nodup_fields (v : StatusView) : (v.fields.map Prod.fst).Nodup := by
  cases h : v.error <;> simp [fields, h]

/-- The error takes no room. -/
theorem depth_fields_le_iff {v : StatusView} {room : Nat} :
    (∀ e ∈ v.fields, e.2.depth ≤ room) ↔ v.status.toJson.depth ≤ room ∧
      (Json.ofOption Record.listToJson v.result).depth ≤ room ∧ v.startedAt.toJson.depth ≤ room ∧
        (Json.ofOption Instant.toJson v.finishedAt).depth ≤ room := by
  cases h : v.error <;> simp [fields, h, Json.depth]

/-- An error that there is not is a field that is missing, and that stands for no error. -/
theorem error_ofFields (v : StatusView) (room : Nat) :
    memberOr (nullable string) none room (Slot.ofFields v.fields "error") = some v.error := by
  obtain ⟨status, result, startedAt, finishedAt, error⟩ := v
  cases error <;> rfl

theorem legible_iff {v : StatusView} :
    v.toJson.Legible ↔ (Json.ofOption Record.listToJson v.result).Legible := by
  have hfinished : (Json.ofOption Instant.toJson v.finishedAt).Legible := by
    cases v.finishedAt <;> trivial
  rw [toJson_eq, Json.legible_ofFields_iff v.nodup_fields]
  cases h : v.error <;>
    simp [fields, h, Json.Legible, ViewStatus.toJson, Instant.toJson, hfinished]

theorem ordered_iff {v : StatusView} :
    v.toJson.Ordered ↔ (Json.ofOption Record.listToJson v.result).Ordered := by
  have hfinished : (Json.ofOption Instant.toJson v.finishedAt).Ordered := by
    cases v.finishedAt <;> trivial
  rw [toJson_eq, Json.ordered_ofFields_iff v.nodup_fields]
  cases h : v.error <;>
    simp [fields, h, Json.Ordered, ViewStatus.toJson, Instant.toJson, hfinished]

theorem inverts {v : StatusView} (hv : v.toJson.Legible) (ho : v.toJson.Ordered)
    (htimes : ∀ time ∈ v.times, time.ReadsBack) : Inverts decoder v.toJson v := by
  rw [toJson_eq]
  have hstarted := Instant.inverts (htimes v.startedAt (by simp [times]))
  have hfinished := Instant.inverts_ofOption fun time (h : time ∈ v.finishedAt) =>
    htimes time (by simpa [times] using .inr h)
  have hresult : Inverts (nullable Record.listDecoder) (.ofOption Record.listToJson v.result) v.result :=
    Record.inverts_ofOption (legible_iff.mp hv) (ordered_iff.mp ho)
  refine inverts_record v.nodup_fields fun room => ?_
  refine Eq.trans (bind_eq_ite (member_ofFields v.status.inverts rfl room)
    (bind_eq_ite (memberOrNull_ofFields hresult rfl room)
    (bind_eq_ite (member_ofFields hstarted rfl room)
    (bind_eq_ite (memberOrNull_ofFields hfinished rfl room)
    (bind_eq_ite ((v.error_ofFields room).trans (pure_eq_ite _)) (pure_eq_ite _)))))) ?_
  simp only [depth_fields_le_iff, and_true]

end StatusView

end SchemaQuery
