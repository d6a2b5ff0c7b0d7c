import Mathlib.Data.List.Nodup
import SchemaQuery.Proofs.Collection.Dictionary
import SchemaQuery.Execution.Record

/-!
Records cut to declared fields. Cutting takes each declared name out of the record when it comes by it, so
what it makes of a name depends on how often the name is declared: once, and the value is the record's or
null; more than once, and the value is lost. So cutting does what it should, whatever the record, exactly if
no name is declared twice.
-/

namespace SchemaQuery.Record

/-- The record that a record should be cut to: it has exactly the declared fields, each with the value of its
column, or null where there is none. -/
def ShapedBy (fields : List String) (row out : Record) : Prop :=
  ∀ name, out.get? name = if name ∈ fields then some ((row.get? name).getD .null) else none

/-- What cutting finds under a name, while some fields are taken over already: one that comes once has its
column, one that comes again has lost it. -/
theorem get?_foldl_takeField (fields : List String) (row out : Record) (name : String) :
    (fields.foldl takeField (row, out)).2.get? name =
      if name ∈ fields then
        some (if fields.count name = 1 then (row.get? name).getD .null else .null)
      else out.get? name := by
  induction fields generalizing row out with
  | nil => rfl
  | cons field fields ih =>
    rw [List.foldl_cons, takeField, ih, Dictionary.get?_erase, Dictionary.get?_insert]
    by_cases hname : field = name
    · subst hname
      by_cases hagain : field ∈ fields
      · have hcount : (field :: fields).count field ≠ 1 := by
          have hpos : 0 < fields.count field := List.count_pos_iff.mpr hagain
          rw [List.count_cons_self]
          omega
        rw [if_pos hagain, if_pos List.mem_cons_self, if_pos rfl, if_neg hcount, Option.getD_none, ite_self]
      · have hcount : (field :: fields).count field = 1 := by
          rw [List.count_cons_self, List.count_eq_zero.mpr hagain]
        rw [if_neg hagain, if_pos List.mem_cons_self, if_pos rfl, if_pos hcount]
    · simp only [List.mem_cons, Ne.symm hname, false_or, if_neg hname, List.count_cons_of_ne hname]

/-- A record that is cut has exactly the declared fields. A field that is declared once has the value of its
column, or null; one that is declared again has null. -/
theorem get?_shape (fields : List String) (row : Record) (name : String) :
    (shape fields row).get? name =
      if name ∈ fields then
        some (if fields.count name = 1 then (row.get? name).getD .null else .null)
      else none :=
  get?_foldl_takeField fields row ∅ name

/-- Records are cut as they should be for some fields, whatever their columns, exactly if the fields that are
used are the same and none of them comes twice. -/
theorem shapedBy_shape_iff {used fields : List String} :
    (∀ row, ShapedBy fields row (shape used row)) ↔
      used.Nodup ∧ ∀ name, name ∈ used ↔ name ∈ fields := by
  constructor
  · intro h
    have hmem (name : String) : name ∈ used ↔ name ∈ fields := by
      have hempty := h ∅ name
      rw [get?_shape] at hempty
      split at hempty <;> split at hempty <;> simp_all
    refine ⟨List.nodup_iff_count_le_one.mpr fun name => Nat.le_of_not_lt fun htwice => ?_, hmem⟩
    -- A row with the column of a name that comes twice loses it.
    have hused : name ∈ used := List.count_pos_iff.mp (by omega)
    have hrow := h (.insert ∅ name (.bool true)) name
    rw [get?_shape, if_pos hused, if_neg (by omega), if_pos ((hmem name).mp hused),
      Dictionary.get?_insert, if_pos rfl] at hrow
    cases hrow
  · rintro ⟨hnodup, hmem⟩ row name
    rw [get?_shape]
    simp only [hmem]
    split
    · next hfield =>
      rw [if_pos (List.count_eq_one_of_mem hnodup ((hmem name).mpr hfield))]
    · rfl

/-- Whatever the declared fields are, there is a record that cutting changes. -/
theorem exists_shape_ne (fields : List String) : ∃ row, shape fields row ≠ row := by
  cases fields with
  | nil =>
    refine ⟨.insert ∅ "" .null, fun h => ?_⟩
    have hkey := congrArg (·.get? "") h
    cases hkey
  | cons field fields =>
    refine ⟨∅, fun h => ?_⟩
    have hkey := get?_shape (field :: fields) ∅ field
    rw [h, if_pos List.mem_cons_self] at hkey
    cases hkey

end SchemaQuery.Record
