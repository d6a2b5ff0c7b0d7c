import SchemaQuery.Proofs.Execution.Record
import SchemaQuery.Proofs.Schema.Placement
import SchemaQuery.Proofs.Tracker.Poll

/-!
What is stored of the rows that are fetched. A tracker learns the declared fields of each response type from
the tasks of a schema, one after the other and by the names of their fields: of two tasks whose fields have
one name, the last one whose response type declares any fields counts for both. The declared fields of a type
are those of all its blocks, so a name may come twice among them, and cutting a record loses its column then.
Otherwise rows are stored as the response type says.
-/

namespace SchemaQuery

open Sdl (Document Definition Field)

/-- Rows as they should be stored: as they are if no fields are declared, or else each cut to these, in their
order. -/
def RowsShaped : Option (List String) → List Record → List Record → Prop
  | some fields, rows, stored => List.Forall₂ (Record.ShapedBy fields) rows stored
  | none, rows, stored => stored = rows

/-! ### Declared fields -/

/-- The names of the fields that an object type declares, block after block; none if there is no such type
or it is a root. -/
def Sdl.Document.declaredNames? (doc : Document) (type : String) : Option (List String) :=
  if type ∈ doc.ownTypes then some ((doc.blocksOf type).flatMap fun b => b.fields.map (·.name))
  else none

namespace Metadata

variable (doc : Document)

/-- An object type that is no root is found before any scalar. -/
theorem find?_types_ofDocument (type : String) :
    (ofDocument doc).types.find? (·.name = type) =
      if type ∈ doc.ownTypes then some (objectType doc type)
      else ((doc.filterMap Definition.scalar?).map .ofScalar).find? (·.name = type) := by
  rw [types_ofDocument, List.find?_append, List.find?_map]
  have hname : ((fun t : TypeInfo => decide (t.name = type)) ∘ objectType doc) = (· = type) := rfl
  rw [hname]
  split
  · next hown =>
    have hfound : (doc.ownTypes.find? (· = type)).isSome :=
      List.find?_isSome.mpr ⟨type, hown, decide_eq_true rfl⟩
    obtain ⟨name, hfind⟩ := Option.isSome_iff_exists.mp hfound
    obtain rfl : name = type := by simpa using List.find?_some hfind
    rw [hfind]
    rfl
  · next hown =>
    have hfind : doc.ownTypes.find? (· = type) = none :=
      List.find?_eq_none.mpr fun name hmem => by
        simpa using fun heq : name = type => hown (heq ▸ hmem)
    rw [hfind]
    rfl

/-- An object type has the fields of its blocks. -/
theorem names_objectType {type : String} (hown : type ∈ doc.ownTypes) :
    (objectType doc type).fields.map (·.name) =
      (doc.blocksOf type).flatMap fun b => b.fields.map (·.name) := by
  have hroot : doc.roots.ownerOf type = .type type := of_decide_eq_true (List.mem_filter.mp hown).2
  change (doc.fieldsOf (.type type)).map (·.name) = _
  rw [← hroot, doc.fieldsOf_ownerOf, List.map_flatMap]
  simp only [List.map_map]
  rfl

end Metadata

namespace Tracker

/-- The fields to which the results for a field are cut: those of the last of some operations for a field of
this name whose response type declares any. -/
def takenUp? (doc : Document) (ops : List Operation) (field : String) : Option (List String) :=
  ops.reverse.findSome? fun op =>
    if op.field = field then doc.declaredNames? op.responseType else none

section Declared

variable {doc : Document} {m : Metadata} (htypes : m.types = (Metadata.ofDocument doc).types)
include htypes

/-- A task is taken up with what its response type declares. -/
theorem declare_eq (declared : Dictionary (List String)) (op : Operation) :
    declare m declared op =
      match doc.declaredNames? op.responseType with
      | some names => declared.insert op.field names
      | none => declared := by
  rw [declare, Metadata.type?, htypes, Metadata.find?_types_ofDocument, Document.declaredNames?]
  by_cases hown : op.responseType ∈ doc.ownTypes
  · rw [if_pos hown, if_pos hown]
    dsimp only
    rw [Metadata.names_objectType doc hown]
    rfl
  · rw [if_neg hown, if_neg hown]
    cases hscalar : ((doc.filterMap Definition.scalar?).map TypeInfo.ofScalar).find?
        (·.name = op.responseType) with
    | none => rfl
    | some t =>
      obtain ⟨name, -, rfl⟩ := List.mem_map.mp (List.mem_of_find?_eq_some hscalar)
      rfl

/-- What is declared for a field, once some tasks are taken up, is what the last of them declares. -/
theorem get?_foldl_declare (ops : List Operation) (declared : Dictionary (List String))
    (field : String) :
    (ops.foldl (declare m) declared).get? field =
      (takenUp? doc ops field).or (declared.get? field) := by
  induction ops generalizing declared with
  | nil => rfl
  | cons op ops ih =>
    have hlast : takenUp? doc (op :: ops) field = (takenUp? doc ops field).or
        (if op.field = field then doc.declaredNames? op.responseType else none) := by
      rw [takenUp?, List.reverse_cons, List.findSome?_append, List.findSome?_singleton]
      rfl
    rw [List.foldl_cons, ih, hlast, Option.or_assoc, declare_eq htypes]
    congr 1
    cases doc.declaredNames? op.responseType with
    | none => rw [ite_self, Option.none_or]
    | some names =>
      dsimp only
      rw [Dictionary.get?_insert]
      split <;> rfl

end Declared

/-- The fields to which results are cut are those that are taken up last. -/
theorem shapeRows_ofSchema {doc : Document} {schema : CompiledSchema}
    (htypes : schema.metadata.types = (Metadata.ofDocument doc).types) (config : TaskConfig)
    (field : String) (rows : List Record) :
    (ofSchema config schema).shapeRows field rows =
      (takenUp? doc schema.set.tasks field).elim rows fun used => rows.map (Record.shape used) := by
  have hdeclared : (ofSchema config schema).declared.get? field =
      takenUp? doc schema.set.tasks field :=
    (get?_foldl_declare htypes schema.set.tasks ∅ field).trans Option.or_none
  rw [shapeRows, hdeclared]
  cases takenUp? doc schema.set.tasks field <;> rfl

/-- A task whose response type declares fields has some that are taken up. -/
theorem exists_takenUp? {doc : Document} {ops : List Operation} {op : Operation} (hop : op ∈ ops)
    {names : List String} (hnames : doc.declaredNames? op.responseType = some names) :
    ∃ used, takenUp? doc ops op.field = some used := by
  refine Option.isSome_iff_exists.mp (List.findSome?_isSome_iff.mpr ⟨op, by simpa using hop, ?_⟩)
  rw [if_pos rfl, hnames]
  rfl

/-- Rows that are cut to some fields are shaped as others say, whatever the rows are, exactly if each record
is. -/
theorem rowsShaped_map_shape_iff {used fields : List String} :
    (∀ rows, RowsShaped (some fields) rows (rows.map (Record.shape used))) ↔
      ∀ row, Record.ShapedBy fields row (Record.shape used row) := by
  constructor
  · intro h row
    exact (List.forall₂_cons.mp (h [row])).1
  · intro h rows
    exact List.forall₂_map_right_iff.mpr (List.forall₂_same.mpr fun row _ => h row)

/-- What is stored for the tasks of a schema. When a report of success is applied to a running task of a
field, the rows that are fetched are stored with the task, cut to the fields that are taken up last for the
name of its field. So the result is, for all rows, what the response type of the operation says exactly if
these are the fields that it declares and none of them is declared twice, or, where it declares none, no task
for a field of this name has a response type that does. -/
theorem result_shaped_iff {doc : Document} {schema : CompiledSchema}
    (htypes : schema.metadata.types = (Metadata.ofDocument doc).types) {op : Operation}
    (hop : op ∈ schema.set.tasks) (config : TaskConfig) :
    (∀ around r id task rows, Registry.task? r id = some task → task.isFinished = false →
      task.field = op.field → around.fetch task.execution = .ok rows →
        (ofSchema config schema).serve around r (.converge id .succeeded) =
          (r.settle id around.now (.succeeded ((ofSchema config schema).shapeRows op.field rows)),
            .ok (task.finish around.now
              (.succeeded ((ofSchema config schema).shapeRows op.field rows))))) ∧
    ((∀ rows, RowsShaped (doc.declaredNames? op.responseType) rows
        ((ofSchema config schema).shapeRows op.field rows)) ↔
      (∀ names, doc.declaredNames? op.responseType = some names → ∃ used,
        takenUp? doc schema.set.tasks op.field = some used ∧ used.Nodup ∧
          ∀ name, name ∈ used ↔ name ∈ names) ∧
      (doc.declaredNames? op.responseType = none →
        takenUp? doc schema.set.tasks op.field = none)) := by
  refine ⟨fun around r id task rows htask hrunning hfield hrows => ?_, ?_⟩
  · rw [serve_converge_running around htask hrunning]
    dsimp only [outcome?]
    rw [hrows, hfield]
    rfl
  · simp only [shapeRows_ofSchema htypes config op.field]
    cases hnames : doc.declaredNames? op.responseType with
    | some names =>
      obtain ⟨used, hused⟩ := exists_takenUp? hop hnames
      simp only [hused, Option.elim_some]
      rw [rowsShaped_map_shape_iff, Record.shapedBy_shape_iff]
      constructor
      · intro h
        refine ⟨fun names' hnames' => ?_, nofun⟩
        cases hnames'
        exact ⟨used, rfl, h⟩
      · rintro ⟨h, -⟩
        obtain ⟨used', hused', h⟩ := h names rfl
        cases hused'
        exact h
    | none =>
      cases hused : takenUp? doc schema.set.tasks op.field with
      | none => exact iff_of_true (fun _ => rfl) ⟨nofun, fun _ => rfl⟩
      | some used =>
        obtain ⟨row, hrow⟩ := Record.exists_shape_ne used
        refine iff_of_false (fun h => hrow ?_) fun h => nomatch h.2 rfl
        exact (List.cons.inj (h [row])).1

/-- A type with two blocks, and a task that responds with it. -/
def twoBlocks (first second : String) : Document :=
  [.object ⟨"User", [], [⟨first, [], .named "String", []⟩]⟩,
    .extension ⟨"User", [], [⟨second, [], .named "String", []⟩]⟩,
    .object ⟨"Query", [], [⟨"users", [], .list (.named "User"),
      [⟨"sql", [("query", .string "SELECT * FROM user")]⟩]⟩]⟩]

/-- Records are cut to the fields of both blocks. -/
theorem result_shaped_twoBlocks : ∃ schema op,
    CompiledSchema.ofMetadata (.ofDocument (twoBlocks "name" "mail")) default = .ok schema ∧
      op ∈ schema.set.tasks ∧ (twoBlocks "name" "mail").declaredNames? op.responseType =
        some ["name", "mail"] ∧
      ∀ rows, RowsShaped ((twoBlocks "name" "mail").declaredNames? op.responseType) rows
        ((ofSchema .standard schema).shapeRows op.field rows) := by
  refine ⟨_, _, rfl, List.mem_singleton_self _, rfl, ?_⟩
  refine (result_shaped_iff rfl (List.mem_singleton_self _) .standard).2.mpr ⟨fun names hnames => ?_, nofun⟩
  exact ⟨names, hnames, by cases hnames; decide, fun _ => .rfl⟩

/-- The column of a field that both blocks declare is lost. -/
theorem result_loses_column : ∃ schema op,
    CompiledSchema.ofMetadata (.ofDocument (twoBlocks "name" "name")) default = .ok schema ∧
      op ∈ schema.set.tasks ∧ (twoBlocks "name" "name").declaredNames? op.responseType =
        some ["name", "name"] ∧
      (ofSchema .standard schema).shapeRows op.field [.ofList [("name", .string "Ann")]] =
        [.ofList [("name", .null)]] ∧
      ¬ RowsShaped ((twoBlocks "name" "name").declaredNames? op.responseType)
        [.ofList [("name", .string "Ann")]]
        ((ofSchema .standard schema).shapeRows op.field [.ofList [("name", .string "Ann")]]) := by
  refine ⟨_, _, rfl, List.mem_singleton_self _, rfl, rfl, fun h => ?_⟩
  have hname := (List.forall₂_cons.mp h).1 "name"
  cases hname

end Tracker

end SchemaQuery
