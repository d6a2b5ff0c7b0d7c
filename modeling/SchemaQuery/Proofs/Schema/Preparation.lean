import SchemaQuery.Proofs.Query.Refusal
import SchemaQuery.Proofs.Query.ReportedKind
import SchemaQuery.Schema.Operation

/-!
A set of operations is all or nothing. Fields without a template are passed over; of the others, each
becomes one operation, in their order, or the first whose template cannot be prepared decides the error.
An operation carries what its field says and renders what compiling the raw template gives, and since its
template is prepared, only an argument can still be refused.
-/

namespace SchemaQuery

/-! ### Fields with templates -/

/-- A field with a template, and where it is declared. -/
structure TemplateField where
  owner : FieldOwner
  info : FieldInfo
  template : String

/-- The fields of one owner that have templates. -/
def FieldOwner.templateFields (owner : FieldOwner) (fields : List FieldInfo) : List TemplateField :=
  fields.filterMap fun f => f.template?.map (⟨owner, f, ·⟩)

/-- The fields of a schema that have templates: those of the queries, then of the mutations, then of each
type. -/
def Metadata.templateFields (m : Metadata) : List TemplateField :=
  FieldOwner.query.templateFields m.queries ++ FieldOwner.mutation.templateFields m.mutations
    ++ m.types.flatMap fun t => (FieldOwner.type t.name).templateFields t.fields

namespace TemplateField

variable {tables : JoinTables} {x : TemplateField} {op : Operation}

/-- The error of a field for a fault of its template. -/
def error (x : TemplateField) (fault : TemplateFault) : Error :=
  .compile (.ofField x.owner x.info.name fault)

/-- The operation of a field whose template is prepared. -/
def operation (x : TemplateField) (prepared : PreparedTemplate) : Operation :=
  ⟨x.owner, x.info.name, prepared, x.owner = .query, x.info.typeName, x.info.list, x.info.returnShape⟩

/-- Prepares the operation of a field. -/
def prepare (tables : JoinTables) (x : TemplateField) : Except Error Operation :=
  ((tables.prepare x.template).mapError x.error).map x.operation

/-- The operation is the one of the field: it carries what the field says, and rendering it is compiling
the template of the field. -/
structure PreparedAs (tables : JoinTables) (x : TemplateField) (op : Operation) : Prop where
  owner : op.owner = x.owner
  field : op.field = x.info.name
  responseType : op.responseType = x.info.typeName
  list : op.list = x.info.list
  returnShape : op.returnShape = x.info.returnShape
  /-- Exactly the queries run as tasks. -/
  task : op.task = true ↔ x.owner = .query
  template : tables.prepare x.template = .ok op.template
  /-- To prepare first and to render later is to compile. -/
  render : ∀ args, op.render args = tables.compile x.template args
  /-- No fault of the template is left. -/
  faultless : ∀ args fault, op.render args ≠ .error (.compile fault)

theorem prepare_eq_ok_iff :
    x.prepare tables = .ok op ↔
      ∃ prepared, tables.prepare x.template = .ok prepared ∧ x.operation prepared = op := by
  rw [prepare, map_eq_ok_iff]
  simp only [mapError_eq_ok_iff]

theorem exists_prepare_eq_ok_iff :
    (∃ op, x.prepare tables = .ok op) ↔ ∃ prepared, tables.prepare x.template = .ok prepared := by
  simp only [prepare_eq_ok_iff]
  exact ⟨fun ⟨_, prepared, h, _⟩ => ⟨prepared, h⟩, fun ⟨prepared, h⟩ => ⟨_, prepared, h, rfl⟩⟩

theorem prepare_eq_error_iff {e : Error} :
    x.prepare tables = .error e ↔
      ∃ fault, tables.prepare x.template = .error fault ∧ x.error fault = e := by
  rw [prepare, map_eq_error_iff, mapError_eq_error_iff]

/-- What preparing a field gives is the operation of the field. -/
theorem preparedAs_of_prepare (h : x.prepare tables = .ok op) : x.PreparedAs tables op := by
  obtain ⟨prepared, hprepared, rfl⟩ := prepare_eq_ok_iff.mp h
  obtain ⟨-, -, segments, hsegments⟩ := JoinTables.prepare_eq_ok_iff.mp hprepared
  refine ⟨rfl, rfl, rfl, rfl, rfl, decide_eq_true_iff, hprepared, fun args => ?_, ?_⟩
  · rw [JoinTables.compile, hprepared]
    rfl
  · intro args fault hrender
    exact PreparedTemplate.refuses_of_render hsegments hrender

end TemplateField

/-! ### The set of operations -/

namespace OperationSet

/-- The field with its template, if it has one. -/
def templateField? (p : FieldOwner × FieldInfo) : Option TemplateField :=
  p.2.template?.map (⟨p.1, p.2, ·⟩)

/-- The fields that have templates are those of all fields that have one. -/
theorem filterMap_ownedFields (m : Metadata) :
    m.ownedFields.filterMap templateField? = m.templateFields := by
  have hown (owner : FieldOwner) (fields : List FieldInfo) :
      (fields.map (owner, ·)).filterMap templateField? = owner.templateFields fields := by
    rw [List.filterMap_map]
    rfl
  simp only [Metadata.ownedFields, Metadata.templateFields, List.filterMap_append,
    List.filterMap_flatMap, hown]

/-- A field without a template is passed over, any other is prepared. -/
theorem prepare?_eq (tables : JoinTables) (p : FieldOwner × FieldInfo) :
    Operation.prepare? tables p.1 p.2 =
      ((templateField? p).elim (.ok none) fun x => (x.prepare tables).map some) := by
  rw [Operation.prepare?, templateField?]
  cases p.2.template? with
  | none => rfl
  | some template =>
    simp only [Option.map_some, Option.elim_some, TemplateField.prepare]
    cases tables.prepare template <;> rfl

/-- A walk over all fields is a walk over those that have templates. -/
theorem mapM_prepare? (tables : JoinTables) (fields : List (FieldOwner × FieldInfo)) :
    (fields.mapM fun p => Operation.prepare? tables p.1 p.2).map (List.filterMap id) =
      (fields.filterMap templateField?).mapM (TemplateField.prepare tables) := by
  induction fields with
  | nil => rfl
  | cons p fields ih =>
    rw [List.mapM_cons, prepare?_eq]
    cases hp : templateField? p with
    | none =>
      rw [List.filterMap_cons_none hp, ← ih]
      cases fields.mapM fun p => Operation.prepare? tables p.1 p.2 <;> rfl
    | some x =>
      rw [List.filterMap_cons_some hp, List.mapM_cons, ← ih, Option.elim_some]
      cases x.prepare tables with
      | error e => rfl
      | ok op => cases fields.mapM fun p => Operation.prepare? tables p.1 p.2 <;> rfl

/-- The operations of a schema are those of its fields with templates. -/
theorem build_eq (m : Metadata) (tables : JoinTables) :
    build m tables =
      (m.templateFields.mapM (TemplateField.prepare tables)).map (⟨·, m.joinTables⟩) := by
  rw [← filterMap_ownedFields, ← mapM_prepare?, build]
  cases m.ownedFields.mapM fun p => Operation.prepare? tables p.1 p.2 <;> rfl

/-- A set of operations is all or nothing. It is built exactly if the template of every field that has one
can be prepared. Then its operations are those of these fields, one for each and in their order: queries,
mutations, the fields of each type. Otherwise the error is that of the first field whose template cannot be
prepared, and begins with the owner and the name of the field. -/
theorem build_all_or_nothing (m : Metadata) (tables : JoinTables) :
    ((∃ set, build m tables = .ok set) ↔
      ∀ x ∈ m.templateFields, ∃ prepared, tables.prepare x.template = .ok prepared) ∧
    (∀ set, build m tables = .ok set →
      List.Forall₂ (TemplateField.PreparedAs tables) m.templateFields set.operations ∧
        set.joinTables = m.joinTables) ∧
    ∀ e, build m tables = .error e ↔ ∃ before x after fault,
      m.templateFields = before ++ x :: after ∧
      (∀ y ∈ before, ∃ prepared, tables.prepare y.template = .ok prepared) ∧
      tables.prepare x.template = .error fault ∧
      e = .compile (.ofField x.owner x.info.name fault) ∧
      e.message = "Compile error: " ++ (x.owner.text ++ "." ++ x.info.name ++ ": " ++ fault.text) := by
  refine ⟨?_, fun set hset => ?_, fun e => ?_⟩
  · simp only [← TemplateField.exists_prepare_eq_ok_iff, ← exists_mapM_eq_ok_iff, build_eq,
      map_eq_ok_iff]
    exact ⟨fun ⟨_, ops, hops, _⟩ => ⟨ops, hops⟩, fun ⟨ops, hops⟩ => ⟨_, ops, hops, rfl⟩⟩
  · rw [build_eq, map_eq_ok_iff] at hset
    obtain ⟨ops, hops, rfl⟩ := hset
    exact ⟨(mapM_eq_ok_iff.mp hops).imp fun _ _ => TemplateField.preparedAs_of_prepare, rfl⟩
  · rw [build_eq, map_eq_error_iff, mapM_eq_error_iff]
    simp only [TemplateField.exists_prepare_eq_ok_iff, TemplateField.prepare_eq_error_iff]
    constructor
    · rintro ⟨before, x, after, hfields, hbefore, fault, hfault, rfl⟩
      exact ⟨before, x, after, fault, hfields, hbefore, hfault, rfl, rfl⟩
    · rintro ⟨before, x, after, fault, hfields, hbefore, hfault, rfl, -⟩
      exact ⟨before, x, after, hfields, hbefore, fault, hfault, rfl⟩

end OperationSet

/-! ### Compiled schemas -/

/-- A schema is compiled from its join tables and its fields with templates. -/
theorem CompiledSchema.ofMetadata_eq (m : Metadata) (config : Config) :
    ofMetadata m config =
      (JoinTables.build config.joinTables m.joinTables.names).mapError .config >>= fun tables =>
        (m.templateFields.mapM (TemplateField.prepare tables)).map fun ops =>
          ⟨m, tables, ⟨ops, m.joinTables⟩⟩ := by
  rw [ofMetadata]
  refine congrArg _ (funext fun tables => ?_)
  rw [OperationSet.build_eq]
  cases m.templateFields.mapM (TemplateField.prepare tables) <;> rfl

end SchemaQuery
