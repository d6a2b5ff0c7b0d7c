import SchemaQuery.Proofs.Schema.Preparation
import SchemaQuery.Schema.Shape

/-!
Return shapes that nobody declared, and compiling. Filling them in changes nothing else, counts what it
changes, and once done there is nothing left to fill in. It reads the kind of a template as it stands, and so
does compiling before anything is put into the template; the kinds agree, so a schema compiles with the shapes
exactly if it does without, to the same operations but for the shapes of the mutations, and then every mutation
has one.
-/

namespace SchemaQuery

/-! ### Fields -/

namespace FieldInfo

/-- A field is as it was, or declared no shape and has one. -/
def Filled (f g : FieldInfo) : Prop :=
  g = f ∨ f.returnShape = none ∧ ∃ shape, g = { f with returnShape := some shape }

variable {f : FieldInfo} {shape : ReturnShape}

theorem returnShape_of_inferredShape? (h : f.inferredShape? = some shape) : f.returnShape = none := by
  unfold inferredShape? at h
  split at h
  · cases h
  · next hnone => simpa using hnone

theorem filled_inferShape (f : FieldInfo) : f.Filled f.inferShape := by
  unfold inferShape
  split
  · next shape h => exact .inr ⟨returnShape_of_inferredShape? h, shape, rfl⟩
  · exact .inl rfl

/-- A field has changed exactly if it was given a shape. -/
theorem inferShape_ne_iff : f.inferShape ≠ f ↔ f.inferredShape?.isSome = true := by
  unfold inferShape
  cases h : f.inferredShape? with
  | none => simp
  | some shape =>
    refine iff_of_true (fun heq => ?_) rfl
    have hshape : some shape = f.returnShape := congrArg FieldInfo.returnShape heq
    rw [returnShape_of_inferredShape? h] at hshape
    cases hshape

/-- Once a field was looked at, no shape is inferred for it. -/
theorem inferredShape?_inferShape (f : FieldInfo) : f.inferShape.inferredShape? = none := by
  unfold inferShape
  split
  · rfl
  · next h => exact h

theorem inferShape_inferShape (f : FieldInfo) : f.inferShape.inferShape = f.inferShape := by
  rw [inferShape, inferredShape?_inferShape]

theorem template?_inferShape (f : FieldInfo) : f.inferShape.template? = f.template? := by
  unfold inferShape
  split <;> rfl

theorem name_inferShape (f : FieldInfo) : f.inferShape.name = f.name := by
  unfold inferShape
  split <;> rfl

theorem inferShape_of_declared (h : f.returnShape = some shape) : f.inferShape = f := by
  have hnone : f.inferredShape? = none := by
    rw [inferredShape?, h]
    rfl
  rw [inferShape, hnone]

/-- A field that declares none gets the shape of the kind of its template. -/
theorem inferShape_of_kind {template : String} {kind : QueryKind} (h : f.returnShape = none)
    (htemplate : f.template? = some template) (hkind : classify template = .ok kind) :
    f.inferShape = { f with returnShape := some (.ofKind kind f.list) } := by
  have hsome : f.inferredShape? = some (.ofKind kind f.list) := by
    rw [inferredShape?, h, htemplate]
    change ((classify template).toOption.bind fun kind => some (ReturnShape.ofKind kind f.list)) = _
    rw [hkind]
    rfl
  rw [inferShape, hsome]

end FieldInfo

/-! ### Operations -/

/-- The operation with a shape, if it is a mutation: the one that is declared, or else that of its kind. -/
def Operation.shaped (op : Operation) : Operation :=
  if op.owner = .mutation then
    { op with returnShape := some (op.returnShape.getD (.ofKind op.template.kind op.list)) }
  else op

theorem ReturnShape.ofKind_eq (kind : QueryKind) (list : Bool) :
    ofKind kind list = if kind ≠ .read then .ack else if list then .rows else .row := by
  cases kind <;> rfl

/-- The second operation is the first one, where a mutation has a shape: the one that is declared, or else an
acknowledgement if it does not read, rows if it reads a list, and one row if it reads and is no list. -/
structure Operation.Completed (op op' : Operation) : Prop where
  same : { op' with returnShape := op.returnShape } = op
  others : op.owner ≠ .mutation → op'.returnShape = op.returnShape
  declared : op.owner = .mutation → ∀ shape, op.returnShape = some shape → op'.returnShape = some shape
  inferred : op.owner = .mutation → op.returnShape = none → op'.returnShape =
    some (if op.template.kind ≠ .read then .ack else if op.list then .rows else .row)

theorem Operation.completed_shaped (op : Operation) : op.Completed op.shaped := by
  unfold shaped
  split
  · next hmutation =>
    refine ⟨rfl, fun h => absurd hmutation h, fun _ shape hshape => ?_, fun _ hnone => ?_⟩
    · rw [hshape, Option.getD_some]
    · rw [hnone, Option.getD_none, ReturnShape.ofKind_eq]
  · next hother =>
    exact ⟨rfl, fun _ => rfl, fun h => absurd h hother, fun h => absurd h hother⟩

namespace TemplateField

variable {tables : JoinTables} {x : TemplateField}

/-- The field with the shape that it is given, if it is a mutation. -/
def inferShape (x : TemplateField) : TemplateField :=
  if x.owner = .mutation then { x with info := x.info.inferShape } else x

theorem inferShape_of_mutation (h : x.owner = .mutation) :
    x.inferShape = { x with info := x.info.inferShape } := if_pos h

theorem inferShape_of_ne (h : x.owner ≠ .mutation) : x.inferShape = x := if_neg h

theorem template_inferShape (x : TemplateField) : x.inferShape.template = x.template := by
  unfold inferShape
  split <;> rfl

/-- A fault is reported alike, as the shape is no part of it. -/
theorem error_inferShape (x : TemplateField) (fault : TemplateFault) :
    x.inferShape.error fault = x.error fault := by
  unfold inferShape
  split
  · rw [error, FieldInfo.name_inferShape]
    rfl
  · rfl

/-- The shape that is inferred from the raw template is that of the kind of the prepared one. -/
theorem operation_inferShape (hx : x.info.template? = some x.template) {prepared : PreparedTemplate}
    (hkind : classify x.template = .ok prepared.kind) :
    x.inferShape.operation prepared = (x.operation prepared).shaped := by
  by_cases hmutation : x.owner = .mutation
  · have howner : (x.operation prepared).owner = .mutation := hmutation
    rw [inferShape_of_mutation hmutation, Operation.shaped, if_pos howner]
    cases hshape : x.info.returnShape with
    | some shape =>
      rw [FieldInfo.inferShape_of_declared hshape]
      simp [operation, hshape]
    | none =>
      rw [FieldInfo.inferShape_of_kind hshape hx hkind]
      simp [operation, hshape]
  · rw [inferShape_of_ne hmutation, Operation.shaped]
    exact (if_neg hmutation).symm

/-- A field with its shape is prepared exactly if it is without, and the operations differ in that alone. -/
theorem prepare_inferShape (hx : x.info.template? = some x.template) :
    x.inferShape.prepare tables = (x.prepare tables).map Operation.shaped := by
  rw [prepare, prepare, template_inferShape]
  cases hprepared : tables.prepare x.template with
  | error fault => exact congrArg Except.error (x.error_inferShape fault)
  | ok prepared =>
    exact congrArg Except.ok (operation_inferShape hx (JoinTables.prepare_eq_ok_iff.mp hprepared).1)

end TemplateField

/-! ### Metadata -/

namespace FieldOwner

variable {owner : FieldOwner} {fields : List FieldInfo}

theorem mem_templateFields_iff {x : TemplateField} :
    x ∈ owner.templateFields fields ↔
      x.owner = owner ∧ x.info ∈ fields ∧ x.info.template? = some x.template := by
  rw [templateFields, List.mem_filterMap]
  constructor
  · rintro ⟨f, hf, h⟩
    obtain ⟨template, htemplate, rfl⟩ := Option.map_eq_some_iff.mp h
    exact ⟨rfl, hf, htemplate⟩
  · rintro ⟨rfl, hf, htemplate⟩
    exact ⟨x.info, hf, by rw [htemplate]; rfl⟩

/-- The mutations with templates are given shapes as all mutations are. -/
theorem templateFields_map_inferShape :
    mutation.templateFields (fields.map FieldInfo.inferShape) =
      (mutation.templateFields fields).map TemplateField.inferShape := by
  rw [templateFields, templateFields, List.filterMap_map, List.map_filterMap]
  refine List.filterMap_congr fun f _ => ?_
  rw [Function.comp_apply, FieldInfo.template?_inferShape, Option.map_map]
  rfl

theorem map_inferShape_templateFields (h : owner ≠ .mutation) :
    (owner.templateFields fields).map TemplateField.inferShape = owner.templateFields fields := by
  refine (List.map_congr_left fun x hx => ?_).trans (List.map_id _)
  exact TemplateField.inferShape_of_ne ((mem_templateFields_iff.mp hx).1 ▸ h)

end FieldOwner

namespace Metadata

variable (m : Metadata)

theorem template?_of_mem_templateFields {x : TemplateField} (hx : x ∈ m.templateFields) :
    x.info.template? = some x.template := by
  rw [templateFields, List.mem_append, List.mem_append, List.mem_flatMap] at hx
  obtain (hx | hx) | ⟨t, -, hx⟩ := hx <;> exact (FieldOwner.mem_templateFields_iff.mp hx).2.2

/-- The fields with templates are the same, the mutations with the shapes that they are given. -/
theorem templateFields_inferShapes :
    m.inferShapes.templateFields = m.templateFields.map TemplateField.inferShape := by
  have hquery (fields : List FieldInfo) :
      (FieldOwner.query.templateFields fields).map TemplateField.inferShape =
        FieldOwner.query.templateFields fields :=
    FieldOwner.map_inferShape_templateFields nofun
  have htype (name : String) (fields : List FieldInfo) :
      ((FieldOwner.type name).templateFields fields).map TemplateField.inferShape =
        (FieldOwner.type name).templateFields fields :=
    FieldOwner.map_inferShape_templateFields nofun
  rw [templateFields, templateFields, List.map_append, List.map_append, List.map_flatMap, hquery,
    ← FieldOwner.templateFields_map_inferShape]
  simp only [htype]
  rfl

theorem inferredCount_eq :
    m.inferredCount = (m.mutations.zip m.inferShapes.mutations).countP (fun p => p.2 ≠ p.1) := by
  rw [inferredCount, inferShapes]
  dsimp only
  induction m.mutations with
  | nil => rfl
  | cons f fs ih =>
    have hchanged : decide (f.inferShape ≠ f) = f.inferredShape?.isSome := by
      rw [Bool.eq_iff_iff, decide_eq_true_iff]
      exact FieldInfo.inferShape_ne_iff
    rw [List.map_cons, List.zip_cons_cons, List.countP_cons, List.countP_cons, ih, hchanged]

theorem inferShapes_inferShapes : m.inferShapes.inferShapes = m.inferShapes := by
  have hagain : (m.mutations.map FieldInfo.inferShape).map FieldInfo.inferShape =
      m.mutations.map FieldInfo.inferShape := by
    rw [List.map_map]
    exact List.map_congr_left fun f _ => f.inferShape_inferShape
  exact congrArg (fun mutations => { m with mutations }) hagain

theorem inferredCount_inferShapes : m.inferShapes.inferredCount = 0 := by
  refine List.countP_eq_zero.mpr fun g hg => ?_
  obtain ⟨f, -, rfl⟩ := List.mem_map.mp hg
  rw [FieldInfo.inferredShape?_inferShape]
  exact Bool.false_ne_true

end Metadata

/-! ### Compiling -/

/-- A schema with its shapes compiles exactly if it does without, to the same operations with the shapes. -/
theorem CompiledSchema.ofMetadata_inferShapes (m : Metadata) (config : Config) :
    ofMetadata m.inferShapes config = (ofMetadata m config).map fun s =>
      ⟨m.inferShapes, s.joinTables, ⟨s.set.operations.map Operation.shaped, s.set.joinTables⟩⟩ := by
  rw [ofMetadata_eq, ofMetadata_eq]
  change ((JoinTables.build config.joinTables m.joinTables.names).mapError Error.config >>= _) = _
  cases (JoinTables.build config.joinTables m.joinTables.names).mapError Error.config with
  | error e => rfl
  | ok tables =>
    change (m.inferShapes.templateFields.mapM (TemplateField.prepare tables)).map _ = _
    rw [m.templateFields_inferShapes,
      mapM_map fun x hx => TemplateField.prepare_inferShape (m.template?_of_mem_templateFields hx)]
    change _ = ((m.templateFields.mapM (TemplateField.prepare tables)).map _).map _
    cases m.templateFields.mapM (TemplateField.prepare tables) <;> rfl

/-- Filling in shapes is conservative. Nothing but the mutations is changed, and of these only the shapes of
some that declare none; the number is that of the mutations that are changed, and once done nothing is left
to fill in. With any configuration a schema compiles then exactly if it did before, or fails with the same
error; the operations are the same but for the shapes of the mutations, and every mutation has one. -/
theorem Metadata.inferShapes_conservative (m : Metadata) :
    { m.inferShapes with mutations := m.mutations } = m ∧
    List.Forall₂ FieldInfo.Filled m.mutations m.inferShapes.mutations ∧
    m.inferredCount = (m.mutations.zip m.inferShapes.mutations).countP (fun p => p.2 ≠ p.1) ∧
    m.inferShapes.inferShapes = m.inferShapes ∧ m.inferShapes.inferredCount = 0 ∧
    ∀ config : Config,
      (∀ e, CompiledSchema.ofMetadata m.inferShapes config = .error e ↔
        CompiledSchema.ofMetadata m config = .error e) ∧
      ∀ s, CompiledSchema.ofMetadata m config = .ok s →
        ∃ s', CompiledSchema.ofMetadata m.inferShapes config = .ok s' ∧ s'.metadata = m.inferShapes ∧
          s'.joinTables = s.joinTables ∧ s'.set.joinTables = s.set.joinTables ∧
          List.Forall₂ Operation.Completed s.set.operations s'.set.operations := by
  refine ⟨rfl, ?_, ?_, ?_, ?_, fun config => ⟨fun e => ?_, fun s hs => ?_⟩⟩
  · exact List.forall₂_map_right_iff.mpr (List.forall₂_same.mpr fun f _ => f.filled_inferShape)
  · exact m.inferredCount_eq
  · exact m.inferShapes_inferShapes
  · exact m.inferredCount_inferShapes
  · rw [CompiledSchema.ofMetadata_inferShapes, map_eq_error_iff]
  · rw [CompiledSchema.ofMetadata_inferShapes, hs]
    refine ⟨_, rfl, rfl, rfl, rfl, ?_⟩
    exact List.forall₂_map_right_iff.mpr (List.forall₂_same.mpr fun op _ => op.completed_shaped)

end SchemaQuery
