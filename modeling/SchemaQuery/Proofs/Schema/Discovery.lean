import SchemaQuery.Proofs.Query.Classification
import SchemaQuery.Proofs.Query.Resolution
import SchemaQuery.Proofs.Schema.Extraction
import SchemaQuery.Schema.Operation

/-!
Discovery and resolution of join tables over a whole schema. The names that are gathered while a document
is read are those that the templates mention which are prepared later, so a table that is built from
them knows every name that comes up. What is left to go wrong is the physical name of a table, and in a
template its keyword or a region that it does not close once its macros are replaced.
-/

namespace SchemaQuery

open Text

theorem FieldInfo.mem_tableNames_iff {f : FieldInfo} {name : String} :
    name ∈ f.tableNames ↔
      ∃ template, f.template? = some template ∧ JoinMacro.Mentions template.toList name := by
  rw [tableNames]
  cases f.template? with
  | none => simp
  | some template => simp [JoinMacro.mem_names_iff]

theorem Metadata.map_snd_ownedFields (m : Metadata) : m.ownedFields.map Prod.snd = m.fields := by
  have hsnd (owner : FieldOwner) (fs : List FieldInfo) :
      (fs.map (owner, ·)).map Prod.snd = fs := by
    simp [Function.comp_def]
  simp only [ownedFields, fields, List.map_append, List.map_flatMap, hsnd]

theorem Metadata.mem_fields_of_mem_ownedFields {m : Metadata} {owner : FieldOwner} {f : FieldInfo}
    (h : (owner, f) ∈ m.ownedFields) : f ∈ m.fields := by
  rw [← m.map_snd_ownedFields]
  exact List.mem_map_of_mem h

/-- A field cannot be prepared exactly if its template cannot, and then for the same fault. -/
theorem Operation.prepare?_eq_error_iff {tables : JoinTables} {owner : FieldOwner} {f : FieldInfo}
    {e : Error} :
    prepare? tables owner f = .error e ↔ ∃ template fault, f.template? = some template ∧
      tables.prepare template = .error fault ∧ e = .compile (.ofField owner f.name fault) := by
  rw [prepare?]
  cases f.template? with
  | none => simp
  | some template =>
    cases hp : tables.prepare template with
    | ok prepared => simp [hp]
    | error fault => simp [hp, eq_comm]

/-- What can be wrong with a schema under a configuration. -/
inductive CompiledSchema.Fault (m : Metadata) (config : Config) : Error → Prop where
  /-- A join table gets a physical name that is no dotted word. -/
  | table {name : String} :
      name ∈ m.joinTables.names →
      isDottedWord (config.joinTables.physicalName name).toList = false →
      Fault m config (.config (.invalidTable name (config.joinTables.physicalName name)))
  /-- A template has no known keyword. -/
  | keyword {owner : FieldOwner} {f : FieldInfo} {template : String} :
      (owner, f) ∈ m.ownedFields → f.template? = some template →
      (∀ kind, classify template ≠ .ok kind) →
      Fault m config (.compile (.ofField owner f.name (.ofHead template.toList)))
  /-- A template leaves a region open once its macros are replaced. -/
  | region {owner : FieldOwner} {f : FieldInfo} {template text : String} {tables : JoinTables}
      {region : Region} :
      (owner, f) ∈ m.ownedFields → f.template? = some template →
      JoinTables.build config.joinTables m.joinTables.names = .ok tables →
      tables.resolve template = .ok text → Segment.split text.toList = .error region →
      Fault m config (.compile (.ofField owner f.name (.unterminated region)))

namespace CompiledSchema

variable {doc : Sdl.Document} {config : Config} {tables : JoinTables}

/-- The names of join tables are those that the templates mention. -/
theorem mem_joinTables_iff {name : String} :
    name ∈ (Metadata.ofDocument doc).joinTables.names ↔
      ∃ f ∈ (Metadata.ofDocument doc).fields, ∃ template, f.template? = some template ∧
        JoinMacro.Mentions template.toList name := by
  simp only [Metadata.mem_joinTables_ofDocument, FieldInfo.mem_tableNames_iff]

/-- A table that is built from the names of a document knows every name that a template mentions. -/
theorem exists_resolve_eq_ok
    (ht : JoinTables.build config.joinTables (Metadata.ofDocument doc).joinTables.names = .ok tables)
    {owner : FieldOwner} {f : FieldInfo} {template : String}
    (hf : (owner, f) ∈ (Metadata.ofDocument doc).ownedFields) (htemplate : f.template? = some template) :
    ∃ text, tables.resolve template = .ok text := by
  cases hr : tables.resolve template with
  | ok text => exact ⟨text, rfl⟩
  | error fault =>
    obtain ⟨name, hname, hnone, -⟩ := JoinTables.exists_of_resolve_eq_error hr
    have hdiscovered : name ∈ (Metadata.ofDocument doc).joinTables.names :=
      mem_joinTables_iff.mpr ⟨f, Metadata.mem_fields_of_mem_ownedFields hf, template, htemplate,
        JoinMacro.mem_names_iff.mp hname⟩
    rw [JoinTables.get?_of_build ht, if_pos hdiscovered] at hnone
    cases hnone

/-- An error of the operations is a fault of one of the templates. -/
theorem fault_of_build_eq_error
    (ht : JoinTables.build config.joinTables (Metadata.ofDocument doc).joinTables.names = .ok tables)
    {e : Error} (h : OperationSet.build (Metadata.ofDocument doc) tables = .error e) :
    Fault (Metadata.ofDocument doc) config e := by
  rw [OperationSet.build, bind_eq_error_iff] at h
  rcases h with h | ⟨prepared, -, h⟩
  · obtain ⟨⟨owner, f⟩, hf, h⟩ := exists_of_mapM_eq_error h
    obtain ⟨template, fault, htemplate, hprepare, rfl⟩ := Operation.prepare?_eq_error_iff.mp h
    obtain ⟨text, htext⟩ := exists_resolve_eq_ok ht hf htemplate
    rcases JoinTables.prepare_eq_error_iff.mp hprepare with hkind | ⟨kind, -, hresolve | hregion⟩
    · rw [fault_of_classify hkind]
      refine .keyword hf htemplate fun kind hok => ?_
      rw [hkind] at hok
      cases hok
    · rw [htext] at hresolve
      cases hresolve
    · obtain ⟨text', region, htext', hsplit, rfl⟩ := hregion
      exact .region hf htemplate ht htext' hsplit
  · cases h

theorem exists_prepare_eq_ok {m : Metadata} {set : OperationSet}
    (h : OperationSet.build m tables = .ok set) {owner : FieldOwner} {f : FieldInfo} {template : String}
    (hf : (owner, f) ∈ m.ownedFields) (htemplate : f.template? = some template) :
    ∃ prepared, tables.prepare template = .ok prepared := by
  obtain ⟨prepared, hprepared, -⟩ := bind_eq_ok_iff.mp h
  obtain ⟨operation, hoperation⟩ := exists_of_mapM_eq_ok hprepared hf
  cases hp : tables.prepare template with
  | ok prepared => exact ⟨prepared, rfl⟩
  | error fault =>
    change Operation.prepare? tables owner f = .ok operation at hoperation
    rw [Operation.prepare?_eq_error_iff.mpr ⟨template, fault, htemplate, hp, rfl⟩] at hoperation
    cases hoperation

/-- No fault of a schema is a table that is unknown. -/
theorem Fault.ne_unresolvedTable {m : Metadata} {e : Error} (h : Fault m config e) (owner : FieldOwner)
    (field name : String) : e ≠ .compile (.ofField owner field (.unresolvedTable name)) := by
  intro he
  cases h with
  | table hname hphysical => cases he
  | @keyword _ _ template hf htemplate hkind =>
    have hhead : TemplateFault.ofHead template.toList = .unresolvedTable name := by
      injection he with he
      injection he
    rw [TemplateFault.ofHead] at hhead
    split at hhead <;> cases hhead
  | region hf htemplate ht htext hsplit => cases he

/-- Compiling the metadata of a document fails with one of its faults, or else succeeds and there is
none. -/
theorem ofMetadata_cases (doc : Sdl.Document) (config : Config) :
    (∃ e, ofMetadata (Metadata.ofDocument doc) config = .error e ∧
        Fault (Metadata.ofDocument doc) config e) ∨
      (∃ schema, ofMetadata (Metadata.ofDocument doc) config = .ok schema) ∧
        ∀ e, ¬ Fault (Metadata.ofDocument doc) config e := by
  rw [ofMetadata]
  cases ht : JoinTables.build config.joinTables (Metadata.ofDocument doc).joinTables.names with
  | error fault =>
    obtain ⟨name, hname, hphysical, rfl⟩ := JoinTables.exists_of_build_eq_error ht
    exact .inl ⟨_, rfl, .table hname hphysical⟩
  | ok tables =>
    cases hset : OperationSet.build (Metadata.ofDocument doc) tables with
    | error e =>
      refine .inl ⟨e, bind_eq_error_iff.mpr (.inr ⟨tables, rfl, ?_⟩), fault_of_build_eq_error ht hset⟩
      exact bind_eq_error_iff.mpr (.inl hset)
    | ok set =>
      refine .inr ⟨⟨_, bind_eq_ok_iff.mpr ⟨tables, rfl, bind_eq_ok_iff.mpr ⟨set, hset, rfl⟩⟩⟩, ?_⟩
      rintro e (⟨hname, hphysical⟩ | ⟨hf, htemplate, hkind⟩ | ⟨hf, htemplate, ht', htext, hsplit⟩)
      · rw [(JoinTables.build_eq_ok_iff.mp ht).1 _ hname] at hphysical
        cases hphysical
      · obtain ⟨prepared, hp⟩ := exists_prepare_eq_ok hset hf htemplate
        exact hkind _ (JoinTables.prepare_eq_ok_iff.mp hp).1
      · obtain ⟨prepared, hp⟩ := exists_prepare_eq_ok hset hf htemplate
        obtain ⟨-, htext', segments, hsegments⟩ := JoinTables.prepare_eq_ok_iff.mp hp
        obtain rfl := Except.ok.inj (ht.symm.trans ht')
        obtain rfl := Except.ok.inj (htext.symm.trans htext')
        rw [hsegments] at hsplit
        cases hsplit

/-- Discovery and resolution agree over a whole schema: the join tables of a document are those that the
templates of its fields mention, and compiling it never fails for a table that is unknown. It fails only
for a physical name, for a keyword or for a region that is not closed, and it does not fail where there
is no such fault. -/
theorem discovery_agrees (doc : Sdl.Document) (config : Config) :
    (∀ name, name ∈ (Metadata.ofDocument doc).joinTables.names ↔
      ∃ f ∈ (Metadata.ofDocument doc).fields, ∃ template, f.template? = some template ∧
        JoinMacro.Mentions template.toList name) ∧
    (∀ owner field name, ofMetadata (Metadata.ofDocument doc) config ≠
      .error (.compile (.ofField owner field (.unresolvedTable name)))) ∧
    ((∃ e, ofMetadata (Metadata.ofDocument doc) config = .error e ∧
        Fault (Metadata.ofDocument doc) config e) ∨
      (∃ schema, ofMetadata (Metadata.ofDocument doc) config = .ok schema) ∧
        ∀ e, ¬ Fault (Metadata.ofDocument doc) config e) := by
  refine ⟨fun name => mem_joinTables_iff, fun owner field name h => ?_, ofMetadata_cases doc config⟩
  rcases ofMetadata_cases doc config with ⟨e, he, hfault⟩ | ⟨⟨schema, hok⟩, -⟩
  · rw [h] at he
    exact hfault.ne_unresolvedTable owner field name (Except.error.inj he).symm
  · rw [h] at hok
    cases hok

end CompiledSchema

end SchemaQuery
