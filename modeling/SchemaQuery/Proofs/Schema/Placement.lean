import Mathlib.Data.List.Perm.Basic
import SchemaQuery.Proofs.Schema.Objects
import SchemaQuery.Schema.Operation

/-!
Where the fields of a document come to stand. Every field of every block is found once in the metadata,
with the owner that the name of the block tells: the query root, else the mutation root, else the type of
that name. Fields of one owner keep their order, whatever blocks stand in between, and types keep the order
of first mention.
-/

namespace SchemaQuery

/-- Elements sorted by their keys are the elements, if each key that occurs is listed once. -/
theorem perm_flatMap_filter {α κ : Type} [DecidableEq κ] (key : α → κ) {keys : List κ}
    (hnodup : keys.Nodup) {as : List α} (h : ∀ a ∈ as, key a ∈ keys) :
    (keys.flatMap fun k => as.filter (key · = k)).Perm as := by
  induction keys generalizing as with
  | nil => rw [List.eq_nil_iff_forall_not_mem.mpr fun a ha => List.not_mem_nil (h a ha)]; rfl
  | cons k keys ih =>
    obtain ⟨hk, hnodup⟩ := List.nodup_cons.mp hnodup
    have hrest : (keys.flatMap fun k' => as.filter (key · = k')) =
        keys.flatMap fun k' => (as.filter fun a => !decide (key a = k)).filter (key · = k') := by
      refine List.flatMap_congr fun k' hk' => ?_
      rw [List.filter_filter]
      refine List.filter_congr fun a _ => ?_
      have hne : k' ≠ k := fun heq => hk (heq ▸ hk')
      by_cases ha : key a = k' <;> simp [ha, hne]
    rw [List.flatMap_cons, hrest]
    refine List.Perm.trans (List.Perm.append_left _ (ih hnodup fun a ha => ?_))
      (List.filter_append_perm (key · = k) as)
    obtain ⟨ha, hne⟩ := List.mem_filter.mp ha
    exact (List.mem_cons.mp (h a ha)).resolve_left (by simpa using hne)

namespace Sdl

/-! ### Fields by their owners -/

/-- Every field of every block, with the owner to which it belongs. -/
def Document.fields (doc : Document) : List (FieldOwner × FieldInfo) :=
  doc.blocks.flatMap fun b => b.fields.map fun f =>
    (doc.roots.ownerOf b.name, f.info (doc.roots.ownerOf b.name = .query))

/-- The fields of one owner, block after block. -/
def Document.fieldsOf (doc : Document) (owner : FieldOwner) : List FieldInfo :=
  (doc.blocks.filter (doc.roots.ownerOf ·.name = owner)).flatMap fun b =>
    b.fields.map (Field.info (owner = .query))

variable (doc : Document)

/-- The fields that belong to an owner are those of the blocks that do. -/
theorem Document.filter_fields (owner : FieldOwner) :
    doc.fields.filter (·.1 = owner) = (doc.fieldsOf owner).map (owner, ·) := by
  rw [fields, fieldsOf]
  induction doc.blocks with
  | nil => rfl
  | cons b bs ih =>
    rw [List.flatMap_cons, List.filter_append, ih, List.filter_cons]
    by_cases h : doc.roots.ownerOf b.name = owner
    · simp [h, Function.comp_def]
    · simp [h]

theorem Document.fieldsOf_ownerOf (type : String) :
    doc.fieldsOf (doc.roots.ownerOf type) = (doc.blocksOf type).flatMap fun b =>
      b.fields.map (Field.info (doc.roots.ownerOf type = .query)) := by
  rw [fieldsOf, blocksOf]
  simp only [doc.roots.ownerOf_injective.eq_iff]

theorem Document.fieldsOf_eq_nil {owner : FieldOwner}
    (h : ∀ b ∈ doc.blocks, doc.roots.ownerOf b.name ≠ owner) : doc.fieldsOf owner = [] := by
  have hnone : doc.blocks.filter (doc.roots.ownerOf ·.name = owner) = [] :=
    List.filter_eq_nil_iff.mpr fun b hb => by simpa using h b hb
  rw [fieldsOf, hnone]
  rfl

/-- A type has the fields of its owner. -/
theorem Document.infos_object (type : String) :
    (doc.object type).infos doc.roots = doc.fieldsOf (doc.roots.ownerOf type) := by
  rw [Block.infos_eq, fieldsOf_ownerOf, ← List.map_flatMap]
  rfl

/-- The types that belong to an owner, one at most, have its fields. -/
theorem Document.flatMap_objects (owner : FieldOwner) :
    (doc.objects.filter (doc.roots.ownerOf ·.name = owner)).flatMap (Block.infos · doc.roots) =
      doc.fieldsOf owner := by
  have hfilter : doc.objects.filter (doc.roots.ownerOf ·.name = owner) =
      (doc.objectNames.filter (doc.roots.ownerOf · = owner)).map doc.object := by
    rw [doc.objects_eq, List.filter_map]
    rfl
  rw [hfilter]
  by_cases h : ∃ type ∈ doc.objectNames, doc.roots.ownerOf type = owner
  · obtain ⟨type, htype, rfl⟩ := h
    simp only [doc.roots.ownerOf_injective.eq_iff]
    rw [List.filter_eq, List.count_eq_one_of_mem doc.nodup_objectNames htype, ← doc.infos_object]
    exact List.flatMap_singleton ..
  · have hnone : doc.objectNames.filter (doc.roots.ownerOf · = owner) = [] :=
      List.filter_eq_nil_iff.mpr fun type htype => by simpa using fun hown => h ⟨type, htype, hown⟩
    rw [hnone, doc.fieldsOf_eq_nil fun b hb hown =>
      h ⟨b.name, mem_objectNames.mpr ⟨b, hb, rfl⟩, hown⟩]
    rfl

/-- The object types that are no roots, in the order of first mention. -/
def Document.ownTypes (doc : Document) : List String :=
  doc.objectNames.filter fun type => doc.roots.ownerOf type = .type type

/-! ### Directives of a type -/

/-- Whether a block of a type carries a directive of this name. -/
def Document.carries (doc : Document) (type directive : String) : Bool :=
  (doc.blocksOf type).any fun b => b.directives.any (·.name = directive)

theorem Document.isSome_directive?_object (type directive : String) :
    (directive? (doc.object type).directives directive).isSome = doc.carries type directive := by
  rw [carries, ← List.any_flatMap, directive?, Bool.eq_iff_iff, List.find?_isSome, List.any_eq_true]
  rfl

/-- A type that carries both directives counts as a report. -/
theorem Document.typeBehaviour_object (type : String) :
    typeBehaviour (doc.object type).directives =
      if doc.carries type "task_response" then .taskResponse
      else if doc.carries type "resolver" then .resolver
      else .plain := by
  rw [typeBehaviour, isSome_directive?_object, isSome_directive?_object]

end Sdl

namespace Metadata

open Sdl (Block Document Definition Roots)

variable (doc : Document)

/-- What a document says of an object type that is no root. -/
def objectType (type : String) : TypeInfo := .ofBlock (doc.object type) (doc.fieldsOf (.type type))

theorem queries_ofDocument : (ofDocument doc).queries = doc.fieldsOf .query :=
  (foldl_readType (Sdl.nodup_objects doc)).1.trans (doc.flatMap_objects .query)

theorem mutations_ofDocument : (ofDocument doc).mutations = doc.fieldsOf .mutation :=
  (foldl_readType (Sdl.nodup_objects doc)).2.1.trans (doc.flatMap_objects .mutation)

/-- The object types come first, then the scalars. -/
theorem types_ofDocument :
    (ofDocument doc).types =
      doc.ownTypes.map (objectType doc) ++ (doc.filterMap Definition.scalar?).map .ofScalar := by
  have htypes := (@foldl_readType doc.roots _ (Sdl.nodup_objects doc)).2.2
  rw [ofDocument]
  simp only [htypes]
  rw [doc.objects_eq, List.filter_map, List.map_map]
  congr 1
  refine List.map_congr_left fun type htype => ?_
  have hown : doc.roots.ownerOf type = .type type := of_decide_eq_true (List.mem_filter.mp htype).2
  exact congrArg (TypeInfo.ofBlock (doc.object type)) (hown ▸ doc.infos_object type)

/-- The types that stand for stored records are the object types without either directive. -/
theorem storedTypes_ofDocument :
    (ofDocument doc).storedTypes =
      (doc.ownTypes.filter fun type =>
        !doc.carries type "task_response" && !doc.carries type "resolver").map (objectType doc) := by
  have hscalars : ((doc.filterMap Definition.scalar?).map .ofScalar).filter TypeInfo.isStored = [] := by
    rw [List.filter_map, List.map_eq_nil_iff]
    exact List.filter_eq_nil_iff.mpr fun name _ => Bool.false_ne_true
  rw [storedTypes, types_ofDocument, List.filter_append, hscalars, List.append_nil, List.filter_map]
  congr 1
  refine List.filter_congr fun type _ => ?_
  simp only [Function.comp_apply, TypeInfo.isStored, objectType, TypeInfo.ofBlock,
    doc.typeBehaviour_object]
  split
  · next h => simp [h]
  · next h => split <;> simp_all

/-! ### Each field once -/

/-- The owners of the fields of a document. -/
def owners : List FieldOwner := .query :: .mutation :: doc.ownTypes.map FieldOwner.type

theorem nodup_owners : (owners doc).Nodup := by
  have htypes : (doc.ownTypes.map FieldOwner.type).Nodup :=
    (doc.nodup_objectNames.filter _).map fun _ _ h => FieldOwner.type.inj h
  simpa [owners] using htypes

theorem ownerOf_mem_owners {b : Block} (hb : b ∈ doc.blocks) :
    doc.roots.ownerOf b.name ∈ owners doc := by
  have hname : b.name ∈ doc.objectNames := Document.mem_objectNames.mpr ⟨b, hb, rfl⟩
  rcases doc.roots.ownerOf_cases b.name with h | h | h <;> rw [h, owners]
  · exact List.mem_cons_self
  · exact List.mem_cons_of_mem _ List.mem_cons_self
  · refine List.mem_cons_of_mem _ (List.mem_cons_of_mem _ (List.mem_map_of_mem ?_))
    exact List.mem_filter.mpr ⟨hname, decide_eq_true h⟩

/-- The fields that are prepared are those of each owner. -/
theorem ownedFields_ofDocument :
    (ofDocument doc).ownedFields =
      (owners doc).flatMap fun owner => (doc.fieldsOf owner).map (owner, ·) := by
  have hscalars : (((doc.filterMap Definition.scalar?).map .ofScalar).flatMap fun t : TypeInfo =>
      t.fields.map (FieldOwner.type t.name, ·)) = [] := by
    rw [List.flatMap_map]
    exact List.flatMap_eq_nil_iff.mpr fun name _ => rfl
  rw [ownedFields, queries_ofDocument, mutations_ofDocument, types_ofDocument, List.flatMap_append,
    hscalars, List.append_nil, List.flatMap_map, owners, List.flatMap_cons, List.flatMap_cons,
    List.flatMap_map, List.append_assoc]
  rfl

/-- Each field of a document is found once, with its owner. -/
theorem ownedFields_perm : (ofDocument doc).ownedFields.Perm doc.fields := by
  simp only [ownedFields_ofDocument, ← Document.filter_fields]
  refine perm_flatMap_filter Prod.fst (nodup_owners doc) fun p hp => ?_
  obtain ⟨b, hb, hp⟩ := List.mem_flatMap.mp hp
  obtain ⟨f, -, rfl⟩ := List.mem_map.mp hp
  exact ownerOf_mem_owners doc hb

/-- A document loses no field and none comes twice. The roots are those that are named last. Every field
of every block is found once, with the owner of its block; it is a task exactly if that is the query root.
The fields of each owner stand in the order of the document. The types are the object types in the order
of first mention and then the scalars; an object type reports on a task if one of its blocks says so, and
has a resolver if one says that and none the former. The others stand for stored records. -/
theorem ofDocument_keeps_fields :
    doc.roots = ⟨(doc.filterMap Definition.queryRoot?).getLastD "Query",
      (doc.filterMap Definition.mutationRoot?).getLastD "Mutation"⟩ ∧
    (ofDocument doc).ownedFields.Perm doc.fields ∧
    (∀ p ∈ (ofDocument doc).ownedFields, p.2.task = true ↔ p.1 = .query) ∧
    (ofDocument doc).queries = doc.fieldsOf .query ∧
    (ofDocument doc).mutations = doc.fieldsOf .mutation ∧
    ∃ objects : List TypeInfo,
      (ofDocument doc).types = objects ++ (doc.filterMap Definition.scalar?).map .ofScalar ∧
      objects.map TypeInfo.name = (doc.blocks.map Block.name).eraseDups.filter (fun type =>
        doc.roots.ownerOf type = .type type) ∧
      (objects.map TypeInfo.name).Nodup ∧
      (∀ t ∈ objects, t.fields = doc.fieldsOf (.type t.name) ∧ t.primitive = false ∧
        t.taskResponse = doc.carries t.name "task_response" ∧
        t.resolver = (doc.carries t.name "resolver" && !doc.carries t.name "task_response")) ∧
      (ofDocument doc).storedTypes = objects.filter fun t =>
        !doc.carries t.name "task_response" && !doc.carries t.name "resolver" := by
  have hnames : (doc.ownTypes.map (objectType doc)).map TypeInfo.name = doc.ownTypes := by
    rw [List.map_map]
    exact List.map_id _
  have hnodup : doc.ownTypes.Nodup := doc.nodup_objectNames.filter _
  refine ⟨doc.roots_eq, ownedFields_perm doc, fun p hp => ?_, queries_ofDocument doc,
    mutations_ofDocument doc, doc.ownTypes.map (objectType doc), types_ofDocument doc, hnames,
    hnames.symm ▸ hnodup, fun t ht => ?_, ?_⟩
  · obtain ⟨b, -, hp⟩ := List.mem_flatMap.mp ((ownedFields_perm doc).subset hp)
    obtain ⟨f, -, rfl⟩ := List.mem_map.mp hp
    exact decide_eq_true_iff
  · obtain ⟨type, -, rfl⟩ := List.mem_map.mp ht
    refine ⟨rfl, rfl, ?_, ?_⟩ <;>
      simp only [objectType, TypeInfo.ofBlock, doc.typeBehaviour_object, Document.name_object] <;>
      cases doc.carries type "task_response" <;> cases doc.carries type "resolver" <;> rfl
  · rw [storedTypes_ofDocument, List.filter_map]
    rfl

/-- A type that is extended before it is defined comes first and is one type; the schema block that comes
last makes the mutations of another type, whose fields stand before it. -/
example :
    let m := ofDocument
      [.extension ⟨"User", [], [⟨"age", [], .named "Int", []⟩]⟩,
        .object ⟨"Edit", [], [⟨"rename", [], .named "User", []⟩]⟩,
        .scalar "Date", .schema (some "Root") (some "Edit"),
        .object ⟨"User", [⟨"resolver", []⟩], [⟨"name", [], .named "String", []⟩]⟩,
        .object ⟨"Root", [], [⟨"users", [], .named "User", []⟩]⟩]
    m.queries.map (·.name) = ["users"] ∧ m.mutations.map (·.name) = ["rename"] ∧
      m.types.map (fun t => (t.name, t.fields.map (·.name), t.resolver)) =
        [("User", ["age", "name"], true), ("Date", [], false)] :=
  ⟨rfl, rfl, rfl⟩

end Metadata

end SchemaQuery
