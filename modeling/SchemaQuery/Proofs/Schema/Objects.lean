import Mathlib.Data.List.Induction
import Mathlib.Data.List.Nodup
import SchemaQuery.Proofs.Schema.Extraction

/-!
Object types as what their blocks make up. A type stands at the place of its first block and has the
directives and fields of all of them, in their order; the roots are the names that come last. Reading the
types one after the other then sorts them by where they belong.
-/

namespace SchemaQuery

namespace Sdl

/-! ### Blocks of one type -/

/-- The blocks of object types, in their order. -/
def Document.blocks (doc : Document) : List Block := doc.filterMap Definition.block?

/-- The blocks of one object type. -/
def Document.blocksOf (doc : Document) (type : String) : List Block :=
  doc.blocks.filter (·.name = type)

/-- What some blocks of one type make up. -/
def Block.join (type : String) (blocks : List Block) : Block :=
  ⟨type, blocks.flatMap Block.directives, blocks.flatMap Block.fields⟩

/-- What the blocks of a type make up. -/
def Document.object (doc : Document) (type : String) : Block := .join type (doc.blocksOf type)

theorem Document.name_object (doc : Document) (type : String) : (doc.object type).name = type := rfl

/-- The object types in the order in which a document first mentions them. -/
def Document.objectNames (doc : Document) : List String := (doc.blocks.map Block.name).eraseDups

theorem Block.join_append (type : String) (blocks : List Block) (b : Block) :
    join type (blocks ++ [b]) =
      ⟨type, (join type blocks).directives ++ b.directives, (join type blocks).fields ++ b.fields⟩ := by
  simp [join]

/-- Among types of different names, a block goes to the type of its name, or stands last. -/
theorem mergeBlock_map {names : List String} (hnodup : names.Nodup) {f : String → Block}
    (hf : ∀ n, (f n).name = n) (b : Block) :
    mergeBlock (names.map f) b =
      if b.name ∈ names then
        names.map fun n =>
          if n = b.name then ⟨n, (f n).directives ++ b.directives, (f n).fields ++ b.fields⟩ else f n
      else names.map f ++ [b] := by
  induction names with
  | nil => rfl
  | cons n names ih =>
    obtain ⟨hn, hnodup⟩ := List.nodup_cons.mp hnodup
    rw [List.map_cons, mergeBlock, hf]
    by_cases h : n = b.name
    · have hothers : names.map f = names.map fun n =>
          if n = b.name then ⟨n, (f n).directives ++ b.directives, (f n).fields ++ b.fields⟩
          else f n :=
        List.map_congr_left fun k hk => (if_neg fun hkb : k = b.name => hn (h.trans hkb.symm ▸ hk)).symm
      rw [if_pos h, if_pos (h ▸ List.mem_cons_self), List.map_cons, if_pos h, ← hothers]
    · rw [if_neg h, ih hnodup]
      by_cases hmem : b.name ∈ names
      · rw [if_pos hmem, if_pos (List.mem_cons_of_mem _ hmem), List.map_cons, if_neg h]
      · have hnot : b.name ∉ n :: names := by
          rw [List.mem_cons, not_or]
          exact ⟨Ne.symm h, hmem⟩
        rw [if_neg hmem, if_neg hnot, List.cons_append]

/-- A name that comes last is a new one, or was mentioned before. -/
theorem eraseDups_concat (names : List String) (n : String) :
    (names ++ [n]).eraseDups =
      if n ∈ names then names.eraseDups else names.eraseDups ++ [n] := by
  rw [List.eraseDups_append]
  by_cases h : n ∈ names <;> simp [List.removeAll, h, List.eraseDups_cons]

theorem nodup_eraseDups (names : List String) : names.eraseDups.Nodup := by
  induction names using List.reverseRecOn with
  | nil => simp
  | append_singleton names n ih =>
    rw [eraseDups_concat]
    split
    · exact ih
    · next h => exact List.concat_eq_append ▸ ih.concat (mt List.mem_eraseDups.mp h)

/-- Putting blocks together makes each type up from its blocks, at the place of the first of them. -/
theorem foldl_mergeBlock (bs : List Block) :
    bs.foldl mergeBlock [] =
      (bs.map Block.name).eraseDups.map fun type => .join type (bs.filter (·.name = type)) := by
  induction bs using List.reverseRecOn with
  | nil => rfl
  | append_singleton bs b ih =>
    have hone (type : String) : Block.join type ((bs ++ [b]).filter (·.name = type)) =
        if type = b.name then
          ⟨type, (Block.join type (bs.filter (·.name = type))).directives ++ b.directives,
            (Block.join type (bs.filter (·.name = type))).fields ++ b.fields⟩
        else .join type (bs.filter (·.name = type)) := by
      rw [List.filter_append]
      by_cases h : type = b.name
      · rw [if_pos h, ← Block.join_append]
        simp [h]
      · simp [h, Ne.symm h]
    rw [List.foldl_append, ih, List.foldl_cons, List.foldl_nil,
      mergeBlock_map (nodup_eraseDups _) (fun _ => rfl), List.map_append, List.map_singleton,
      eraseDups_concat]
    simp only [List.mem_eraseDups, hone]
    split
    · rfl
    · next hnew =>
      have hnone : bs.filter (·.name = b.name) = [] :=
        List.filter_eq_nil_iff.mpr fun b' hb' => by
          simpa using fun h : b'.name = b.name => hnew (h ▸ List.mem_map_of_mem hb')
      rw [List.map_append, List.map_singleton, if_pos rfl, hnone]
      refine congrArg₂ _ (List.map_congr_left fun type htype => (if_neg ?_).symm) rfl
      rintro rfl
      exact hnew (List.mem_eraseDups.mp htype)

/-- The object types of a document are made up from their blocks, in the order of first mention. -/
theorem Document.objects_eq (doc : Document) : doc.objects = doc.objectNames.map doc.object :=
  foldl_mergeBlock doc.blocks

theorem Document.mem_objectNames {doc : Document} {type : String} :
    type ∈ doc.objectNames ↔ ∃ b ∈ doc.blocks, b.name = type := by
  rw [objectNames, List.mem_eraseDups, List.mem_map]

theorem Document.nodup_objectNames (doc : Document) : doc.objectNames.Nodup := nodup_eraseDups _

/-! ### Roots -/

/-- The query root that a schema block names. -/
def Definition.queryRoot? : Definition → Option String
  | .schema query _ => query
  | _ => none

/-- The mutation root that a schema block names. -/
def Definition.mutationRoot? : Definition → Option String
  | .schema _ mutation => mutation
  | _ => none

/-- Each root is the one that is named last, or else has its standard name. -/
theorem Document.roots_eq (doc : Document) :
    doc.roots = ⟨(doc.filterMap Definition.queryRoot?).getLastD "Query",
      (doc.filterMap Definition.mutationRoot?).getLastD "Mutation"⟩ := by
  rw [roots]
  induction doc using List.reverseRecOn with
  | nil => rfl
  | append_singleton doc d ih =>
    rw [List.foldl_append, ih, List.foldl_cons, List.foldl_nil, List.filterMap_append,
      List.filterMap_append]
    cases d with
    | schema query mutation =>
      cases query <;> cases mutation <;>
        simp [Roots.after, Definition.queryRoot?, Definition.mutationRoot?]
    | object | extension | scalar | enumeration | other =>
      simp [Roots.after, Definition.queryRoot?, Definition.mutationRoot?]

/-- Where the fields of an object type belong. -/
def Roots.ownerOf (roots : Roots) (type : String) : FieldOwner :=
  if type = roots.query then .query
  else if type = roots.mutation then .mutation
  else .type type

theorem Roots.ownerOf_cases (roots : Roots) (type : String) :
    roots.ownerOf type = .query ∨ roots.ownerOf type = .mutation ∨
      roots.ownerOf type = .type type := by
  unfold ownerOf
  split
  · exact .inl rfl
  · split
    · exact .inr (.inl rfl)
    · exact .inr (.inr rfl)

theorem Roots.ownerOf_eq_query_iff {roots : Roots} {type : String} :
    roots.ownerOf type = .query ↔ type = roots.query := by
  unfold ownerOf
  split
  · next h => simp [h]
  · next h => split <;> simp [h]

/-- The type whose fields belong to an owner. -/
def Roots.typeOf (roots : Roots) : FieldOwner → String
  | .query => roots.query
  | .mutation => roots.mutation
  | .type type => type

theorem Roots.typeOf_ownerOf (roots : Roots) (type : String) :
    roots.typeOf (roots.ownerOf type) = type := by
  unfold ownerOf
  split
  · next h => exact h.symm
  · split
    · next h => exact h.symm
    · rfl

theorem Roots.ownerOf_injective (roots : Roots) : Function.Injective roots.ownerOf :=
  Function.LeftInverse.injective roots.typeOf_ownerOf

/-- What the fields of a block say, which are tasks if they are queries. -/
theorem Block.infos_eq (b : Block) (roots : Roots) :
    b.infos roots = b.fields.map (Field.info (roots.ownerOf b.name = .query)) := by
  rw [infos]
  simp only [Roots.ownerOf_eq_query_iff]

end Sdl

/-! ### Types that are read -/

namespace Metadata

open Sdl (Block Document Roots)

/-- A type that is read goes where its fields belong. -/
theorem readType_eq (roots : Roots) (m : Metadata) (b : Block) :
    m.readType roots b =
      { m with
        queries := if roots.ownerOf b.name = .query then b.infos roots else m.queries
        mutations := if roots.ownerOf b.name = .mutation then b.infos roots else m.mutations
        types := if roots.ownerOf b.name = .type b.name then m.types ++ [.ofBlock b (b.infos roots)]
          else m.types
        joinTables := (m.readType roots b).joinTables } := by
  rw [readType, Roots.ownerOf, Block.infos]
  simp only [Sdl.readFields_eq]
  by_cases hquery : b.name = roots.query
  · simp [hquery]
  · by_cases hmutation : b.name = roots.mutation
    · have hroots : roots.mutation ≠ roots.query := hmutation ▸ hquery
      simp [hmutation, hroots]
    · simp [hquery, hmutation]

/-- Types of different names that are read one after the other: the queries and the mutations are the
fields of the types that own them, and every other type stays one of its own, in its order. -/
theorem foldl_readType {roots : Roots} {bs : List Block} (hnodup : (bs.map Block.name).Nodup) :
    (bs.foldl (readType roots) ⟨[], [], [], [], ∅⟩).queries =
        (bs.filter (roots.ownerOf ·.name = .query)).flatMap (Block.infos · roots) ∧
      (bs.foldl (readType roots) ⟨[], [], [], [], ∅⟩).mutations =
        (bs.filter (roots.ownerOf ·.name = .mutation)).flatMap (Block.infos · roots) ∧
      (bs.foldl (readType roots) ⟨[], [], [], [], ∅⟩).types =
        (bs.filter fun b => roots.ownerOf b.name = .type b.name).map fun b =>
          .ofBlock b (b.infos roots) := by
  induction bs using List.reverseRecOn with
  | nil => exact ⟨rfl, rfl, rfl⟩
  | append_singleton bs b ih =>
    rw [List.map_append, List.nodup_append] at hnodup
    obtain ⟨hqueries, hmutations, htypes⟩ := ih hnodup.1
    -- Nothing before this type belongs where it belongs.
    have hfirst {owner : FieldOwner} (howner : roots.ownerOf b.name = owner) :
        bs.filter (roots.ownerOf ·.name = owner) = [] :=
      List.filter_eq_nil_iff.mpr fun b' hb' => by
        simpa using fun h => hnodup.2.2 b'.name (List.mem_map_of_mem hb') b.name (by simp)
          (roots.ownerOf_injective (h.trans howner.symm))
    rw [List.foldl_append, List.foldl_cons, List.foldl_nil, readType_eq]
    simp only [List.filter_append, List.flatMap_append, List.map_append, hqueries, hmutations, htypes]
    refine ⟨?_, ?_, ?_⟩
    · by_cases h : roots.ownerOf b.name = .query
      · rw [if_pos h, hfirst h]
        simp [h]
      · simp [h]
    · by_cases h : roots.ownerOf b.name = .mutation
      · rw [if_pos h, hfirst h]
        simp [h]
      · simp [h]
    · by_cases h : roots.ownerOf b.name = .type b.name <;> simp [h]

end Metadata

end SchemaQuery
