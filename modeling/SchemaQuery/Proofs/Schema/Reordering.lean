import Mathlib.Data.List.Sort
import SchemaQuery.Proofs.Schema.Placement

/-!
Extraction does not depend on the order of declarations. What is looked up is looked up by name, so only
the order of what has one name can matter: blocks of one object type, schema blocks, directives of one
name, and arguments of one name. Two documents that agree in these and differ in the order of the rest have
the same queries, mutations and join tables, and the same types and enumerations in some order.
-/

namespace SchemaQuery

/-! ### Order within classes -/

/-- Both lists have the same in each class, in the same order; across classes the order may differ. -/
def AlikeByKey {α κ : Type} [DecidableEq κ] (key : α → κ) (R : α → α → Prop) (as bs : List α) : Prop :=
  ∀ k, List.Forall₂ R (as.filter (key · = k)) (bs.filter (key · = k))

/-- Of a class, the lists have none, or alike elements first. -/
theorem AlikeByKey.find? {α κ : Type} [DecidableEq κ] {key : α → κ} {R : α → α → Prop} {as bs : List α}
    (h : AlikeByKey key R as bs) (k : κ) :
    as.find? (key · = k) = none ∧ bs.find? (key · = k) = none ∨
      ∃ a b, as.find? (key · = k) = some a ∧ bs.find? (key · = k) = some b ∧ R a b := by
  rw [← List.head?_filter, ← List.head?_filter]
  generalize as.filter (key · = k) = first, bs.filter (key · = k) = second, h k = hclass
  cases hclass with
  | nil => exact .inl ⟨rfl, rfl⟩
  | cons hab _ => exact .inr ⟨_, _, rfl, rfl, hab⟩

theorem NameSet.ext {s s' : NameSet} (h : ∀ name, name ∈ s.names ↔ name ∈ s'.names) : s = s' := by
  have hnames : s.names = s'.names := s.sorted.eq_of_mem_iff s'.sorted h
  have hentries (s : NameSet) : s.entries = s.names.map (·, ()) := by
    rw [names, Dictionary.keys, List.map_map]
    exact (List.map_id _).symm
  obtain ⟨entries, sorted⟩ := s
  obtain ⟨entries', sorted'⟩ := s'
  have heq : entries = entries' := calc
    entries = (names ⟨entries, sorted⟩).map (·, ()) := hentries ⟨entries, sorted⟩
    _ = (names ⟨entries', sorted'⟩).map (·, ()) := by rw [hnames]
    _ = entries' := (hentries ⟨entries', sorted'⟩).symm
  subst heq
  rfl

namespace Sdl

/-! ### Documents that say the same -/

/-- Two directives with the same arguments; arguments of different names may come in another order. -/
structure Directive.Alike (d d' : Directive) : Prop where
  name : d.name = d'.name
  arguments : AlikeByKey Prod.fst Eq d.arguments d'.arguments

/-- The same directives; directives of different names may come in another order. -/
abbrev DirectivesAlike : List Directive → List Directive → Prop :=
  AlikeByKey Directive.name Directive.Alike

/-- Two fields that differ in the order of their directives alone. -/
structure Field.Alike (f f' : Field) : Prop where
  name : f.name = f'.name
  arguments : f.arguments = f'.arguments
  type : f.type = f'.type
  directives : DirectivesAlike f.directives f'.directives

/-- Two blocks of one type with the same fields in their order. The directives of a type are compared
for all its blocks together. -/
structure Block.Alike (b b' : Block) : Prop where
  name : b.name = b'.name
  fields : List.Forall₂ Field.Alike b.fields b'.fields

/-- Two definitions of the same: alike blocks, or one definition that is no block. -/
inductive Definition.Alike : Definition → Definition → Prop where
  | object {b b' : Block} (h : b.Alike b') : Alike (.object b) (.object b')
  | extension {b b' : Block} (h : b.Alike b') : Alike (.extension b) (.extension b')
  | same {d : Definition} (h : d.block? = none) : Alike d d

/-- The object type of which a definition is a block. -/
def Definition.typeName? (d : Definition) : Option String := d.block?.map Block.name

/-- The definition is a schema block. -/
def Definition.isSchema : Definition → Bool
  | .schema _ _ => true
  | _ => false

/-- The same definitions in another order, in which the blocks of each object type and the schema blocks
keep theirs. -/
structure Document.Reorders (doc doc' : Document) : Prop where
  perm : doc.Perm doc'
  blocks : ∀ type, doc.filter (·.typeName? = some type) = doc'.filter (·.typeName? = some type)
  schemas : doc.filter Definition.isSchema = doc'.filter Definition.isSchema

/-- The documents declare the same, in an order that may differ wherever different names are declared. -/
structure Document.Rearranges (doc doc' : Document) : Prop where
  definitions : ∃ mid : Document, List.Forall₂ Definition.Alike doc mid ∧ mid.Reorders doc'
  directives : ∀ type, DirectivesAlike (doc.object type).directives (doc'.object type).directives

/-! ### What is looked up by name -/

/-- The first argument of a name is found among the arguments of that name. -/
theorem Directive.argument?_eq_find? (d : Directive) (name : String) :
    d.argument? name = (d.arguments.find? (·.1 = name)).map Prod.snd := by
  rw [argument?]
  induction d.arguments with
  | nil => rfl
  | cons a as ih =>
    obtain ⟨key, value⟩ := a
    rw [List.lookup_cons, List.find?_cons]
    by_cases h : key = name
    · simp [h]
    · simp [h, beq_false_of_ne (Ne.symm h), ih]

/-- Alike directives have the same argument of each name. -/
theorem Directive.Alike.argument?_eq {d d' : Directive} (h : d.Alike d') (name : String) :
    d.argument? name = d'.argument? name := by
  rw [argument?_eq_find?, argument?_eq_find?]
  rcases h.arguments.find? name with ⟨hnone, hnone'⟩ | ⟨a, a', ha, ha', rfl⟩
  · rw [hnone, hnone']
  · rw [ha, ha']

section

variable {ds ds' : List Directive} (h : DirectivesAlike ds ds')
include h

/-- Of a directive, alike lists have none, or alike ones first. -/
theorem DirectivesAlike.directive? (name : String) :
    directive? ds name = none ∧ directive? ds' name = none ∨
      ∃ d d', directive? ds name = some d ∧ directive? ds' name = some d' ∧ d.Alike d' :=
  AlikeByKey.find? h name

theorem DirectivesAlike.fieldBehaviour_eq : fieldBehaviour ds = fieldBehaviour ds' := by
  rw [fieldBehaviour, fieldBehaviour]
  rcases h.directive? "sql" with ⟨hnone, hnone'⟩ | ⟨d, d', hd, hd', halike⟩
  · rw [hnone, hnone']
  · simp only [hd, hd', halike.argument?_eq]

theorem DirectivesAlike.declaredShape_eq : declaredShape ds = declaredShape ds' := by
  rw [declaredShape, declaredShape]
  rcases h.directive? "returns" with ⟨hnone, hnone'⟩ | ⟨d, d', hd, hd', halike⟩
  · rw [hnone, hnone']
  · rw [hd, hd', Option.bind_eq_bind, Option.bind_some, Option.bind_some, halike.argument?_eq]

theorem DirectivesAlike.typeBehaviour_eq : typeBehaviour ds = typeBehaviour ds' := by
  have hcarries (name : String) : (Sdl.directive? ds name).isSome = (Sdl.directive? ds' name).isSome := by
    rcases h.directive? name with ⟨hnone, hnone'⟩ | ⟨d, d', hd, hd', -⟩
    · rw [hnone, hnone']
    · rw [hd, hd']
      rfl
  rw [typeBehaviour, typeBehaviour, hcarries, hcarries]

end

theorem Field.Alike.info_eq {f f' : Field} (h : f.Alike f') (task : Bool) :
    f.info task = f'.info task := by
  rw [info, info, h.name, h.arguments, h.type, h.directives.fieldBehaviour_eq,
    h.directives.declaredShape_eq]

theorem map_info_eq {bs bs' : List Block} (h : List.Forall₂ Block.Alike bs bs') (task : Bool) :
    (bs.flatMap fun b => b.fields.map (Field.info task)) =
      bs'.flatMap fun b => b.fields.map (Field.info task) := by
  have hfields {fs fs' : List Field} (h : List.Forall₂ Field.Alike fs fs') :
      fs.map (Field.info task) = fs'.map (Field.info task) := by
    induction h with
    | nil => rfl
    | cons hf _ ih => rw [List.map_cons, List.map_cons, hf.info_eq, ih]
  induction h with
  | nil => rfl
  | cons hb _ ih => rw [List.flatMap_cons, List.flatMap_cons, hfields hb.fields, ih]

/-! ### What rearranged documents have in common -/

theorem Definition.queryRoot?_eq_none {d : Definition} (h : d.isSchema = false) :
    d.queryRoot? = none := by
  cases d with
  | schema query mutation => cases h
  | object | extension | scalar | enumeration | other => rfl

theorem Definition.mutationRoot?_eq_none {d : Definition} (h : d.isSchema = false) :
    d.mutationRoot? = none := by
  cases d with
  | schema query mutation => cases h
  | object | extension | scalar | enumeration | other => rfl

namespace Definition.Alike

variable {d d' : Definition} (h : d.Alike d')
include h

theorem scalar?_eq : d.scalar? = d'.scalar? := by cases h <;> rfl

theorem enumeration?_eq : d.enumeration? = d'.enumeration? := by cases h <;> rfl

theorem queryRoot?_eq : d.queryRoot? = d'.queryRoot? := by cases h <;> rfl

theorem mutationRoot?_eq : d.mutationRoot? = d'.mutationRoot? := by cases h <;> rfl

theorem block?_rel : Option.Rel Block.Alike d.block? d'.block? := by
  cases h with
  | object hb => exact .some hb
  | extension hb => exact .some hb
  | same hnone =>
    rw [hnone]
    exact .none

end Definition.Alike

namespace Document

variable {doc mid doc' : Document}

theorem filterMap_eq_of_alike {α : Type} {f : Definition → Option α}
    (hf : ∀ d d', Definition.Alike d d' → f d = f d') (h : List.Forall₂ Definition.Alike doc mid) :
    doc.filterMap f = mid.filterMap f := by
  induction h with
  | nil => rfl
  | cons hd _ ih => rw [List.filterMap_cons, List.filterMap_cons, hf _ _ hd, ih]

theorem blocksOf_alike (h : List.Forall₂ Definition.Alike doc mid) (type : String) :
    List.Forall₂ Block.Alike (doc.blocksOf type) (mid.blocksOf type) := by
  refine List.rel_filter (fun b b' hb => ?_) (List.rel_filterMap (fun _ _ => (·.block?_rel)) h)
  change decide (b.name = type) = true ↔ decide (b'.name = type) = true
  rw [hb.name]

theorem blocksOf_eq_filterMap (doc : Document) (type : String) :
    doc.blocksOf type = (doc.filter (·.typeName? = some type)).filterMap Definition.block? := by
  rw [blocksOf, blocks]
  induction doc with
  | nil => rfl
  | cons d doc ih =>
    cases hd : d.block? with
    | none => simp [hd, Definition.typeName?, ih]
    | some b =>
      by_cases hb : b.name = type <;>
        simp [hd, hb, Definition.typeName?, ih]

theorem filterMap_filter_isSchema {f : Definition → Option String}
    (hf : ∀ d, d.isSchema = false → f d = none) (doc : Document) :
    (doc.filter Definition.isSchema).filterMap f = doc.filterMap f := by
  rw [List.filterMap_filter]
  congr 1
  funext d
  split
  · rfl
  · next h => exact (hf d (by simpa using h)).symm

theorem Reorders.roots_eq (h : mid.Reorders doc') : mid.roots = doc'.roots := by
  have hroot {f : Definition → Option String} (hf : ∀ d, d.isSchema = false → f d = none) :
      mid.filterMap f = doc'.filterMap f := by
    rw [← filterMap_filter_isSchema hf, h.schemas, filterMap_filter_isSchema hf]
  rw [Document.roots_eq, Document.roots_eq, hroot fun _ => Definition.queryRoot?_eq_none,
    hroot fun _ => Definition.mutationRoot?_eq_none]

namespace Rearranges

variable (h : doc.Rearranges doc')
include h

theorem roots_eq : doc.roots = doc'.roots := by
  obtain ⟨mid, halike, hreorders⟩ := h.definitions
  rw [← hreorders.roots_eq, Document.roots_eq, Document.roots_eq,
    filterMap_eq_of_alike (fun _ _ => (·.queryRoot?_eq)) halike,
    filterMap_eq_of_alike (fun _ _ => (·.mutationRoot?_eq)) halike]

/-- Each type has alike blocks, in the same order. -/
theorem blocksOf (type : String) :
    List.Forall₂ Block.Alike (doc.blocksOf type) (doc'.blocksOf type) := by
  obtain ⟨mid, halike, hreorders⟩ := h.definitions
  have hsame : mid.blocksOf type = doc'.blocksOf type := by
    rw [blocksOf_eq_filterMap, blocksOf_eq_filterMap, hreorders.blocks]
  exact hsame ▸ blocksOf_alike halike type

/-- Each owner has the same fields, in the same order. -/
theorem fieldsOf_eq (owner : FieldOwner) : doc.fieldsOf owner = doc'.fieldsOf owner := by
  by_cases hown : ∃ type, doc.roots.ownerOf type = owner
  · obtain ⟨type, rfl⟩ := hown
    rw [fieldsOf_ownerOf, map_info_eq (h.blocksOf type), h.roots_eq, fieldsOf_ownerOf]
  · rw [fieldsOf_eq_nil doc fun b _ hb => hown ⟨b.name, hb⟩,
      fieldsOf_eq_nil doc' fun b _ hb => hown ⟨b.name, h.roots_eq ▸ hb⟩]

/-- The documents say the same of each type. -/
theorem objectType_eq (type : String) : Metadata.objectType doc type = Metadata.objectType doc' type := by
  rw [Metadata.objectType, Metadata.objectType, TypeInfo.ofBlock, TypeInfo.ofBlock, h.fieldsOf_eq,
    (h.directives type).typeBehaviour_eq]
  rfl

/-- The same types are mentioned, in an order that may differ. -/
theorem objectNames_perm : doc.objectNames.Perm doc'.objectNames := by
  have hmem (doc : Document) (type : String) :
      type ∈ doc.objectNames ↔ 0 < (doc.blocksOf type).length := by
    rw [mem_objectNames, List.length_pos_iff_exists_mem]
    simp only [Document.blocksOf, List.mem_filter, decide_eq_true_eq]
  refine (List.perm_ext_iff_of_nodup doc.nodup_objectNames doc'.nodup_objectNames).mpr fun type => ?_
  rw [hmem, hmem, (h.blocksOf type).length_eq]

theorem ownTypes_perm : doc.ownTypes.Perm doc'.ownTypes := by
  rw [ownTypes, ownTypes, h.roots_eq]
  exact h.objectNames_perm.filter _

/-- What is listed of each definition is listed in an order that may differ. -/
theorem filterMap_perm {α : Type} {f : Definition → Option α}
    (hf : ∀ d d', Definition.Alike d d' → f d = f d') : (doc.filterMap f).Perm (doc'.filterMap f) := by
  obtain ⟨mid, halike, hreorders⟩ := h.definitions
  rw [filterMap_eq_of_alike hf halike]
  exact hreorders.perm.filterMap f

end Rearranges

end Document

end Sdl

namespace Metadata

open Sdl (Document)

/-- Extraction does not depend on the order of declarations. Documents that declare the same in an order
that may differ wherever different names are declared have the same queries, mutations and join tables, and
the same types and enumerations in an order that may differ. -/
theorem ofDocument_rearranged {doc doc' : Document} (h : doc.Rearranges doc') :
    (ofDocument doc).queries = (ofDocument doc').queries ∧
      (ofDocument doc).mutations = (ofDocument doc').mutations ∧
      (ofDocument doc).joinTables = (ofDocument doc').joinTables ∧
      (ofDocument doc).types.Perm (ofDocument doc').types ∧
      (ofDocument doc).enums.Perm (ofDocument doc').enums := by
  have hqueries : (ofDocument doc).queries = (ofDocument doc').queries := by
    rw [queries_ofDocument, queries_ofDocument, h.fieldsOf_eq]
  have hmutations : (ofDocument doc).mutations = (ofDocument doc').mutations := by
    rw [mutations_ofDocument, mutations_ofDocument, h.fieldsOf_eq]
  have htypes : (ofDocument doc).types.Perm (ofDocument doc').types := by
    rw [types_ofDocument, types_ofDocument,
      show objectType doc = objectType doc' from funext h.objectType_eq]
    exact (h.ownTypes_perm.map _).append ((h.filterMap_perm fun _ _ => (·.scalar?_eq)).map _)
  refine ⟨hqueries, hmutations, NameSet.ext fun name => ?_, htypes,
    h.filterMap_perm fun _ _ => (·.enumeration?_eq)⟩
  have hfields : (ofDocument doc).fields.Perm (ofDocument doc').fields := by
    rw [fields, fields, hqueries, hmutations]
    exact (htypes.flatMap_right _).append_left _
  simp only [mem_joinTables_ofDocument, hfields.mem_iff]

/-- A query whose field carries these directives. -/
def usersQuery (directives : List Sdl.Directive) : Sdl.Definition :=
  .object ⟨"Query", [], [⟨"users", [], .named "User", directives⟩]⟩

/-- The template of the field, as the first of two arguments or as the second. -/
def usersTemplate : String × Sdl.Literal := ("query", .string "SELECT * FROM $join_table(a)")

/-- A document, and another one that declares the same the other way round. -/
def usersFirst : Document :=
  [usersQuery [⟨"task", []⟩, ⟨"sql", [usersTemplate, ("cache", .bool true)]⟩],
    .object ⟨"User", [⟨"resolver", []⟩], []⟩, .extension ⟨"Post", [], []⟩]

def usersLast : Document :=
  [.extension ⟨"Post", [], []⟩, .object ⟨"User", [⟨"resolver", []⟩], []⟩,
    usersQuery [⟨"sql", [("cache", .bool true), usersTemplate]⟩, ⟨"task", []⟩]]

theorem usersFirst_rearranges_usersLast : usersFirst.Rearranges usersLast := by
  have harguments : AlikeByKey Prod.fst Eq [usersTemplate, ("cache", .bool true)]
      [("cache", .bool true), usersTemplate] := fun k => by
    by_cases hquery : k = "query"
    · subst hquery
      exact .cons rfl .nil
    by_cases hcache : k = "cache"
    · subst hcache
      exact .cons rfl .nil
    · simp [usersTemplate, Ne.symm hquery, Ne.symm hcache]
  have hdirectives : Sdl.DirectivesAlike
      [⟨"task", []⟩, ⟨"sql", [usersTemplate, ("cache", .bool true)]⟩]
      [⟨"sql", [("cache", .bool true), usersTemplate]⟩, ⟨"task", []⟩] := fun k => by
    by_cases hsql : k = "sql"
    · subst hsql
      exact .cons ⟨rfl, harguments⟩ .nil
    by_cases htask : k = "task"
    · subst htask
      exact .cons ⟨rfl, fun _ => .nil⟩ .nil
    · simp [Ne.symm hsql, Ne.symm htask]
  refine ⟨⟨usersLast.reverse, ?_, ?_⟩, fun type => ?_⟩
  · exact .cons (.object ⟨rfl, .cons ⟨rfl, rfl, rfl, hdirectives⟩ .nil⟩)
      (.cons (.object ⟨rfl, .nil⟩) (.cons (.extension ⟨rfl, .nil⟩) .nil))
  · refine ⟨List.reverse_perm _, fun type => ?_, rfl⟩
    by_cases hpost : "Post" = type
    · subst hpost
      rfl
    by_cases huser : "User" = type
    · subst huser
      rfl
    · simp [usersLast, usersQuery, List.filter_cons, Sdl.Definition.typeName?, Sdl.Definition.block?,
        hpost, huser, -Option.map_eq_some_iff]
  · by_cases huser : "User" = type
    · subst huser
      exact fun k => List.forall₂_same.mpr fun d _ => ⟨rfl, fun _ => List.forall₂_same.mpr fun _ _ => rfl⟩
    · have hnone (doc : Document) (hdoc : ∀ b ∈ doc.blocks, b.directives = [] ∨ b.name = "User") :
          (doc.object type).directives = [] := by
        refine List.flatMap_eq_nil_iff.mpr fun b hb => ?_
        obtain ⟨hmem, hname⟩ := List.mem_filter.mp hb
        exact (hdoc b hmem).resolve_right fun h => huser (h.symm.trans (of_decide_eq_true hname))
      rw [hnone usersFirst (by decide), hnone usersLast (by decide)]
      exact fun _ => .nil

/-- The same query with the same join table, and the same types in another order. -/
theorem ofDocument_rearranged_users :
    usersFirst.Rearranges usersLast ∧
      (ofDocument usersFirst).queries = (ofDocument usersLast).queries ∧
      (ofDocument usersFirst).joinTables = (ofDocument usersLast).joinTables ∧
      (ofDocument usersFirst).joinTables.names = ["a"] ∧
      (ofDocument usersFirst).types.Perm (ofDocument usersLast).types ∧
      (ofDocument usersFirst).types ≠ (ofDocument usersLast).types := by
  obtain ⟨hqueries, -, hjoinTables, htypes, -⟩ := ofDocument_rearranged usersFirst_rearranges_usersLast
  exact ⟨usersFirst_rearranges_usersLast, hqueries, hjoinTables, rfl, htypes, by decide⟩

end Metadata

end SchemaQuery
