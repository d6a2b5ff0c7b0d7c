import SchemaQuery.Proofs.Text.Marked
import SchemaQuery.Schema.Extraction

/-!
What extraction keeps of a document. Putting the blocks of a type together loses no field and leaves one
type of each name, so each root is read once and nothing that was read is replaced. Every field of every
block is then a field of the metadata, and the names of join tables are those that these fields mention,
whatever the order of the blocks is.
-/

namespace SchemaQuery

open Sdl (Block Document Definition Roots mergeBlock readFields)

/-! ### Types of several blocks -/

namespace Sdl

variable {types : List Block} {b : Block}

theorem names_mergeBlock (types : List Block) (b : Block) :
    (mergeBlock types b).map Block.name =
      if b.name ∈ types.map Block.name then types.map Block.name
      else types.map Block.name ++ [b.name] := by
  induction types with
  | nil => rfl
  | cons t ts ih =>
    rw [mergeBlock]
    by_cases h : t.name = b.name
    · simp [h]
    · rw [if_neg h, List.map_cons, ih]
      by_cases hmem : b.name ∈ ts.map Block.name
      · rw [if_pos hmem, List.map_cons, if_pos (List.mem_cons_of_mem _ hmem)]
      · have hnot : b.name ∉ (t :: ts).map Block.name := by
          rw [List.map_cons, List.mem_cons, not_or]
          exact ⟨Ne.symm h, hmem⟩
        rw [if_neg hmem, if_neg hnot, List.map_cons, List.cons_append]

theorem nodup_mergeBlock (h : (types.map Block.name).Nodup) :
    ((mergeBlock types b).map Block.name).Nodup := by
  rw [names_mergeBlock]
  split
  · exact h
  · next hnew =>
    refine List.nodup_append.mpr ⟨h, by simp, ?_⟩
    intro n hn n' hn' heq
    rw [List.mem_singleton.mp hn'] at heq
    exact hnew (heq ▸ hn)

/-- A type of several blocks has the fields of all of them. -/
theorem exists_field_mergeBlock {name : String} {f : Field} :
    (∃ t ∈ mergeBlock types b, t.name = name ∧ f ∈ t.fields) ↔
      (∃ t ∈ types, t.name = name ∧ f ∈ t.fields) ∨ b.name = name ∧ f ∈ b.fields := by
  induction types with
  | nil => simp [mergeBlock]
  | cons t ts ih =>
    rw [mergeBlock]
    split
    · next h =>
      simp only [List.exists_mem_cons_iff, List.mem_append, h, and_or_left]
      exact or_right_comm
    · rw [List.exists_mem_cons_iff, ih, List.exists_mem_cons_iff, or_assoc]

theorem nodup_objects (doc : Document) : (doc.objects.map Block.name).Nodup := by
  have go (bs types : List Block) (h : (types.map Block.name).Nodup) :
      ((bs.foldl mergeBlock types).map Block.name).Nodup := by
    induction bs generalizing types with
    | nil => exact h
    | cons b bs ih => exact ih _ (nodup_mergeBlock h)
  exact go _ [] List.nodup_nil

/-- The object types of a document have the fields of its blocks. -/
theorem exists_field_objects {doc : Document} {name : String} {f : Field} :
    (∃ t ∈ doc.objects, t.name = name ∧ f ∈ t.fields) ↔
      ∃ b ∈ doc.filterMap Definition.block?, b.name = name ∧ f ∈ b.fields := by
  have go (bs types : List Block) :
      (∃ t ∈ bs.foldl mergeBlock types, t.name = name ∧ f ∈ t.fields) ↔
        (∃ t ∈ types, t.name = name ∧ f ∈ t.fields) ∨ ∃ b ∈ bs, b.name = name ∧ f ∈ b.fields := by
    induction bs generalizing types with
    | nil => simp
    | cons b bs ih =>
      rw [List.foldl_cons, ih, exists_field_mergeBlock, List.exists_mem_cons_iff, or_assoc]
  simpa [Document.objects] using go (doc.filterMap Definition.block?) []

/-- What the fields of a block say, which are tasks if the block is one of the query root. -/
def Block.infos (b : Block) (roots : Roots) : List FieldInfo :=
  b.fields.map (Field.info (b.name = roots.query))

/-- Reading fields gives what each of them says, and adds the names that they mention. -/
theorem readFields_eq (task : Bool) (fields : List Field) (known : NameSet) :
    readFields task fields known = (fields.map (Field.info task),
      known.addAll ((fields.map (Field.info task)).flatMap FieldInfo.tableNames)) := by
  induction fields generalizing known with
  | nil => rfl
  | cons f fields ih =>
    rw [readFields]
    simp only [ih, List.map_cons, List.flatMap_cons, NameSet.addAll_append]

end Sdl

/-! ### What the metadata holds -/

namespace Metadata

variable {roots : Roots} {m : Metadata} {b : Block}

theorem joinTables_readType (roots : Roots) (m : Metadata) (b : Block) :
    (m.readType roots b).joinTables =
      m.joinTables.addAll ((b.infos roots).flatMap FieldInfo.tableNames) := by
  rw [readType, Block.infos]
  split
  · next h => simp [Sdl.readFields_eq, h]
  · next h =>
    simp only [Sdl.readFields_eq, h, decide_false]
    split <;> rfl

/-- Reading a type adds what its fields say, where a root that it is has not been read before. -/
theorem mem_fields_readType {info : FieldInfo} (hquery : b.name = roots.query → m.queries = [])
    (hmutation : b.name = roots.mutation → m.mutations = []) :
    info ∈ (m.readType roots b).fields ↔ info ∈ m.fields ∨ info ∈ b.infos roots := by
  rw [readType, Block.infos, fields, fields]
  simp only [Sdl.readFields_eq, List.mem_append]
  split
  · next h =>
    rw [hquery h, h, decide_eq_true rfl]
    simp only [List.not_mem_nil, false_or]
    rw [or_assoc, or_comm]
  · next h =>
    rw [decide_eq_false h]
    split
    · next h' =>
      simp only [hmutation h', List.not_mem_nil, or_false]
      rw [or_right_comm]
    · simp only [List.flatMap_append, List.mem_append, List.flatMap_singleton, TypeInfo.ofBlock,
        or_assoc]

theorem queries_readType (h : b.name ≠ roots.query) : (m.readType roots b).queries = m.queries := by
  rw [readType, if_neg h]
  dsimp only
  split <;> rfl

theorem mutations_readType (h : b.name ≠ roots.mutation) :
    (m.readType roots b).mutations = m.mutations := by
  rw [readType]
  dsimp only
  rw [if_neg h]
  split <;> rfl

theorem mem_joinTables_foldl {bs : List Block} {name : String} :
    name ∈ (bs.foldl (readType roots) m).joinTables.names ↔
      name ∈ m.joinTables.names ∨ ∃ b ∈ bs, ∃ info ∈ b.infos roots, name ∈ info.tableNames := by
  induction bs generalizing m with
  | nil => simp
  | cons b bs ih =>
    rw [List.foldl_cons, ih, joinTables_readType, NameSet.mem_names_addAll, List.mem_flatMap,
      List.exists_mem_cons_iff, or_assoc]

/-- Reading types of different names adds what all their fields say, where no root among them has been
read before. -/
theorem mem_fields_foldl {bs : List Block} {info : FieldInfo} (hnodup : (bs.map Block.name).Nodup)
    (hquery : roots.query ∈ bs.map Block.name → m.queries = [])
    (hmutation : roots.mutation ∈ bs.map Block.name → m.mutations = []) :
    info ∈ (bs.foldl (readType roots) m).fields ↔
      info ∈ m.fields ∨ ∃ b ∈ bs, info ∈ b.infos roots := by
  induction bs generalizing m with
  | nil => simp
  | cons b bs ih =>
    rw [List.map_cons, List.nodup_cons] at hnodup
    obtain ⟨hnew, hnodup⟩ := hnodup
    simp only [List.map_cons, List.mem_cons] at hquery hmutation
    rw [List.foldl_cons, ih hnodup, mem_fields_readType (fun h => hquery (.inl h.symm))
      (fun h => hmutation (.inl h.symm)), List.exists_mem_cons_iff, or_assoc]
    -- A root among the types behind is another type than the one that was read.
    · intro hmem
      rw [queries_readType fun h => hnew (h ▸ hmem)]
      exact hquery (.inr hmem)
    · intro hmem
      rw [mutations_readType fun h => hnew (h ▸ hmem)]
      exact hmutation (.inr hmem)

/-- The fields of the metadata are those of the object types. -/
theorem mem_fields_objects {doc : Document} {info : FieldInfo} :
    info ∈ (ofDocument doc).fields ↔ ∃ b ∈ doc.objects, info ∈ b.infos doc.roots := by
  have hscalars : ((doc.filterMap Definition.scalar?).map TypeInfo.ofScalar).flatMap TypeInfo.fields =
      [] := by
    rw [List.flatMap_map, List.flatMap_eq_nil_iff]
    intro name _
    rfl
  have hfields : (ofDocument doc).fields =
      (doc.objects.foldl (readType doc.roots) ⟨[], [], [], [], ∅⟩).fields := by
    rw [ofDocument, fields, fields, List.flatMap_append, hscalars, List.append_nil]
  rw [hfields, mem_fields_foldl (Sdl.nodup_objects doc) (fun _ => rfl) (fun _ => rfl)]
  exact or_iff_right (List.not_mem_nil)

/-- The fields of the metadata are those of all blocks of the document. -/
theorem mem_fields_ofDocument {doc : Document} {info : FieldInfo} :
    info ∈ (ofDocument doc).fields ↔
      ∃ b ∈ doc.filterMap Definition.block?, info ∈ b.infos doc.roots := by
  have byName (bs : List Block) : (∃ b ∈ bs, info ∈ b.infos doc.roots) ↔
      ∃ (name : String) (f : Sdl.Field), f.info (name = doc.roots.query) = info ∧
        ∃ b ∈ bs, b.name = name ∧ f ∈ b.fields := by
    constructor
    · rintro ⟨b, hb, hinfo⟩
      obtain ⟨f, hf, heq⟩ := List.mem_map.mp hinfo
      exact ⟨b.name, f, heq, b, hb, rfl, hf⟩
    · rintro ⟨_, f, heq, b, hb, rfl, hf⟩
      exact ⟨b, hb, List.mem_map.mpr ⟨f, hf, heq⟩⟩
  rw [mem_fields_objects, byName, byName]
  simp only [Sdl.exists_field_objects]

theorem mem_joinTables_ofDocument {doc : Document} {name : String} :
    name ∈ (ofDocument doc).joinTables.names ↔
      ∃ info ∈ (ofDocument doc).fields, name ∈ info.tableNames := by
  have hread : name ∈ (ofDocument doc).joinTables.names ↔
      ∃ b ∈ doc.objects, ∃ info ∈ b.infos doc.roots, name ∈ info.tableNames :=
    mem_joinTables_foldl.trans (or_iff_right List.not_mem_nil)
  simp only [hread, mem_fields_objects]
  constructor
  · rintro ⟨b, hb, info, hinfo, hname⟩
    exact ⟨info, ⟨b, hb, hinfo⟩, hname⟩
  · rintro ⟨info, ⟨b, hb, hinfo⟩, hname⟩
    exact ⟨b, hb, info, hinfo, hname⟩

end Metadata

end SchemaQuery
