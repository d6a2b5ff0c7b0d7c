import SchemaQuery.Proofs.Schema.Placement
import SchemaQuery.Proofs.Schema.Preparation
import SchemaQuery.Proofs.Sdl.Names

/-!
Operations by their printed names. An operation is printed as its owner, a point and its field, and the owner
is printed as its name, a root by its standard name. Read back, the text up to the first point is taken for
the owner again, and the standard names always for the roots. So printing is undone for every owner but one:
an ordinary type that has the standard name of a root, which there is only where the schema calls the roots
otherwise. Its operations are printed like those of the root, and looking them up finds one of the root, or
none.
-/

namespace SchemaQuery

open Sdl (Document)

/-! ### Owners and their texts -/

namespace FieldOwner

/-- The owner that a text is taken for. -/
def named (text : String) : FieldOwner :=
  if text = query.text then .query else if text = mutation.text then .mutation else .type text

/-- The owner is a type that goes by the standard name of a root. -/
def PassesForRoot (owner : FieldOwner) : Prop := owner = .type query.text ∨ owner = .type mutation.text

theorem text_named (text : String) : (named text).text = text := by
  unfold named
  split
  · next h => exact h.symm
  · split
    · next h => exact h.symm
    · rfl

/-- What an owner is printed as is taken for it, unless it passes for a root. -/
theorem named_text_iff {owner : FieldOwner} : named owner.text = owner ↔ ¬ owner.PassesForRoot := by
  cases owner with
  | query | mutation => exact iff_of_true rfl (by simp [PassesForRoot])
  | type name =>
    rw [PassesForRoot, type.injEq, type.injEq, not_or]
    change named name = .type name ↔ _
    unfold named
    split
    · next h => simp [h]
    · next hquery =>
      split
      · next h => simp [h]
      · next hmutation => exact iff_of_true rfl ⟨hquery, hmutation⟩

end FieldOwner

/-! ### Looking up -/

namespace OperationSet

variable {s : OperationSet} {op : Operation}

theorem of_get?_eq_some {owner : FieldOwner} {field : String} (h : s.get? owner field = some op) :
    op.owner = owner ∧ op.field = field := by
  simpa using List.find?_some h

theorem get?_eq_some_of_unique (hop : op ∈ s.operations)
    (hunique : ∀ other ∈ s.operations, other.owner = op.owner → other.field = op.field → other = op) :
    s.get? op.owner op.field = some op := by
  have hsome : (s.get? op.owner op.field).isSome = true :=
    List.find?_isSome.mpr ⟨op, hop, decide_eq_true ⟨rfl, rfl⟩⟩
  obtain ⟨other, hother⟩ := Option.isSome_iff_exists.mp hsome
  obtain ⟨howner, hfield⟩ := of_get?_eq_some hother
  rw [hother, hunique other (List.mem_of_find?_eq_some hother) howner hfield]

/-- A text with a point names an owner before the first point and a field behind it. -/
theorem find?_of_point {name : String} {owner field : List Char} (hname : name.toList = owner ++ '.' :: field)
    (howner : '.' ∉ owner) :
    s.find? name = s.get? (.named (String.ofList owner)) (String.ofList field) := by
  have hbefore : ∀ c ∈ owner, decide (c ≠ '.') = true := fun c hc =>
    decide_eq_true fun h => howner (h ▸ hc)
  have htake : name.toList.takeWhile (· ≠ '.') = owner := by
    rw [hname, List.takeWhile_append_of_pos hbefore, List.takeWhile_cons_of_neg (by decide),
      List.append_nil]
  have hdrop : name.toList.dropWhile (· ≠ '.') = '.' :: field := by
    rw [hname, List.dropWhile_append_of_pos hbefore, List.dropWhile_cons_of_neg (by decide)]
  have hroot (root : FieldOwner) : owner = root.text.toList ↔ String.ofList owner = root.text :=
    ⟨fun h => by rw [h, String.ofList_toList], fun h => by rw [← h, String.toList_ofList]⟩
  unfold find? FieldOwner.named
  dsimp only
  rw [htake, hdrop]
  simp only [hroot]
  split
  · rfl
  · split <;> rfl

/-- The printed name of an operation finds it exactly if its owner has no point and passes for no root, where
no other operation has its owner and its field. -/
theorem find?_printed (hop : op ∈ s.operations)
    (hunique : ∀ other ∈ s.operations, other.owner = op.owner → other.field = op.field → other = op) :
    s.find? (op.owner.text ++ "." ++ op.field) = some op ↔
      '.' ∉ op.owner.text.toList ∧ ¬ op.owner.PassesForRoot := by
  have hprinted : (op.owner.text ++ "." ++ op.field).toList =
      op.owner.text.toList ++ '.' :: op.field.toList := by simp
  by_cases hpoint : '.' ∈ op.owner.text.toList
  · -- The text is cut at a point of the owner, so whatever is found has a shorter owner.
    refine iff_of_false (fun h => ?_) fun h => h.1 hpoint
    obtain ⟨before, behind, hsplit, hbefore⟩ := List.eq_append_cons_of_mem hpoint
    have hcut : (op.owner.text ++ "." ++ op.field).toList =
        before ++ '.' :: (behind ++ '.' :: op.field.toList) := by
      rw [hprinted, hsplit, List.append_assoc, List.cons_append]
    rw [find?_of_point hcut hbefore] at h
    have hshort : op.owner.text.toList = before := by
      rw [(of_get?_eq_some h).1, FieldOwner.text_named, String.toList_ofList]
    exact hbefore (hshort ▸ hpoint)
  · rw [find?_of_point hprinted hpoint, String.ofList_toList, String.ofList_toList,
      ← FieldOwner.named_text_iff]
    constructor
    · intro h
      exact ⟨hpoint, (of_get?_eq_some h).1.symm⟩
    · rintro ⟨-, hnamed⟩
      rw [hnamed, get?_eq_some_of_unique hop hunique]

end OperationSet

/-! ### Compiled documents -/

namespace Sdl

/-- An owner to which a block of a document that was read belongs has no point in its text. -/
theorem point_notMem_text_ownerOf {text : String} {doc : Document} (h : read? text = some doc) {b : Block}
    (hb : b ∈ doc.blocks) : '.' ∉ (doc.roots.ownerOf b.name).text.toList := by
  rcases doc.roots.ownerOf_cases b.name with hroot | hroot | htype
  · rw [hroot]
    decide
  · rw [hroot]
    decide
  · rw [htype]
    exact fun hpoint => Bool.false_ne_true (Text.isWordPart_of_mem (isWord_of_read? h hb) hpoint)

theorem not_passesForRoot_ownerOf (name : String) :
    ¬ (Roots.ownerOf ⟨"Query", "Mutation"⟩ name).PassesForRoot := by
  have hroot {type : String} (h : Roots.ownerOf ⟨"Query", "Mutation"⟩ name = .type type) :
      type ≠ "Query" ∧ type ≠ "Mutation" := by
    unfold Roots.ownerOf at h
    split at h
    · cases h
    · next hquery =>
      split at h
      · cases h
      · next hmutation =>
        cases h
        exact ⟨hquery, hmutation⟩
  rintro (h | h)
  · exact (hroot h).1 rfl
  · exact (hroot h).2 rfl

end Sdl

namespace CompiledSchema

variable {doc : Document} {config : Config} {s : CompiledSchema} {op : Operation}

/-- Every operation belongs to the owner of one of the blocks. -/
theorem exists_block_of_mem (hs : ofMetadata (.ofDocument doc) config = .ok s)
    (hop : op ∈ s.set.operations) : ∃ b ∈ doc.blocks, op.owner = doc.roots.ownerOf b.name := by
  rw [ofMetadata_eq, bind_eq_ok_iff] at hs
  obtain ⟨tables, -, hs⟩ := hs
  obtain ⟨ops, hops, rfl⟩ := map_eq_ok_iff.mp hs
  obtain ⟨x, hx, hprepared⟩ := exists_of_mem_mapM_eq_ok hops hop
  obtain ⟨prepared, -, rfl⟩ := TemplateField.prepare_eq_ok_iff.mp hprepared
  rw [← OperationSet.filterMap_ownedFields, List.mem_filterMap] at hx
  obtain ⟨p, hp, hx⟩ := hx
  obtain ⟨template, -, rfl⟩ := Option.map_eq_some_iff.mp hx
  obtain ⟨b, hb, hp⟩ := List.mem_flatMap.mp ((Metadata.ownedFields_perm doc).subset hp)
  obtain ⟨f, -, rfl⟩ := List.mem_map.mp hp
  exact ⟨b, hb, rfl⟩

/-- The printed name of an operation finds it exactly if its owner has no point and does not pass for a
root, where no other operation has its owner and its field. In a schema that is read from a text no owner
has a point, and where the roots go by their standard names none passes for one. -/
theorem find?_printed_iff (hs : ofMetadata (.ofDocument doc) config = .ok s) (hop : op ∈ s.set.operations)
    (hunique : ∀ other ∈ s.set.operations, other.owner = op.owner → other.field = op.field → other = op) :
    (s.set.find? (op.owner.text ++ "." ++ op.field) = some op ↔
      '.' ∉ op.owner.text.toList ∧ ¬ op.owner.PassesForRoot) ∧
    (∀ text, Sdl.read? text = some doc → '.' ∉ op.owner.text.toList) ∧
    (doc.roots = ⟨"Query", "Mutation"⟩ → ¬ op.owner.PassesForRoot) := by
  obtain ⟨b, hb, howner⟩ := exists_block_of_mem hs hop
  refine ⟨OperationSet.find?_printed hop hunique, fun text htext => ?_, fun hroots => ?_⟩
  · rw [howner]
    exact Sdl.point_notMem_text_ownerOf htext hb
  · rw [howner, hroots]
    exact Sdl.not_passesForRoot_ownerOf b.name

/-- A schema with another query root, and an ordinary type that goes by the standard name of one. -/
def renamedRoot : Document :=
  [.schema (some "Root") none,
    .object ⟨"Root", [], [⟨"users", [], .named "Int", [⟨"sql", [("query", .string "SELECT 1")]⟩]⟩]⟩,
    .object ⟨"Query", [], [⟨"posts", [], .named "Int", [⟨"sql", [("query", .string "SELECT 2")]⟩]⟩]⟩]

/-- Its operations, of which no two have one owner. -/
theorem compile_renamedRoot : ∃ s, ofMetadata (.ofDocument renamedRoot) default = .ok s ∧
    s.set.operations = [⟨.query, "users", ⟨"SELECT 1", .read⟩, true, "Int", false, none⟩,
      ⟨.type "Query", "posts", ⟨"SELECT 2", .read⟩, false, "Int", false, none⟩] :=
  ⟨_, rfl, rfl⟩

/-- The operation of the root is found by the standard name of the root. -/
theorem find?_printed_root : ∃ s op, ofMetadata (.ofDocument renamedRoot) default = .ok s ∧
    op ∈ s.set.operations ∧
    (∀ other ∈ s.set.operations, other.owner = op.owner → other.field = op.field → other = op) ∧
    op.owner.text ++ "." ++ op.field = "Query.users" ∧
    s.set.find? (op.owner.text ++ "." ++ op.field) = some op := by
  obtain ⟨s, hs, hops⟩ := compile_renamedRoot
  have hop : ⟨.query, "users", ⟨"SELECT 1", .read⟩, true, "Int", false, none⟩ ∈ s.set.operations := by
    rw [hops]
    exact List.mem_cons_self
  have hunique : ∀ other ∈ s.set.operations, other.owner = .query → other.field = "users" →
      other = ⟨.query, "users", ⟨"SELECT 1", .read⟩, true, "Int", false, none⟩ := by
    rw [hops]
    decide
  exact ⟨s, _, hs, hop, hunique, rfl, (find?_printed_iff hs hop hunique).1.mpr ⟨by decide, nofun⟩⟩

/-- The operation of the type is printed like one of the root, and not found. -/
theorem find?_printed_eq_none : ∃ s op, ofMetadata (.ofDocument renamedRoot) default = .ok s ∧
    op ∈ s.set.operations ∧
    (∀ other ∈ s.set.operations, other.owner = op.owner → other.field = op.field → other = op) ∧
    op.owner.text ++ "." ++ op.field = "Query.posts" ∧
    s.set.find? (op.owner.text ++ "." ++ op.field) = none := by
  refine ⟨_, ⟨.type "Query", "posts", ⟨"SELECT 2", .read⟩, false, "Int", false, none⟩, rfl,
    List.mem_cons_of_mem _ List.mem_cons_self, ?_, rfl, rfl⟩
  decide

end CompiledSchema

end SchemaQuery
