import SchemaQuery.Proofs.Json.Value
import SchemaQuery.Wire.Config
import SchemaQuery.Wire.Schema

/-!
Decoders that invert encodings. A decoder inverts a value of JSON if it reads the value's node as what the
value was made from wherever there is room for the nested containers of the value, and refuses it where
there is not. Decoders that are put together from others invert what is put together in the same way: the
fields of a record are looked up by their names, wherever they stand, and every one of them has to fit.
-/

namespace SchemaQuery

open Json (Node)

namespace Decoder

variable {α β : Type} {d : Decoder α} {v : Json} {a : α}

/-- The decoder reads the node of a value as `a`, wherever there is room for the value. -/
def Inverts (d : Decoder α) (v : Json) (a : α) : Prop :=
  ∀ room, d room v.node = if v.depth ≤ room then some a else none

/-! ### Values without fields -/

theorem inverts_json (hv : v.Legible) (ho : v.Ordered) : Inverts json v v := fun room =>
  Json.ofNode?_node v room hv ho

theorem inverts_string (s : String) : Inverts string (.string s) s := fun _ => rfl

theorem inverts_bool (b : Bool) : Inverts bool (.bool b) b := fun _ => rfl

theorem inverts_word (n : UInt64) : Inverts word (.ofWord n) n := by
  intro room
  have hvalue : (Json.Integer.ofNat n.toNat).value = n.toNat :=
    congrArg Int.ofNat (Nat.mod_eq_of_lt n.toNat_lt_size)
  simp only [Json.ofWord, Json.nat, Json.node, word, Json.Integer.integer?_numeral, Option.bind_some,
    hvalue, Int.toNat_natCast, UInt64.ofNat_toNat]
  rfl

theorem inverts_choice {options : List (String × α)} {name : String}
    (h : options.lookup name = some a) : Inverts (choice options) (.string name) a := fun _ => h

theorem Inverts.map (h : Inverts d v a) (f : α → β) :
    Inverts (fun room node => (d room node).map f) v (f a) := by
  intro room
  refine (congrArg (Option.map f) (h room)).trans ?_
  split <;> rfl

theorem node_ne_null (hv : v ≠ .null) : v.node ≠ .null := by
  cases v with
  | null => exact absurd rfl hv
  | bool | int | float | string | array | object => nofun

theorem nullable_of_ne_null {node : Node} (h : node ≠ .null) (d : Decoder α) (room : Nat) :
    nullable d room node = (d room node).map some := by
  cases node with
  | null => exact absurd rfl h
  | bool | number | string | array | object => rfl

theorem inverts_nullable (h : Inverts d v a) (hv : v ≠ .null) : Inverts (nullable d) v (some a) := by
  intro room
  rw [nullable_of_ne_null (node_ne_null hv)]
  exact h.map some room

theorem inverts_ofOption {f : α → Json} {o : Option α} (h : ∀ a ∈ o, Inverts d (f a) a)
    (hf : ∀ a, f a ≠ .null) : Inverts (nullable d) (.ofOption f o) o := by
  cases o with
  | none => exact fun _ => rfl
  | some a => exact inverts_nullable (h a rfl) (hf a)

theorem inverts_ofOption_string (text : Option String) :
    Inverts (nullable string) (.ofOption .string text) text :=
  inverts_ofOption (fun s _ => inverts_string s) fun _ => nofun

/-! ### Lists and dictionaries -/

theorem nodes_eq_map (items : List Json) : Json.nodes items = items.map Json.node := by
  induction items with
  | nil => rfl
  | cons item items ih => rw [Json.nodes, ih, List.map_cons]

theorem mapM_eq_ite {f : β → Option α} {g : α → β} {p : α → Prop} [DecidablePred p] {as : List α}
    (h : ∀ a ∈ as, f (g a) = if p a then some a else none) :
    (as.map g).mapM f = if ∀ a ∈ as, p a then some as else none := by
  induction as with
  | nil => simp
  | cons a as ih =>
    have ih := ih fun b hb => h b (List.mem_cons_of_mem _ hb)
    rw [List.map_cons, List.mapM_cons, h a List.mem_cons_self, ih]
    by_cases ha : p a
    · by_cases has : ∀ a ∈ as, p a
      · rw [if_pos ha, if_pos has, if_pos (List.forall_mem_cons.mpr ⟨ha, has⟩)]
        rfl
      · rw [if_pos ha, if_neg has, if_neg fun hall => has (List.forall_mem_cons.mp hall).2]
        rfl
    · rw [if_neg ha, if_neg fun hall => ha (List.forall_mem_cons.mp hall).1]
      rfl

theorem inverts_list {f : α → Json} {as : List α} (h : ∀ a ∈ as, Inverts d (f a) a) :
    Inverts (list d) (.array (as.map f)) as := by
  intro room
  rw [Json.node, nodes_eq_map, list, Json.depth]
  cases room with
  | zero => rfl
  | succ room =>
    have hitems : ((as.map f).map Json.node).mapM (d room) =
        if ∀ a ∈ as, (f a).depth ≤ room then some as else none := by
      rw [List.map_map]
      exact mapM_eq_ite fun a ha => h a ha room
    rw [if_neg (Nat.succ_ne_zero room), Nat.add_sub_cancel, hitems]
    simp only [Nat.add_le_add_iff_right, Json.depthItems_le_iff, List.forall_mem_map]

theorem members_node (fields : List (String × Json)) :
    members (Json.members fields) = some (fields.map fun e => (e.1, e.2.node)) := by
  induction fields with
  | nil => rfl
  | cons e fields ih =>
    obtain ⟨name, item⟩ := e
    rw [members] at ih ⊢
    rw [Json.members, List.mapM_cons, ih]
    rfl

theorem inverts_dictionary {f : α → Json} {dict : Dictionary α}
    (h : ∀ e ∈ dict.entries, Inverts d (f e.2) e.2) :
    Inverts (dictionary d) (.ofDictionary (dict.map f)) dict := by
  intro room
  rw [Json.ofDictionary, Json.node, dictionary, Json.depth]
  cases room with
  | zero => rfl
  | succ room =>
    have hentries : ((dict.map f).entries.map fun e => (e.1, e.2.node)).mapM
        (fun e => (d room e.2).map (e.1, ·)) =
          if ∀ e ∈ dict.entries, (f e.2).depth ≤ room then some dict.entries else none := by
      rw [Dictionary.map, List.map_map]
      refine mapM_eq_ite fun e he => ?_
      refine (congrArg (Option.map (e.1, ·)) (h e he room)).trans ?_
      split <;> rfl
    have hdepth : Json.depthFields (dict.map f).entries ≤ room ↔
        ∀ e ∈ dict.entries, (f e.2).depth ≤ room := by
      rw [Json.depthFields_le_iff, Dictionary.map, List.forall_mem_map]
    rw [if_neg (Nat.succ_ne_zero room), Nat.add_sub_cancel, members_node]
    simp only [Option.bind_eq_bind, Option.bind_some, Nat.add_le_add_iff_right, hdepth]
    rw [hentries]
    split
    · exact congrArg some dict.ofList_entries
    · rfl

/-! ### Sets of names -/

theorem ofNames_names (s : NameSet) : NameSet.ofNames s.names = s := by
  have hentries : s.names.map (fun name => (name, ())) = s.entries := by
    rw [NameSet.names, Dictionary.keys, List.map_map]
    exact List.map_id s.entries
  have hlist : Dictionary.ofList (s.names.map fun name => (name, ())) = NameSet.ofNames s.names := by
    rw [Dictionary.ofList, List.foldl_map]
    rfl
  rw [← hlist, hentries, s.ofList_entries]

theorem inverts_nameSet (s : NameSet) : Inverts nameSet (NameSet.toJson s) s := by
  have hnames : Inverts (list string) (.array (s.names.map .string)) s.names :=
    inverts_list fun name _ => inverts_string name
  have hset := hnames.map NameSet.ofNames
  rwa [ofNames_names] at hset

/-! ### Records -/

/-- The slot of a name where the fields of a record are given by their values. -/
def Slot.ofFields (fields : List (String × Json)) (name : String) : Slot :=
  match valueOf? name fields with
  | some v => .given v.node
  | none => .absent

theorem lookup_map_node (name : String) (fields : List (String × Json)) :
    (fields.map fun e => (e.1, e.2.node)).lookup name = (valueOf? name fields).map Json.node := by
  induction fields with
  | nil => rfl
  | cons e fields ih =>
    obtain ⟨k, v⟩ := e
    rw [List.map_cons, valueOf?_cons, List.lookup_cons]
    by_cases hk : k = name
    · subst hk
      simp
    · have hname : (name == k) = false := by simpa using Ne.symm hk
      rw [hname, if_neg hk]
      exact ih

variable {fields : List (String × Json)}

theorem slot_ofFields (h : (fields.map Prod.fst).Nodup) :
    Slot.ofMembers ((Dictionary.ofList fields).entries.map fun e => (e.1, e.2.node)) =
      Slot.ofFields fields := by
  funext name
  have hvalue : valueOf? name (Dictionary.ofList fields).entries = valueOf? name fields :=
    Dictionary.get?_ofList h name
  rw [Slot.ofMembers, lookup_map_node, hvalue, Slot.ofFields]
  cases valueOf? name fields <;> rfl

theorem onceEach_ofFields (names : List String) (fields : List (String × Json)) :
    onceEach names ((Dictionary.ofList fields).entries.map fun e => (e.1, e.2.node)) = true := by
  refine List.all_eq_true.mpr fun name _ => decide_eq_true ?_
  have hcount : ((Dictionary.ofList fields).entries.map fun e => (e.1, e.2.node)).countP (·.1 = name) =
      (Dictionary.ofList fields).keys.count name := by
    rw [Dictionary.keys, List.count, List.countP_map, List.countP_map]
    rfl
  rw [hcount, List.Nodup.count (Dictionary.nodup_keys _)]
  split <;> omega

/-- There is room for a record if there is room in it for each of its values. -/
theorem depth_ofFields_le_iff (h : (fields.map Prod.fst).Nodup) {room : Nat} :
    (Json.ofFields fields).depth ≤ room + 1 ↔ ∀ e ∈ fields, e.2.depth ≤ room := by
  rw [Json.ofFields, Json.depth, Nat.add_le_add_iff_right, Json.depthFields_le_iff]
  exact forall_congr' fun e => by rw [Dictionary.mem_entries_ofList h]

/-- A record is inverted if it is made again from its fields wherever there is room for all of them. -/
theorem inverts_record (h : (fields.map Prod.fst).Nodup) {names : List String}
    {build : Nat → (String → Slot) → Option α}
    (hbuild : ∀ room, build room (Slot.ofFields fields) =
      if ∀ e ∈ fields, e.2.depth ≤ room then some a else none) :
    Inverts (record names build) (.ofFields fields) a := by
  intro room
  cases room with
  | zero => rfl
  | succ room =>
    simp only [depth_ofFields_le_iff h]
    rw [Json.ofFields, Json.node, record, if_neg (Nat.succ_ne_zero room), Nat.add_sub_cancel,
      members_node]
    simp only [Option.bind_eq_bind, Option.bind_some, onceEach_ofFields, if_true, slot_ofFields h, hbuild]

theorem bind_eq_ite {p q : Prop} [Decidable p] [Decidable q] {o : Option α} {f : α → Option β} {b : β}
    (ho : o = if p then some a else none) (hf : f a = if q then some b else none) :
    (o >>= f) = if p ∧ q then some b else none := by
  rw [ho]
  by_cases hp : p
  · rw [if_pos hp]
    refine hf.trans ?_
    simp only [hp, true_and]
  · rw [if_neg hp, if_neg fun hpq => hp hpq.1]
    rfl

theorem member_ofFields {name : String} (h : Inverts d v a) (hfield : valueOf? name fields = some v)
    (room : Nat) :
    member d room (Slot.ofFields fields name) = if v.depth ≤ room then some a else none := by
  rw [Slot.ofFields, hfield]
  exact h room

theorem memberOrNull_ofFields {name : String} {o : Option α} (h : Inverts (nullable d) v o)
    (hfield : valueOf? name fields = some v) (room : Nat) :
    memberOrNull d room (Slot.ofFields fields name) = if v.depth ≤ room then some o else none := by
  rw [Slot.ofFields, hfield]
  exact h room

theorem memberOr_ofFields {name : String} (h : Inverts d v a) (standard : α)
    (hfield : valueOf? name fields = some v) (room : Nat) :
    memberOr d standard room (Slot.ofFields fields name) = if v.depth ≤ room then some a else none := by
  rw [Slot.ofFields, hfield]
  exact h room

theorem pure_eq_ite (a : α) : (pure a : Option α) = if True then some a else none := rfl

/-! ### Tagged choices -/

section Tagged

variable {tag name : String} {build : Nat → String → Node → Option α}

theorem inverts_tagged_alone (hbuild : ∀ room, build room name (.object []) = some a) :
    Inverts (tagged tag build) (.ofFields [(tag, .string name)]) a := by
  intro room
  cases room with
  | zero => rfl
  | succ room =>
    have hroom : (Json.ofFields [(tag, .string name)]).depth ≤ room + 1 :=
      (depth_ofFields_le_iff (by simp)).mpr (by simp [Json.depth])
    have hnode : (Json.ofFields [(tag, .string name)]).node =
        .object [(some tag, .string (some name))] := rfl
    rw [if_pos hroom, hnode, tagged]
    simpa [members, text?] using hbuild (room + 1)

/-- A choice whose content is one field, which may stand before the name or behind it. -/
theorem inverts_tagged {field : String} (hfield : field ≠ tag) (hv : v.Legible) (ho : v.Ordered)
    (hbuild : Inverts (fun room => build room name) (.ofFields [(field, v)]) a) :
    Inverts (tagged tag build) (.ofFields [(tag, .string name), (field, v)]) a := by
  intro room
  cases room with
  | zero => rfl
  | succ room =>
    have hentries : (Dictionary.ofList [(tag, Json.string name), (field, v)]).entries =
        if field < tag then [(field, v), (tag, .string name)] else [(tag, .string name), (field, v)] := by
      change Dictionary.insertEntry field v [(tag, .string name)] = _
      rw [Dictionary.insertEntry, if_neg hfield]
      rfl
    have hread : (json room v.node).isSome = true ↔ v.depth ≤ room := by
      rw [inverts_json hv ho room]
      split <;> simp [*]
    have hobject (fields : List (String × Json)) (h : fields = [(field, v), (tag, .string name)] ∨
        fields = [(tag, .string name), (field, v)]) :
        tagged tag build (room + 1) (.object (Json.members fields)) =
          if v.depth ≤ room then build (room + 1) name (.object [(some field, v.node)]) else none := by
      rcases h with rfl | rfl <;>
        simp [tagged, Json.members, Json.node, members, text?, hfield, hread]
    have hroom : (Json.ofFields [(tag, .string name), (field, v)]).depth ≤ room + 1 ↔ v.depth ≤ room := by
      rw [depth_ofFields_le_iff (by simpa using Ne.symm hfield)]
      simp [Json.depth]
    have hinner : (Json.ofFields [(field, v)]).depth ≤ room + 1 ↔ v.depth ≤ room := by
      rw [depth_ofFields_le_iff (by simp)]
      simp
    have hcontent : build (room + 1) name (.object [(some field, v.node)]) =
        if v.depth ≤ room then some a else none := by
      have hbuild := hbuild (room + 1)
      simp only [hinner] at hbuild
      exact hbuild
    simp only [hroom]
    rw [Json.ofFields, Json.node, hentries, hobject _ (by split <;> simp), hcontent]
    split <;> rfl

end Tagged

end Decoder

end SchemaQuery
