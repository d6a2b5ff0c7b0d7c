import SchemaQuery.Proofs.Schema.Objects
import SchemaQuery.Proofs.Text.Word
import SchemaQuery.Sdl.Grammar

/-!
Names in documents. A name token holds a word, and readers only pass tokens on or drop them, so whatever is
read as a name is a word. What is followed here through the grammar is that the tokens that are left are as
good as those that were there, and what a reader gives on such tokens; of all names only those of object
types are kept track of.
-/

namespace SchemaQuery.Sdl

open Text

/-! ### Tokens -/

namespace Token

/-- The token holds a word, if it is a name. -/
def Proper : Token → Prop
  | .name text => isWord text.toList = true
  | _ => True

theorem proper_of_next? {s r : List Char} {t : Token} (h : next? s = some (t, r)) : t.Proper := by
  unfold next? at h
  split at h
  · cases h
    trivial
  · obtain ⟨_, -, h⟩ := Option.map_eq_some_iff.mp h
    cases h
    trivial
  · obtain ⟨_, -, h⟩ := Option.map_eq_some_iff.mp h
    cases h
    trivial
  · split at h
    · cases h
      trivial
    · split at h
      · obtain ⟨⟨w, r'⟩, hword, h⟩ := Option.map_eq_some_iff.mp h
        cases h
        rw [Proper, String.toList_ofList]
        exact (word?_eq_some_iff.mp hword).2.1
      · split at h
        · dsimp only at h
          split at h
          · cases h
            trivial
          · cases h
        · cases h
  · cases h

theorem proper_of_allFrom {fuel : Nat} {s : List Char} {tokens : List Token}
    (h : allFrom fuel s = some tokens) : ∀ t ∈ tokens, t.Proper := by
  fun_induction allFrom generalizing tokens with
  | case1 => cases h; simp
  | case2 => cases h
  | case3 fuel s _ ih =>
    obtain ⟨⟨t, r⟩, ht, h⟩ := Option.bind_eq_some_iff.mp h
    obtain ⟨rest, hrest, h⟩ := Option.bind_eq_some_iff.mp h
    cases h
    exact List.forall_mem_cons.mpr ⟨proper_of_next? ht, ih _ hrest⟩

/-- The tokens of a text are proper. -/
theorem proper_of_all? {s : String} {tokens : List Token} (h : all? s = some tokens) :
    ∀ t ∈ tokens, t.Proper := by
  obtain ⟨tokens', htokens, h⟩ := Option.bind_eq_some_iff.mp h
  split at h
  · cases h
    exact proper_of_allFrom htokens
  · cases h

end Token

/-! ### Readers -/

/-- The name of an object type that a definition defines or extends is a word. -/
def Definition.Proper (d : Definition) : Prop := ∀ b, d.block? = some b → isWord b.name.toList = true

namespace Reader

variable {α β : Type} {P : α → Prop} {Q : β → Prop}

/-- Of proper tokens the reader leaves proper ones, and gives only what meets a condition. -/
def Yields (P : α → Prop) (r : Reader α) : Prop :=
  ∀ ts a ts', (∀ t ∈ ts, t.Proper) → r ts = some (a, ts') → P a ∧ ∀ t ∈ ts', t.Proper

/-- Of proper tokens the reader leaves proper ones. -/
def Keeps (r : Reader α) : Prop := r.Yields fun _ => True

theorem Yields.keeps {r : Reader α} (h : r.Yields P) : r.Keeps :=
  fun ts a ts' hts hr => ⟨trivial, (h ts a ts' hts hr).2⟩

theorem yields_pure {a : α} (h : P a) : Yields P (pure a) := by
  rintro ts _ _ hts ⟨⟩
  exact ⟨h, hts⟩

theorem yields_failure : Yields P (failure : Reader α) := by
  rintro ts a ts' - h
  cases h

/-- What a reader yields, the reader behind it goes by. -/
theorem Yields.bind {r : Reader α} {f : α → Reader β} (hr : r.Yields P)
    (hf : ∀ a, P a → (f a).Yields Q) : (r >>= f).Yields Q := by
  intro ts b ts'' hts h
  obtain ⟨⟨a, ts'⟩, hra, hfa⟩ := Option.bind_eq_some_iff.mp h
  obtain ⟨ha, hts'⟩ := hr ts a ts' hts hra
  exact hf a ha ts' b ts'' hts' hfa

theorem Keeps.bind {r : Reader α} {f : α → Reader β} (hr : r.Keeps) (hf : ∀ a, (f a).Yields Q) :
    (r >>= f).Yields Q :=
  Yields.bind hr fun a _ => hf a

theorem Yields.ite {c : Prop} [Decidable c] {r r' : Reader α} (hr : r.Yields P) (hr' : r'.Yields P) :
    (if c then r else r').Yields P := by
  split
  · exact hr
  · exact hr'

theorem keeps_pure (a : α) : Keeps (pure a : Reader α) := yields_pure trivial

/-! ### Single tokens -/

theorem keeps_peek : Keeps peek := by
  rintro ts _ _ hts ⟨⟩
  exact ⟨trivial, hts⟩

theorem keeps_expect (token : Token) : Keeps (expect token) := by
  intro ts _ ts' hts h
  cases ts with
  | nil => cases h
  | cons t ts =>
    rw [expect] at h
    split at h
    · cases h
      exact ⟨trivial, (List.forall_mem_cons.mp hts).2⟩
    · cases h

theorem keeps_accept (token : Token) : Keeps (accept token) := by
  intro ts _ ts' hts h
  cases ts with
  | nil =>
    cases h
    exact ⟨trivial, hts⟩
  | cons t ts =>
    rw [accept] at h
    split at h
    · cases h
      exact ⟨trivial, (List.forall_mem_cons.mp hts).2⟩
    · cases h
      exact ⟨trivial, hts⟩

theorem keeps_description : Keeps description := by
  intro ts _ ts' hts h
  unfold description at h
  split at h <;> cases h
  · exact ⟨trivial, (List.forall_mem_cons.mp hts).2⟩
  · exact ⟨trivial, hts⟩

theorem yields_name : name.Yields fun s => isWord s.toList = true := by
  intro ts s ts' hts h
  unfold name at h
  split at h
  · cases h
    exact List.forall_mem_cons.mp hts
  · cases h

/-! ### Lists -/

section Lists

variable {item : Reader α} (hitem : item.Keeps) (token : Token)
include hitem

theorem keeps_itemsUntil (fuel : Nat) : Keeps (itemsUntil token item fuel) := by
  induction fuel with
  | zero => exact yields_failure
  | succ fuel ih =>
    exact (keeps_accept token).bind fun _ => Yields.ite (keeps_pure _)
      (hitem.bind fun _ => ih.bind fun _ => keeps_pure _)

theorem keeps_someUntil (fuel : Nat) : Keeps (someUntil token item fuel) :=
  hitem.bind fun _ => (keeps_itemsUntil hitem token fuel).bind fun _ => keeps_pure _

theorem keeps_itemsBehind (fuel : Nat) : Keeps (itemsBehind token item fuel) := by
  induction fuel with
  | zero => exact yields_failure
  | succ fuel ih =>
    exact (keeps_accept token).bind fun _ => Yields.ite
      (hitem.bind fun _ => ih.bind fun _ => keeps_pure _) (keeps_pure _)

theorem keeps_separated (fuel : Nat) : Keeps (separated token item fuel) :=
  (keeps_accept token).bind fun _ => hitem.bind fun _ =>
    (keeps_itemsBehind hitem token fuel).bind fun _ => keeps_pure _

/-- An optional list in brackets. -/
theorem keeps_optional (opening : Token) (fuel : Nat) (absent : List α) :
    Keeps (do if ← accept opening then someUntil token item fuel else return absent) :=
  (keeps_accept opening).bind fun _ => Yields.ite (keeps_someUntil hitem token fuel) (keeps_pure _)

end Lists

/-! ### Values and directives -/

variable (fuel : Nat)

/-- Values, the items of lists and the fields of objects take turns, with less fuel at each. -/
theorem keeps_value_values_valueFields (allowVariables : Bool) :
    Keeps (value allowVariables fuel) ∧ Keeps (values allowVariables fuel) ∧
      Keeps (valueFields allowVariables fuel) := by
  induction fuel with
  | zero => exact ⟨yields_failure, yields_failure, yields_failure⟩
  | succ fuel ih =>
    obtain ⟨hvalue, hvalues, hfields⟩ := ih
    refine ⟨keeps_peek.bind fun token => ?_, (keeps_accept _).bind fun _ => Yields.ite (keeps_pure _) ?_,
      (keeps_accept _).bind fun _ => Yields.ite (keeps_pure _) ?_⟩
    · split
      · exact (keeps_expect _).bind fun _ => keeps_pure _
      · exact (keeps_expect _).bind fun _ => keeps_pure _
      · exact (keeps_expect _).bind fun _ => keeps_pure _
      · exact Yields.ite ((keeps_expect _).bind fun _ => yields_name.keeps.bind fun _ => keeps_pure _)
          yields_failure
      · exact (keeps_expect _).bind fun _ => hvalues.bind fun _ => keeps_pure _
      · exact (keeps_expect _).bind fun _ => hfields.bind fun _ => keeps_pure _
      · exact yields_failure
    · exact hvalue.bind fun _ => hvalues.bind fun _ => keeps_pure _
    · exact yields_name.keeps.bind fun _ => (keeps_expect _).bind fun _ =>
        hvalue.bind fun _ => hfields.bind fun _ => keeps_pure _

theorem keeps_value (allowVariables : Bool) : Keeps (value allowVariables fuel) :=
  (keeps_value_values_valueFields fuel allowVariables).1

theorem keeps_directives : Keeps (directives fuel) := by
  have hargument : Keeps (directiveArgument fuel) :=
    yields_name.keeps.bind fun _ => (keeps_expect _).bind fun _ =>
      (keeps_value fuel true).bind fun _ => keeps_pure _
  have hdirective : Keeps (directive fuel) :=
    yields_name.keeps.bind fun _ => (keeps_accept _).bind fun _ =>
      Yields.ite ((keeps_someUntil hargument _ fuel).bind fun _ => keeps_pure _) (keeps_pure _)
  exact keeps_itemsBehind hdirective _ fuel

/-! ### Types and fields -/

theorem keeps_typeRef : Keeps (typeRef fuel) := by
  induction fuel with
  | zero => exact yields_failure
  | succ fuel ih =>
    have hmark (inner : TypeRef) :
        Keeps (do return if ← accept (.mark '!') then .required inner else inner) :=
      (keeps_accept _).bind fun _ => keeps_pure _
    have hnamed : Keeps (TypeRef.named <$> name) := yields_name.keeps.bind fun _ => keeps_pure _
    exact (keeps_accept _).bind fun _ => Yields.ite
      (ih.bind fun _ => (keeps_expect _).bind fun _ => (keeps_pure _).bind hmark) (hnamed.bind hmark)

theorem keeps_inputValue : Keeps (inputValue fuel) := by
  have hend (name : String) (type : TypeRef) :
      Keeps (do let _ ← directives fuel; return Argument.mk name type) :=
    (keeps_directives fuel).bind fun _ => keeps_pure _
  exact keeps_description.bind fun _ => yields_name.keeps.bind fun name => (keeps_expect _).bind fun _ =>
    (keeps_typeRef fuel).bind fun type => (keeps_accept _).bind fun _ =>
      Yields.ite ((keeps_value fuel false).bind fun _ => hend name type) (hend name type)

theorem keeps_arguments : Keeps (arguments fuel) :=
  keeps_optional (keeps_inputValue fuel) _ _ fuel _

theorem keeps_fields : Keeps (fields fuel) := by
  have hfield : Keeps (field fuel) :=
    keeps_description.bind fun _ => yields_name.keeps.bind fun _ => (keeps_arguments fuel).bind fun _ =>
      (keeps_expect _).bind fun _ => (keeps_typeRef fuel).bind fun _ =>
        (keeps_directives fuel).bind fun _ => keeps_pure _
  exact keeps_optional hfield _ _ fuel _

theorem keeps_interfaces : Keeps (interfaces fuel) :=
  (keeps_accept _).bind fun _ => Yields.ite (keeps_separated yields_name.keeps _ fuel) (keeps_pure _)

/-! ### Definitions -/

theorem yields_schemaBlock : (schemaBlock fuel).Yields Definition.Proper := by
  have hroot : Keeps root :=
    yields_name.keeps.bind fun _ => (keeps_expect _).bind fun _ =>
      yields_name.keeps.bind fun _ => keeps_pure _
  refine (keeps_directives fuel).bind fun _ => (keeps_expect _).bind fun _ =>
    (keeps_itemsUntil hroot _ fuel).bind fun roots => ?_
  dsimp only
  split
  · exact yields_pure nofun
  · exact yields_failure

/-- An object type is named by a word, as a definition or as an extension. -/
theorem yields_objectType {wrap : Block → Definition}
    (hwrap : ∀ b, isWord b.name.toList = true → (wrap b).Proper) :
    (objectType wrap fuel).Yields (·.definition.Proper) :=
  yields_name.bind fun name hname => (keeps_interfaces fuel).bind fun _ =>
    (keeps_directives fuel).bind fun _ => (keeps_fields fuel).bind fun _ =>
      yields_pure (hwrap ⟨name, _, _⟩ hname)

theorem yields_scalarType : (scalarType fuel).Yields (·.definition.Proper) :=
  yields_name.keeps.bind fun _ => (keeps_directives fuel).bind fun _ => yields_pure nofun

theorem yields_interfaceType : (interfaceType fuel).Yields (·.definition.Proper) :=
  yields_name.keeps.bind fun _ => (keeps_interfaces fuel).bind fun _ => (keeps_directives fuel).bind fun _ =>
    (keeps_fields fuel).bind fun _ => yields_pure nofun

theorem yields_unionType : (unionType fuel).Yields (·.definition.Proper) :=
  yields_name.keeps.bind fun _ => (keeps_directives fuel).bind fun _ => (keeps_accept _).bind fun _ =>
    Yields.ite ((keeps_separated yields_name.keeps _ fuel).bind fun _ => yields_pure nofun)
      ((keeps_pure _).bind fun _ => yields_pure nofun)

theorem yields_enumType : (enumType fuel).Yields (·.definition.Proper) := by
  have hmember : Keeps (enumMember fuel) :=
    keeps_description.bind fun _ => yields_name.keeps.bind fun _ =>
      (keeps_directives fuel).bind fun _ => keeps_pure _
  exact yields_name.keeps.bind fun _ => (keeps_directives fuel).bind fun _ => (keeps_accept _).bind fun _ =>
    Yields.ite ((keeps_someUntil hmember _ fuel).bind fun _ => yields_pure nofun)
      ((keeps_pure _).bind fun _ => yields_pure nofun)

theorem yields_inputType : (inputType fuel).Yields (·.definition.Proper) :=
  yields_name.keeps.bind fun _ => (keeps_directives fuel).bind fun _ => (keeps_accept _).bind fun _ =>
    Yields.ite ((keeps_someUntil (keeps_inputValue fuel) _ fuel).bind fun _ => yields_pure nofun)
      ((keeps_pure _).bind fun _ => yields_pure nofun)

theorem yields_typePart {wrap : Block → Definition}
    (hwrap : ∀ b, isWord b.name.toList = true → (wrap b).Proper) (keyword : String) :
    (typePart keyword wrap fuel).Yields (·.definition.Proper) := by
  unfold typePart
  split
  · exact yields_scalarType fuel
  · exact yields_objectType fuel hwrap
  · exact yields_interfaceType fuel
  · exact yields_unionType fuel
  · exact yields_enumType fuel
  · exact yields_inputType fuel
  · exact yields_failure

theorem yields_directiveDefinition : (directiveDefinition fuel).Yields Definition.Proper := by
  have hlocation : Keeps location :=
    yields_name.keeps.bind fun _ => Yields.ite (keeps_pure _) yields_failure
  have hend : (pure Definition.other : Reader Definition).Yields Definition.Proper := yields_pure nofun
  refine (keeps_expect _).bind fun _ => yields_name.keeps.bind fun _ => (keeps_arguments fuel).bind fun _ =>
    (keeps_accept _).bind fun _ => (keeps_expect _).bind fun _ => keeps_peek.bind fun token => ?_
  dsimp only
  split
  · exact (keeps_separated hlocation _ fuel).bind fun _ => hend
  · exact (keeps_separated hlocation _ fuel).bind fun _ => hend
  · exact hend

theorem yields_definition : (definition fuel).Yields Definition.Proper := by
  refine keeps_peek.bind fun token => ?_
  split
  · exact yields_name.keeps.bind fun _ => yields_schemaBlock fuel
  · refine yields_name.keeps.bind fun _ => yields_name.keeps.bind fun keyword =>
      Yields.bind (yields_typePart fuel ?_ keyword) fun part hpart => Yields.ite ?_ yields_failure
    · rintro b hb _ ⟨⟩
      exact hb
    · refine yields_pure ?_
      unfold extensionOf
      split
      · next heq => exact heq ▸ hpart
      · exact nofun
  · refine keeps_description.bind fun _ => yields_name.keeps.bind fun keyword =>
      Yields.ite (yields_directiveDefinition fuel) ?_
    refine Yields.bind (yields_typePart fuel ?_ keyword) fun part hpart => yields_pure hpart
    rintro b hb _ ⟨⟩
    exact hb

theorem yields_definitions : (definitions fuel).Yields fun doc => ∀ d ∈ doc, d.Proper := by
  induction fuel with
  | zero => exact yields_failure
  | succ fuel ih =>
    refine Yields.bind (yields_definition fuel) fun first hfirst => keeps_peek.bind fun token => ?_
    split
    · exact yields_pure (by simpa using hfirst)
    · exact ih.bind fun rest hrest => yields_pure (List.forall_mem_cons.mpr ⟨hfirst, hrest⟩)

end Reader

/-- In a document that a text is, object types are named by words. -/
theorem isWord_of_read? {s : String} {doc : Document} (h : read? s = some doc) {b : Block}
    (hb : b ∈ doc.blocks) : isWord b.name.toList = true := by
  obtain ⟨tokens, htokens, h⟩ := Option.bind_eq_some_iff.mp h
  obtain ⟨⟨doc', rest⟩, hdoc, h⟩ := Option.bind_eq_some_iff.mp h
  cases h
  obtain ⟨d, hd, hblock⟩ := List.mem_filterMap.mp hb
  exact (Reader.yields_definitions _ _ _ _ (Token.proper_of_all? htokens) hdoc).1 d hd b hblock

end SchemaQuery.Sdl
