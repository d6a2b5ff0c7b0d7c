import SchemaQuery.Config.File
import SchemaQuery.Proofs.Collection.Dictionary
import SchemaQuery.Proofs.Toml.Document

/-!
A configuration is read back from the file it was saved to. The text is made of lines, each of which is one
statement; the statements build up two tables, one of them with a table of texts in it; and the tables are
read as the configuration. All texts can be saved, as keys and as values. Numbers have to fit 64 bits with
a sign: where one does not, nothing is saved, and the file is what it was.
-/

namespace SchemaQuery

open Toml (Node Entries Statement Draft Reads ReadsAs)

namespace Toml

/-! ### Building tables up -/

theorem Entries.alter_of_notMem {es : Entries} {key : String} (h : key ∉ es.map Prod.fst)
    (f : Option Node → Option Node) :
    es.alter key f = (f none).map fun node => es ++ [(key, node)] := by
  induction es with
  | nil => rfl
  | cons e es ih =>
    obtain ⟨k, node⟩ := e
    rw [List.map_cons, List.mem_cons, not_or] at h
    rw [alter, if_neg (Ne.symm h.1), ih h.2, Option.map_map]
    rfl

theorem Entries.add_of_notMem {es : Entries} {key : String} (h : key ∉ es.map Prod.fst) (node : Node) :
    es.add key node = some (es ++ [(key, node)]) :=
  alter_of_notMem h _

end Toml

namespace Config

variable {r : List Char} {rest : List Statement}

/-- Whether a number fits 64 bits with a sign. -/
def Fits (n : UInt64) : Prop := n.toNat < 9223372036854775808

theorem fits_iff {n : UInt64} : Fits n ↔ (n.toNat : Int) ≤ Int64.maxValue.toInt := by
  have hmax : Int64.maxValue.toInt = 9223372036854775807 := by decide
  unfold Fits
  omega

/-! ### The lines of a file -/

theorem reads_headerLine {path : List String} (hne : path ≠ []) (hpath : path.length ≤ Toml.mostParts)
    (h : Reads r rest) : Reads (headerLine path ++ r) (.header path :: rest) := by
  have hfront : Toml.Fronted ('[' :: (List.intercalate ['.'] (path.map Toml.keyText) ++ [']'])) :=
    ⟨'[', _, rfl, by decide⟩
  have hline := Toml.statement?_header hne hpath r
  have hread := h.line hfront (by simpa using hline)
  simpa [headerLine] using hread

theorem reads_entryLine {value : List Char} {node : Node} (hvalue : ReadsAs value node) (key : String)
    (h : Reads r rest) : Reads (entryLine key value ++ r) (.entry [key] node :: rest) := by
  have hfront : Toml.Fronted (Toml.keyText key ++ ' ' :: '=' :: ' ' :: value) :=
    (Toml.fronted_keyText key).append _
  have hline := Toml.statement?_entry hvalue key r
  have hread := h.line hfront (by simpa using hline)
  simpa [entryLine] using hread

theorem reads_textLine (key text : String) (h : Reads r rest) :
    Reads (textLine key text ++ r) (.entry [key] (.text text) :: rest) := by
  have hvalue := Toml.readsAs_quoted text.toList
  rw [String.ofList_toList] at hvalue
  exact reads_entryLine hvalue key h

theorem reads_numberLine {n : UInt64} (hn : Fits n) (key : String) (h : Reads r rest) :
    Reads (numberLine key n ++ r) (.entry [key] (.integer (Int64.ofInt n.toNat)) :: rest) :=
  reads_entryLine (Toml.readsAs_digits (fits_iff.mp hn)) key h

theorem reads_textLines (es : List (String × String)) (h : Reads r rest) :
    Reads (es.flatMap (fun (key, text) => textLine key text) ++ r)
      (es.map (fun (key, text) => .entry [key] (.text text)) ++ rest) := by
  induction es with
  | nil => exact h
  | cons e es ih =>
    rw [List.flatMap_cons, List.map_cons, List.append_assoc]
    exact reads_textLine e.1 e.2 ih

/-! ### The statements of a configuration -/

/-- A number as a node. -/
def numberNode (n : UInt64) : Node := .integer (Int64.ofInt n.toNat)

/-- The entries of the naming of join tables, in their table. -/
def namingEntries (naming : TableNaming) : Entries :=
  [("prefix", .text naming.leading),
    ("overrides", .table .header (naming.overrides.entries.map fun (key, text) => (key, .text text)))]

/-- The entries of the keeping of tasks, in their table. -/
def taskEntries (c : TaskConfig) : Entries :=
  (c.maxAgeSecs.toList.map fun n => ("max_age_secs", numberNode n)) ++
    [("sweep_interval_secs", numberNode c.sweepIntervalSecs),
      ("engine_timeout_secs", numberNode c.engineTimeoutSecs)]

/-- The entries of a configuration. -/
def entries (c : Config) : Entries :=
  [("join_tables", .table .header (namingEntries c.joinTables)),
    ("tasks", .table .header (taskEntries c.tasks))]

/-- The statements of a configuration. -/
def statements (c : Config) : List Statement :=
  .header ["join_tables"] :: .entry ["prefix"] (.text c.joinTables.leading) ::
    .header ["join_tables", "overrides"] ::
    (c.joinTables.overrides.entries.map (fun (key, text) => .entry [key] (.text text)) ++
      .header ["tasks"] :: (taskEntries c.tasks).map fun (key, node) => .entry [key] node)

theorem reads_taskLines {c : Config} (hc : ∀ n ∈ c.numbers, Fits n) :
    Reads (taskLines c.tasks)
      (.header ["tasks"] :: (taskEntries c.tasks).map fun (key, node) => .entry [key] node) := by
  have hsweep := hc c.tasks.sweepIntervalSecs (by simp [numbers])
  have htimeout := hc c.tasks.engineTimeoutSecs (by simp [numbers])
  have hlast := reads_numberLine hsweep "sweep_interval_secs"
    (reads_numberLine htimeout "engine_timeout_secs" Toml.reads_nil)
  rw [List.append_nil] at hlast
  unfold taskLines taskEntries
  rw [List.append_assoc, List.append_assoc]
  refine reads_headerLine (by simp) (by decide) ?_
  cases hage : c.tasks.maxAgeSecs with
  | none => exact hlast
  | some n => exact reads_numberLine (hc n (by simp [numbers, hage])) "max_age_secs" hlast

/-- The text of a configuration is read as its statements, if all numbers fit. -/
theorem reads_text {c : Config} (hc : ∀ n ∈ c.numbers, Fits n) :
    Reads (namingLines c.joinTables ++ ['\n'] ++ taskLines c.tasks) c.statements := by
  have htasks := reads_taskLines hc
  have htexts := reads_textLines c.joinTables.overrides.entries htasks.blank
  have hoverrides : Reads (headerLine ["join_tables", "overrides"] ++ _) _ :=
    reads_headerLine (by simp) (by decide) htexts
  have hnaming : Reads (headerLine ["join_tables"] ++ _) _ :=
    reads_headerLine (by simp) (by decide) (reads_textLine "prefix" c.joinTables.leading hoverrides.blank)
  simpa [namingLines, statements] using hnaming

/-! ### The tables of a configuration -/

/-- The draft while the names of join tables are filled in. -/
def namingDraft (leading : String) (es : Entries) : Draft :=
  ⟨[("join_tables", .table .header [("prefix", .text leading), ("overrides", .table .header es)])],
    ["join_tables", "overrides"]⟩

theorem namingDraft_add {es : Entries} {key : String} (h : key ∉ es.map Prod.fst) (leading text : String) :
    (namingDraft leading es).add (.entry [key] (.text text)) =
      some (namingDraft leading (es ++ [(key, .text text)])) := by
  have hput : es.put [key] (.text text) = some (es ++ [(key, .text text)]) :=
    Entries.add_of_notMem h _
  simp [namingDraft, Draft.add, Entries.within, Entries.alter, hput]

theorem foldlM_add_texts (leading : String) (es : Entries) (texts : List (String × String))
    (h : (es.map Prod.fst ++ texts.map Prod.fst).Nodup) :
    (texts.map fun (key, text) => (.entry [key] (.text text) : Statement)).foldlM Draft.add
      (namingDraft leading es) =
        some (namingDraft leading (es ++ texts.map fun (key, text) => (key, .text text))) := by
  induction texts generalizing es with
  | nil => simp
  | cons e texts ih =>
    obtain ⟨key, text⟩ := e
    have hkey : key ∉ es.map Prod.fst := fun hmem =>
      (List.nodup_append.mp h).2.2 key hmem key (by simp) rfl
    have ih := ih (es ++ [(key, .text text)]) (by simpa using h)
    rw [List.append_assoc] at ih
    rw [List.map_cons, List.foldlM_cons, namingDraft_add hkey]
    exact ih

/-- The statements of a configuration build up its tables. -/
theorem ofStatements?_statements (c : Config) : Entries.ofStatements? c.statements = some c.entries := by
  have hstart : [Statement.header ["join_tables"], .entry ["prefix"] (.text c.joinTables.leading),
      .header ["join_tables", "overrides"]].foldlM Draft.add ⟨[], []⟩ =
        some (namingDraft c.joinTables.leading []) := by rfl
  have htexts := foldlM_add_texts c.joinTables.leading [] c.joinTables.overrides.entries
    c.joinTables.overrides.nodup_keys
  have hstatements : c.statements = [Statement.header ["join_tables"],
      .entry ["prefix"] (.text c.joinTables.leading), .header ["join_tables", "overrides"]] ++
        (c.joinTables.overrides.entries.map (fun (key, text) => .entry [key] (.text text)) ++
          .header ["tasks"] :: (taskEntries c.tasks).map fun (key, node) => .entry [key] node) := rfl
  rw [Entries.ofStatements?, hstatements, List.foldlM_append, hstart]
  simp only [Option.bind_eq_bind, Option.bind_some]
  rw [List.foldlM_append, htexts]
  simp only [Option.bind_eq_bind, Option.bind_some]
  unfold taskEntries entries taskEntries
  cases c.tasks.maxAgeSecs with
  | none => rfl
  | some n => rfl

/-! ### The configuration that is read -/

theorem word?_numberNode {n : UInt64} (hn : Fits n) : (numberNode n).word? = some n := by
  have hint : (Int64.ofInt n.toNat).toInt = n.toNat :=
    Int64.toInt_ofInt_of_le (Int.le_trans (by decide) (Int.natCast_nonneg _)) (by unfold Fits at hn; omega)
  have hnonneg : 0 ≤ Int64.ofInt n.toNat := by
    rw [Int64.le_iff_toInt_le, hint]
    exact Int.natCast_nonneg _
  have hword : (Int64.ofInt n.toNat).toUInt64 = n := by
    rw [Int64.ofInt_eq_ofNat, Int64.toUInt64_ofNat', UInt64.ofNat_toNat]
  rw [numberNode, Node.word?, if_pos hnonneg, hword]

theorem ofNode?_namingEntries (naming : TableNaming) :
    TableNaming.ofNode? (.table .header (namingEntries naming)) = some naming := by
  have hpairs (es : List (String × String)) : (es.map fun (key, text) => (key, Node.text text)).mapM
      (fun (key, node) => node.text?.map fun text => (key, text)) = some es := by
    induction es with
    | nil => rfl
    | cons e es ih =>
      rw [List.map_cons, List.mapM_cons, ih]
      rfl
  have htexts : (Node.table .header (naming.overrides.entries.map fun (key, text) =>
      (key, .text text))).texts? = some naming.overrides := by
    simp only [Node.texts?, Node.entries?, Option.bind_eq_bind, Option.bind_some]
    rw [hpairs]
    exact congrArg some naming.overrides.ofList_entries
  simp [TableNaming.ofNode?, Node.slots?, Node.entries?, namingEntries, Toml.Slot.ofEntries,
    Toml.Slot.orElse, htexts, Node.text?]

/-- The keeping of tasks is read back from its table, if all numbers fit. -/
theorem ofNode?_taskEntries {c : TaskConfig} (hage : ∀ n ∈ c.maxAgeSecs, Fits n)
    (hsweep : Fits c.sweepIntervalSecs) (htimeout : Fits c.engineTimeoutSecs) :
    TaskConfig.ofNode? (.table .header (taskEntries c)) = some c := by
  have hage' : (Toml.Slot.ofEntries (taskEntries c) "max_age_secs").optional Node.word? =
      some c.maxAgeSecs := by
    obtain ⟨maxAge, sweep, timeout⟩ := c
    cases maxAge with
    | none => rfl
    | some n => exact congrArg (Option.map some) (word?_numberNode (hage n rfl))
  have hsweep' : (Toml.Slot.ofEntries (taskEntries c) "sweep_interval_secs").orElse Node.word?
      TaskConfig.standard.sweepIntervalSecs = some c.sweepIntervalSecs := by
    obtain ⟨maxAge, sweep, timeout⟩ := c
    cases maxAge <;> exact word?_numberNode hsweep
  have htimeout' : (Toml.Slot.ofEntries (taskEntries c) "engine_timeout_secs").orElse Node.word?
      TaskConfig.standard.engineTimeoutSecs = some c.engineTimeoutSecs := by
    obtain ⟨maxAge, sweep, timeout⟩ := c
    cases maxAge <;> exact word?_numberNode htimeout
  simp only [TaskConfig.ofNode?, Node.slots?, Node.entries?, Option.map_some, Option.bind_eq_bind,
    Option.bind_some, hage', hsweep', htimeout']
  rfl

/-- The tables of a configuration give it back, if all numbers fit. -/
theorem ofEntries?_entries {c : Config} (hc : ∀ n ∈ c.numbers, Fits n) : ofEntries? c.entries = some c := by
  have htasks : TaskConfig.ofNode? (.table .header (taskEntries c.tasks)) = some c.tasks :=
    ofNode?_taskEntries (fun n hn => hc n (by simp_all [numbers])) (hc _ (by simp [numbers]))
      (hc _ (by simp [numbers]))
  simp [ofEntries?, entries, Toml.Slot.ofEntries, Toml.Slot.orElse, ofNode?_namingEntries, htasks]

/-- The text of a configuration is read as its tables, if all numbers fit. -/
theorem read?_text {c : Config} (hc : ∀ n ∈ c.numbers, Fits n) :
    Toml.read? (String.ofList (namingLines c.joinTables ++ ['\n'] ++ taskLines c.tasks)) =
      some c.entries := by
  have hreads := reads_text hc _ (Nat.lt_succ_self _)
  -- A header comes first, so no byte order mark does.
  have hmark (s : List Char) : namingLines c.joinTables ++ ['\n'] ++ taskLines c.tasks ≠ '\ufeff' :: s := by
    intro h
    have hhead : some '[' = some '\ufeff' := congrArg List.head? h
    exact absurd hhead (by decide)
  rw [Toml.read?, String.toList_ofList, Toml.statements?]
  · exact (congrArg (Option.bind · Entries.ofStatements?) hreads).trans (ofStatements?_statements c)
  · exact hmark

/-- A configuration whose numbers all fit 64 bits with a sign is saved, whatever its texts and the keys among
them are, and read back from its file as it was. Any other configuration is not saved: the error is told,
and the file stays as it was. -/
theorem load_save (c : Config) (file : Option String) :
    ((∀ n ∈ c.numbers, Fits n) →
      ∃ text, c.save file = (some text, .ok ()) ∧ Config.load (some text) = .ok c) ∧
    ((∃ n ∈ c.numbers, ¬ Fits n) → c.save file = (file, .error (.tomlSerialize ""))) := by
  have hiff : (c.numbers.all fun n => n.toNat ≤ Int64.maxValue.toInt) = true ↔ ∀ n ∈ c.numbers, Fits n := by
    simp only [List.all_eq_true, decide_eq_true_eq, fits_iff]
  constructor
  · intro hc
    have htext : c.text = .ok (String.ofList (namingLines c.joinTables ++ ['\n'] ++ taskLines c.tasks)) :=
      if_pos (hiff.mpr hc)
    refine ⟨_, by rw [save, htext], ?_⟩
    rw [load, parse, read?_text hc, Option.bind_some, ofEntries?_entries hc]
  · rintro ⟨n, hn, hfits⟩
    have htext : c.text = .error (.tomlSerialize "") := if_neg fun hall => hfits (hiff.mp hall n hn)
    rw [save, htext]

/-- A naming with a prefix of many lines and quotes, and with names for the empty table and for one whose
own name has a control character in it. -/
def oddNaming : TableNaming :=
  ⟨"a\n\"\"\"", (((∅ : Dictionary String).insert "" "it's").insert "t\x00.\t" "")⟩

/-- A configuration of such names is saved and read back with the greatest age that fits; with the next one it
is not saved. -/
theorem load_save_oddNaming :
    (∃ text, Config.save ⟨oddNaming, ⟨some 9223372036854775807, 0, 1⟩⟩ none = (some text, .ok ()) ∧
      Config.load (some text) = .ok ⟨oddNaming, ⟨some 9223372036854775807, 0, 1⟩⟩) ∧
    Config.save ⟨oddNaming, ⟨some 9223372036854775808, 0, 1⟩⟩ (some "kept") =
      (some "kept", .error (.tomlSerialize "")) :=
  ⟨(load_save ⟨oddNaming, ⟨some 9223372036854775807, 0, 1⟩⟩ none).1
      (by simp [numbers, Fits]),
    (load_save ⟨oddNaming, ⟨some 9223372036854775808, 0, 1⟩⟩ (some "kept")).2
      ⟨9223372036854775808, by simp [numbers], by simp [Fits]⟩⟩

end Config

end SchemaQuery
