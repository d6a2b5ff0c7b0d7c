import SchemaQuery.Config
import SchemaQuery.Error
import SchemaQuery.Toml.Document

/-!
The configuration as a file. What a file does not say has its standard value, and what it says beyond
the configuration does not count. A table may be written as an array of its values in their order, of
which the last may be missing and further ones do not count. Numbers in a file fit 64 bits with a sign,
so a configuration with a greater one cannot be saved; then the file stays as it was.
-/

namespace SchemaQuery

open Toml (Node Entries)

namespace Toml

/-- The entry by which a moment can be taken for a table. -/
def momentKey : String := "$__toml_private_datetime"

/-- Where a field of a table is. -/
inductive Slot where
  | given (node : Node)
  /-- The table has no such entry. -/
  | absent
  /-- The table is an array that ends before the field. -/
  | lacking

/-- A node as a table: the entries of a table, or the one entry of a moment. -/
def Node.entries? : Node → Option Entries
  | .table _ es => some es
  | .moment standard => some [(momentKey, .text standard)]
  | _ => none

/-- The field of a name among entries. -/
def Slot.ofEntries (es : Entries) (name : String) : Slot :=
  match valueOf? name es with
  | some node => .given node
  | none => .absent

/-- The field of a name among the items of an array. -/
def Slot.ofItems (names : List String) (items : List Node) (name : String) : Slot :=
  match valueOf? name (names.zip items) with
  | some node => .given node
  | none => .lacking

/-- The fields of a node with the given names. -/
def Node.slots? (names : List String) : Node → Option (String → Slot)
  | .array items => some (Slot.ofItems names items)
  | .tables items => some (Slot.ofItems names (items.map (.table .header)))
  | node => node.entries?.map Slot.ofEntries

/-- A field that has a value of its own where it is missing. -/
def Slot.orElse {α : Type} (read : Node → Option α) (standard : α) : Slot → Option α
  | .given node => read node
  | _ => some standard

/-- A field that may be missing in a table, but not in an array. -/
def Slot.optional {α : Type} (read : Node → Option α) : Slot → Option (Option α)
  | .given node => (read node).map some
  | .absent => some none
  | .lacking => none

/-- A text. -/
def Node.text? : Node → Option String
  | .text s => some s
  | _ => none

/-- A number that is not negative. -/
def Node.word? : Node → Option UInt64
  | .integer n => if 0 ≤ n then some n.toUInt64 else none
  | _ => none

/-- A table of texts. -/
def Node.texts? (node : Node) : Option (Dictionary String) := do
  let pairs ← (← node.entries?).mapM fun (key, node) => node.text?.map (key, ·)
  return Dictionary.ofList pairs

end Toml

open Toml (Slot)

/-! ### Reading -/

/-- The naming of join tables that a node gives. -/
def TableNaming.ofNode? (node : Node) : Option TableNaming := do
  let slot ← node.slots? ["prefix", "overrides"]
  return {
    leading := ← (slot "prefix").orElse Node.text? ""
    overrides := ← (slot "overrides").orElse Node.texts? ∅ }

/-- The keeping of tasks that a node gives. -/
def TaskConfig.ofNode? (node : Node) : Option TaskConfig := do
  let slot ← node.slots? ["max_age_secs", "sweep_interval_secs", "engine_timeout_secs"]
  return {
    maxAgeSecs := ← (slot "max_age_secs").optional Node.word?
    sweepIntervalSecs :=
      ← (slot "sweep_interval_secs").orElse Node.word? TaskConfig.standard.sweepIntervalSecs
    engineTimeoutSecs :=
      ← (slot "engine_timeout_secs").orElse Node.word? TaskConfig.standard.engineTimeoutSecs }

namespace Config

/-- The configuration that the entries of a document give. -/
def ofEntries? (es : Entries) : Option Config := do
  return {
    joinTables := ← (Slot.ofEntries es "join_tables").orElse TableNaming.ofNode? default
    tasks := ← (Slot.ofEntries es "tasks").orElse TaskConfig.ofNode? default }

/-- The configuration that a text gives. -/
def parse (text : String) : Except Error Config :=
  match (Toml.read? text).bind ofEntries? with
  | some c => .ok c
  | none => .error (.tomlParse "")

/-- The configuration of a file; the standard one if there is no file. -/
def load : Option String → Except Error Config
  | none => .ok default
  | some text => parse text

/-! ### Writing -/

/-- The line of a header. -/
def headerLine (path : List String) : List Char :=
  '[' :: List.intercalate ['.'] (path.map Toml.keyText) ++ [']', '\n']

/-- The line of a key and its value. -/
def entryLine (key : String) (value : List Char) : List Char :=
  Toml.keyText key ++ [' ', '=', ' '] ++ value ++ ['\n']

/-- The line of a number. -/
def numberLine (key : String) (n : UInt64) : List Char := entryLine key (Decimal.digits n.toNat)

/-- The line of a text. -/
def textLine (key text : String) : List Char := entryLine key (Toml.quoted text.toList)

/-- The lines of the naming of join tables. -/
def namingLines (naming : TableNaming) : List Char :=
  headerLine ["join_tables"] ++ textLine "prefix" naming.leading
    ++ ['\n'] ++ headerLine ["join_tables", "overrides"]
    ++ naming.overrides.entries.flatMap fun (key, text) => textLine key text

/-- The lines of the keeping of tasks. -/
def taskLines (c : TaskConfig) : List Char :=
  headerLine ["tasks"]
    ++ (match c.maxAgeSecs with
      | some n => numberLine "max_age_secs" n
      | none => [])
    ++ numberLine "sweep_interval_secs" c.sweepIntervalSecs
    ++ numberLine "engine_timeout_secs" c.engineTimeoutSecs

/-- The numbers of a configuration. -/
def numbers (c : Config) : List UInt64 :=
  c.tasks.maxAgeSecs.toList ++ [c.tasks.sweepIntervalSecs, c.tasks.engineTimeoutSecs]

/-- The text of a configuration, unless a number is too great for a file. -/
def text (c : Config) : Except Error String :=
  if c.numbers.all fun n => n.toNat ≤ Int64.maxValue.toInt then
    .ok (String.ofList (namingLines c.joinTables ++ ['\n'] ++ taskLines c.tasks))
  else .error (.tomlSerialize "")

/-- A file after a configuration was saved to it, and whether that went well. -/
def save (c : Config) (file : Option String) : Option String × Except Error Unit :=
  match c.text with
  | .ok text => (some text, .ok ())
  | .error e => (file, .error e)

end Config

end SchemaQuery
