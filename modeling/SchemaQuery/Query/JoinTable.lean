import SchemaQuery.Error
import SchemaQuery.Text.Blank
import SchemaQuery.Collection.Dictionary
import SchemaQuery.Text.Occurrence
import SchemaQuery.Text.Word

/-!
Join tables. A template names a join table by the macro `$join_table(<name>)`, white space allowed
around the name; the configuration says what the table is called in the database. A physical name is a
dotted identifier and nothing else, because it is put into the query without quotes.
-/

namespace SchemaQuery

open Text

/-- How logical names of join tables become physical ones. -/
structure TableNaming where
  /-- What comes before a logical name that has no name of its own. -/
  leading : String
  /-- Names of their own for some tables. -/
  overrides : Dictionary String
deriving DecidableEq

instance : Inhabited TableNaming := ⟨"", ∅⟩

/-- The physical name of a join table. -/
def TableNaming.physicalName (naming : TableNaming) (name : String) : String :=
  (naming.overrides.get? name).getD (naming.leading ++ name)

namespace JoinMacro

/-- What a macro begins with, after its dollar sign. -/
def lead : List Char := ['j', 'o', 'i', 'n', '_', 't', 'a', 'b', 'l', 'e', '(']

/-- The name in the macro that begins with a character. -/
def find : Pattern String := fun c r =>
  if c = '$' then do
    let inner ← lead.isPrefixOf? r
    let (name, tail) ← word? (trimStart inner)
    let ')' :: rest := trimStart tail | none
    some (String.ofList name, r.length - rest.length)
  else none

/-- The names in the macros of a template, from left to right. -/
def names (template : String) : List String := items find template.toList

end JoinMacro

/-- The physical names of the join tables of one schema. -/
structure JoinTables where
  tables : Dictionary String
deriving DecidableEq

instance : EmptyCollection JoinTables := ⟨⟨∅⟩⟩
instance : Inhabited JoinTables := ⟨∅⟩

namespace JoinTables

/-- The table with one more name, unless its physical name is no dotted identifier. -/
def add (naming : TableNaming) (t : JoinTables) (name : String) : Except ConfigFault JoinTables :=
  let physical := naming.physicalName name
  if isDottedWord physical.toList then .ok ⟨t.tables.insert name physical⟩
  else .error (.invalidTable name physical)

/-- The table of some names; the first name without a proper physical name decides the fault. -/
def build (naming : TableNaming) (names : List String) : Except ConfigFault JoinTables :=
  names.foldlM (add naming) ∅

/-- The physical name of a join table. -/
def get? (t : JoinTables) (name : String) : Option String := t.tables.get? name

/-- The template with every macro replaced by the physical name of its table. The leftmost macro whose
table is unknown decides the fault. -/
def resolve (t : JoinTables) (template : String) : Except TemplateFault String :=
  (fun parts => String.ofList parts.flatten) <$>
    (pieces JoinMacro.find template.toList).mapM fun piece =>
      match piece with
      | .plain c => .ok [c]
      | .found name _ =>
        match t.get? name with
        | some physical => .ok physical.toList
        | none => .error (.unresolvedTable name)

end JoinTables

example : JoinMacro.names "$join_table( a\t)$join_table(b" = ["a"] := by decide

end SchemaQuery
