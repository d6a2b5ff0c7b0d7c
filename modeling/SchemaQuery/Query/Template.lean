import SchemaQuery.Query.Classification
import SchemaQuery.Query.JoinTable
import SchemaQuery.Query.Placeholder
import SchemaQuery.Query.Segment

/-!
From template to query. Preparing a template settles its kind, puts in the names of the join tables and
checks that every literal, identifier and comment is closed. Rendering puts in the arguments, by where
a placeholder stands:

* outside every literal it becomes the literal of its value;
* a literal that is exactly one placeholder becomes the literal of its value;
* inside a longer literal it becomes text with its quotes doubled;
* in comments and quoted identifiers it stays what it is.

A placeholder without an argument stays what it is. Every argument has to have a literal, also one that
the template never mentions.
-/

namespace SchemaQuery

/-- A template whose kind is known and whose join tables have been put in. -/
structure PreparedTemplate where
  text : String
  kind : QueryKind
deriving DecidableEq, Repr

/-- A query that can be sent to the engine. -/
structure CompiledQuery where
  query : String
  kind : QueryKind
deriving DecidableEq, Repr

/-- The literal of the argument `key`, if there is such an argument. -/
def Arguments.literal? (args : Arguments) (key : String) : Option (Except Error (List Char)) :=
  (args.get? key).map fun value => value.literal key

/-- The text of the argument `key` inside a string literal, if there is such an argument. -/
def Arguments.embedded? (args : Arguments) (key : String) : Option (Except Error (List Char)) :=
  (args.get? key).map fun value => value.embedded key

/-- A segment with the arguments put in. -/
def Segment.render (args : Arguments) : Segment → Except Error (List Char)
  | .verbatim t => .ok t
  | .bare t => Placeholder.replace args.literal? t
  | .literal body =>
    match (Placeholder.whole? body).bind fun p => args.literal? p.key with
    | some encoded => encoded
    | none =>
      (fun inner => '\'' :: inner ++ ['\'']) <$> Placeholder.replace args.embedded? body

/-- The fault of a text whose last region is never closed. -/
def Error.ofRegion (region : Region) : Error := .compile (.unterminated region)

namespace PreparedTemplate

/-- The query text of a prepared template with the arguments put in. -/
def renderText (text : String) (args : Arguments) : Except Error String := do
  args.check
  let segments ← (Segment.split text.toList).mapError .ofRegion
  let parts ← segments.mapM (Segment.render args)
  return String.ofList parts.flatten

/-- The query of a prepared template with the arguments put in. -/
def render (t : PreparedTemplate) (args : Arguments) : Except Error CompiledQuery :=
  (fun query => ⟨query, t.kind⟩) <$> renderText t.text args

end PreparedTemplate

namespace JoinTables

/-- Prepares a template: its kind first, then its join tables, then its regions. -/
def prepare (t : JoinTables) (template : String) : Except TemplateFault PreparedTemplate := do
  let kind ← classify template
  let text ← t.resolve template
  let _ ← (Segment.split text.toList).mapError .unterminated
  return ⟨text, kind⟩

/-- Prepares a template and puts in the arguments. -/
def compile (t : JoinTables) (template : String) (args : Arguments) :
    Except Error CompiledQuery := do
  let prepared ← (t.prepare template).mapError .compile
  prepared.render args

end JoinTables

end SchemaQuery
