import SchemaQuery.Query.Argument
import SchemaQuery.Text.Occurrence
import SchemaQuery.Text.Word

/-!
Placeholders: `$args.<name>` and `$source.<name>`, where the name is a whole word. Both forms of one
name stand for the same argument. A placeholder whose argument is not supplied is ordinary text.
-/

namespace SchemaQuery

open Text

/-- The two forms of a placeholder. -/
inductive Scope where
  | args
  | source
deriving DecidableEq, Repr

/-- What comes before the name in a placeholder, after the dollar sign. -/
def Scope.lead : Scope → List Char
  | .args => ['a', 'r', 'g', 's', '.']
  | .source => ['s', 'o', 'u', 'r', 'c', 'e', '.']

/-- A placeholder for the argument `key`. -/
structure Placeholder where
  scope : Scope
  key : String
deriving DecidableEq, Repr

namespace Placeholder

/-- The rest of a placeholder of one form, once its dollar sign is read. -/
def rest? (scope : Scope) (s : List Char) : Option (Placeholder × Nat) := do
  let tail ← scope.lead.isPrefixOf? s
  let (name, _) ← word? tail
  some (⟨scope, String.ofList name⟩, scope.lead.length + name.length)

/-- The placeholder that begins with a character. -/
def find : Pattern Placeholder := fun c r =>
  if c = '$' then (rest? .args r).or (rest? .source r) else none

/-- The placeholders of a text, from left to right. -/
def all (s : List Char) : List Placeholder := items find s

/-- The placeholder that a text is, if it is exactly one. -/
def whole? (s : List Char) : Option Placeholder :=
  match pieces find s with
  | [.found p _] => some p
  | _ => none

/-- The text with each placeholder replaced by what `f` gives for its argument, where it gives
anything. Text that was put in is not read again. -/
def replace (f : String → Option (Except Error (List Char))) (s : List Char) :
    Except Error (List Char) :=
  List.flatten <$> (pieces find s).mapM fun piece =>
    match piece with
    | .plain c => .ok [c]
    | .found p t => (f p.key).getD (.ok t)

example : (all "$args.a$source.bc $arg.d $args.1".toList).map (·.key) = ["a", "bc"] := by decide
example : whole? "$args.name".toList = some ⟨.args, "name"⟩ := by decide
example : whole? "$args.name ".toList = none := by decide

end Placeholder

end SchemaQuery
