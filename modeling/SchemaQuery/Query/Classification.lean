import SchemaQuery.Error
import SchemaQuery.Query.Kind
import SchemaQuery.Text.Blank
import SchemaQuery.Text.Word

/-!
The kind of a template, by its leading keyword. White space in front does not count, nor does the
letter case of the keyword; the keyword has to end where its word ends, so `SELECTION` is none.
-/

namespace SchemaQuery

open Text

/-- The fault of a template without a known keyword, which shows its first 24 characters. -/
def TemplateFault.ofHead (template : List Char) : TemplateFault :=
  match (trim template).take 24 with
  | [] => .empty
  | head => .unknownKeyword (String.ofList head)

/-- The kind whose keyword is this run of letters, in any letter case. -/
def QueryKind.ofKeyword? (letters : List Char) : Option QueryKind :=
  QueryKind.all.find? fun kind => kind.keyword = letters.map Char.toUpper

/-- The kind of a template. -/
def classify (template : String) : Except TemplateFault QueryKind :=
  let body := trimStart template.toList
  let rest := body.dropWhile Char.isAlpha
  if rest.head?.any isWordPart then .error (.ofHead template.toList)
  else match QueryKind.ofKeyword? (body.takeWhile Char.isAlpha) with
    | some kind => .ok kind
    | none => .error (.ofHead template.toList)

example : classify " \tselect *" = .ok .read := rfl
example : classify "SELECTION" = .error (.unknownKeyword "SELECTION") := rfl
example : classify "\u2003" = .error .empty := rfl

end SchemaQuery
