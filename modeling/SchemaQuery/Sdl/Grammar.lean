import SchemaQuery.Sdl.Document
import SchemaQuery.Sdl.Token

/-!
The grammar of schema documents. One token always settles what comes next, so a document is read from
left to right without a second try: what begins like a definition and is not one makes the whole
document ill-formed. Every loop takes a token at each turn; the number of tokens bounds the turns.
-/

namespace SchemaQuery.Sdl

/-- A reader of tokens. -/
abbrev Reader := StateT (List Token) Option

namespace Reader

/-- The next token, which stays unread. -/
def peek : Reader (Option Token) := fun ts => some (ts.head?, ts)

/-- Reads the next token, which has to be this one. -/
def expect (token : Token) : Reader Unit := fun
  | t :: ts => if t = token then some ((), ts) else none
  | [] => none

/-- Reads the next token if it is this one. -/
def accept (token : Token) : Reader Bool := fun
  | t :: ts => if t = token then some (true, ts) else some (false, t :: ts)
  | [] => some (false, [])

/-- Reads a name. -/
def name : Reader String := fun
  | .name s :: ts => some (s, ts)
  | _ => none

/-- Reads items up to a closing token, and that token. -/
def itemsUntil {α : Type} (close : Token) (item : Reader α) : Nat → Reader (List α)
  | 0 => failure
  | fuel + 1 => do
    if ← accept close then return []
    let first ← item
    let rest ← itemsUntil close item fuel
    return first :: rest

/-- Reads at least one item up to a closing token, and that token. -/
def someUntil {α : Type} (close : Token) (item : Reader α) (fuel : Nat) : Reader (List α) := do
  let first ← item
  let rest ← itemsUntil close item fuel
  return first :: rest

/-- Reads further items, each behind a separator, for as long as there is a separator. -/
def itemsBehind {α : Type} (separator : Token) (item : Reader α) : Nat → Reader (List α)
  | 0 => failure
  | fuel + 1 => do
    if ← accept separator then
      let first ← item
      let rest ← itemsBehind separator item fuel
      return first :: rest
    else return []

/-- Reads a list with separators, one of which may stand in front. -/
def separated {α : Type} (separator : Token) (item : Reader α) (fuel : Nat) : Reader (List α) := do
  let _ ← accept separator
  let first ← item
  let rest ← itemsBehind separator item fuel
  return first :: rest

/-- Reads an optional description. -/
def description : Reader Unit := fun
  | .string _ :: ts => some ((), ts)
  | ts => some ((), ts)

/-! ### Values and directives -/

mutual

/-- Reads a value; `allowVariables` says whether a variable may stand in it. -/
def value (allowVariables : Bool) : Nat → Reader Literal
  | 0 => failure
  | fuel + 1 => do
    match ← peek with
    | some (.number s) => do expect (.number s); return .number s
    | some (.string s) => do expect (.string s); return .string s
    | some (.name s) => do
      expect (.name s)
      return if s = "true" then .bool true
        else if s = "false" then .bool false
        else if s = "null" then .null
        else .enumValue s
    | some (.mark '$') =>
      if allowVariables then do
        expect (.mark '$')
        return .variableRef (← name)
      else failure
    | some (.mark '[') => do
      expect (.mark '[')
      return .list (← values allowVariables fuel)
    | some (.mark '{') => do
      expect (.mark '{')
      return .object (← valueFields allowVariables fuel)
    | _ => failure

/-- Reads the items of a list and its closing bracket. -/
def values (allowVariables : Bool) : Nat → Reader (List Literal)
  | 0 => failure
  | fuel + 1 => do
    if ← accept (.mark ']') then return []
    let first ← value allowVariables fuel
    let rest ← values allowVariables fuel
    return first :: rest

/-- Reads the fields of an object and its closing brace. -/
def valueFields (allowVariables : Bool) : Nat → Reader (List (String × Literal))
  | 0 => failure
  | fuel + 1 => do
    if ← accept (.mark '}') then return []
    let key ← name
    expect (.mark ':')
    let first ← value allowVariables fuel
    let rest ← valueFields allowVariables fuel
    return (key, first) :: rest

end

/-- Reads an argument of a directive. -/
def directiveArgument (fuel : Nat) : Reader (String × Literal) := do
  let key ← name
  expect (.mark ':')
  return (key, ← value true fuel)

/-- Reads a directive behind its sign. -/
def directive (fuel : Nat) : Reader Directive := do
  let name ← name
  if ← accept (.mark '(') then
    return ⟨name, ← someUntil (.mark ')') (directiveArgument fuel) fuel⟩
  else return ⟨name, []⟩

/-- Reads directives for as long as there are any. -/
def directives (fuel : Nat) : Reader (List Directive) :=
  itemsBehind (.mark '@') (directive fuel) fuel

/-! ### Types and fields -/

/-- Reads a type. -/
def typeRef : Nat → Reader TypeRef
  | 0 => failure
  | fuel + 1 => do
    let inner ← if ← accept (.mark '[') then do
        let item ← typeRef fuel
        expect (.mark ']')
        pure (.list item)
      else TypeRef.named <$> name
    return if ← accept (.mark '!') then .required inner else inner

/-- Reads an argument of a field, or a field of an input type. -/
def inputValue (fuel : Nat) : Reader Argument := do
  description
  let name ← name
  expect (.mark ':')
  let type ← typeRef fuel
  if ← accept (.mark '=') then
    let _ ← value false fuel
  let _ ← directives fuel
  return ⟨name, type⟩

/-- Reads the arguments of a field or a directive, if there are any. -/
def arguments (fuel : Nat) : Reader (List Argument) := do
  if ← accept (.mark '(') then someUntil (.mark ')') (inputValue fuel) fuel else return []

/-- Reads a field of an object type. -/
def field (fuel : Nat) : Reader Field := do
  description
  let name ← name
  let arguments ← arguments fuel
  expect (.mark ':')
  let type ← typeRef fuel
  let directives ← directives fuel
  return ⟨name, arguments, type, directives⟩

/-- Reads the fields of an object type, if there are any. -/
def fields (fuel : Nat) : Reader (List Field) := do
  if ← accept (.mark '{') then someUntil (.mark '}') (field fuel) fuel else return []

/-- Reads the names of the interfaces of a type, if there are any. -/
def interfaces (fuel : Nat) : Reader (List String) := do
  if ← accept (.name "implements") then separated (.mark '&') name fuel else return []

/-! ### Definitions -/

/-- A definition, and whether it says anything beyond its name; an extension has to. -/
structure Part where
  definition : Definition
  adds : Bool

/-- Reads a root of a schema block. -/
def root : Reader (String × String) := do
  let operation ← name
  expect (.mark ':')
  return (operation, ← name)

/-- Reads a schema block behind its keyword. A root is one of the three kinds and given once. -/
def schemaBlock (fuel : Nat) : Reader Definition := do
  let _ ← directives fuel
  expect (.mark '{')
  let roots ← itemsUntil (.mark '}') root fuel
  let operations := roots.map Prod.fst
  if operations.all (["query", "mutation", "subscription"].contains ·) ∧ operations.Nodup then
    return .schema (roots.lookup "query") (roots.lookup "mutation")
  else failure

/-- Reads an object type behind its keyword. -/
def objectType (wrap : Block → Definition) (fuel : Nat) : Reader Part := do
  let name ← name
  let interfaces ← interfaces fuel
  let directives ← directives fuel
  let fields ← fields fuel
  return ⟨wrap ⟨name, directives, fields⟩, !(interfaces.isEmpty && directives.isEmpty && fields.isEmpty)⟩

/-- Reads an interface behind its keyword. -/
def interfaceType (fuel : Nat) : Reader Part := do
  let _ ← name
  let _ ← interfaces fuel
  let directives ← directives fuel
  let fields ← fields fuel
  return ⟨.other, !(directives.isEmpty && fields.isEmpty)⟩

/-- Reads a scalar behind its keyword. -/
def scalarType (fuel : Nat) : Reader Part := do
  let name ← name
  let directives ← directives fuel
  return ⟨.scalar name, !directives.isEmpty⟩

/-- Reads a union behind its keyword. -/
def unionType (fuel : Nat) : Reader Part := do
  let _ ← name
  let directives ← directives fuel
  let members ← if ← accept (.mark '=') then separated (.mark '|') name fuel else pure []
  return ⟨.other, !(directives.isEmpty && members.isEmpty)⟩

/-- Reads a value of an enumeration. -/
def enumMember (fuel : Nat) : Reader Unit := do
  description
  let _ ← name
  let _ ← directives fuel

/-- Reads an enumeration behind its keyword. -/
def enumType (fuel : Nat) : Reader Part := do
  let name ← name
  let directives ← directives fuel
  let members ←
    if ← accept (.mark '{') then someUntil (.mark '}') (enumMember fuel) fuel else pure []
  return ⟨.enumeration name, !(directives.isEmpty && members.isEmpty)⟩

/-- Reads an input type behind its keyword. -/
def inputType (fuel : Nat) : Reader Part := do
  let _ ← name
  let directives ← directives fuel
  let fields ←
    if ← accept (.mark '{') then someUntil (.mark '}') (inputValue fuel) fuel else pure []
  return ⟨.other, !(directives.isEmpty && fields.isEmpty)⟩

/-- The places at which a directive may be used. -/
def locations : List String :=
  ["QUERY", "MUTATION", "SUBSCRIPTION", "FIELD", "FRAGMENT_DEFINITION", "FRAGMENT_SPREAD",
   "INLINE_FRAGMENT", "VARIABLE_DEFINITION", "SCHEMA", "SCALAR", "OBJECT", "FIELD_DEFINITION",
   "ARGUMENT_DEFINITION", "INTERFACE", "UNION", "ENUM", "ENUM_VALUE", "INPUT_OBJECT",
   "INPUT_FIELD_DEFINITION"]

/-- Reads a place at which a directive may be used. -/
def location : Reader Unit := do
  if locations.contains (← name) then return else failure

/-- Reads the definition of a directive behind its keyword. -/
def directiveDefinition (fuel : Nat) : Reader Definition := do
  expect (.mark '@')
  let _ ← name
  let _ ← arguments fuel
  let _ ← accept (.name "repeatable")
  expect (.name "on")
  match ← peek with
  | some (.mark '|') | some (.name _) => do
    let _ ← separated (.mark '|') location fuel
  | _ => pure ()
  return .other

/-- Reads what follows a keyword that both a definition and an extension may begin with. -/
def typePart (keyword : String) (wrap : Block → Definition) (fuel : Nat) : Reader Part :=
  match keyword with
  | "scalar" => scalarType fuel
  | "type" => objectType wrap fuel
  | "interface" => interfaceType fuel
  | "union" => unionType fuel
  | "enum" => enumType fuel
  | "input" => inputType fuel
  | _ => failure

/-- What an extension counts as: only that of an object type says anything. -/
def extensionOf : Definition → Definition
  | .extension block => .extension block
  | _ => .other

/-- Reads a definition. -/
def definition (fuel : Nat) : Reader Definition := do
  match ← peek with
  | some (.name "schema") => do
    let _ ← name
    schemaBlock fuel
  | some (.name "extend") => do
    let _ ← name
    let part ← typePart (← name) .extension fuel
    if part.adds then return extensionOf part.definition else failure
  | _ => do
    description
    let keyword ← name
    if keyword = "directive" then directiveDefinition fuel
    else return (← typePart keyword .object fuel).definition

/-- Reads definitions up to the end, at least one. -/
def definitions : Nat → Reader Document
  | 0 => failure
  | fuel + 1 => do
    let first ← definition fuel
    match ← peek with
    | none => return [first]
    | some _ => return first :: (← definitions fuel)

end Reader

/-- The document that a text is, if it is one. -/
def read? (s : String) : Option Document := do
  let tokens ← Token.all? s
  let (document, _) ← (Reader.definitions (tokens.length + 1)).run tokens
  return document

end SchemaQuery.Sdl
