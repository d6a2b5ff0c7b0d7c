import SchemaQuery.Execution.State
import SchemaQuery.Time.Span

/-!
Everything that can go wrong, by cause. Each cause belongs to one family, each family has one name,
and the wording of all of them is given here and nowhere else.
-/

namespace SchemaQuery

/-! ### What an error is about -/

/-- Where a field is declared: in one of the two root types, or in an ordinary object type. -/
inductive FieldOwner where
  | query
  | mutation
  | type (name : String)
deriving DecidableEq, Repr

/-- The owner as it is written before a field's name. A root is written by its standard name, also
where the schema calls it otherwise. -/
def FieldOwner.text : FieldOwner → String
  | .query => "Query"
  | .mutation => "Mutation"
  | .type name => name

/-- The id of a task. A caller may supply its own; any text is one. -/
structure TaskId where
  text : String
deriving DecidableEq, Repr

/-- The first eight characters, for display. -/
def TaskId.short (id : TaskId) : String := String.ofList (id.text.toList.take 8)

/-- A region of query text that has to be closed. -/
inductive Region where
  | literal
  | identifier
  | comment
deriving DecidableEq, Repr

/-- The region in words. -/
def Region.text : Region → String
  | .literal => "string literal"
  | .identifier => "quoted identifier"
  | .comment => "block comment"

/-! ### Causes -/

/-- Why a template cannot become query text. -/
inductive TemplateFault where
  /-- The template is white space alone. -/
  | empty
  /-- The template does not begin with a known keyword; `head` is its beginning. -/
  | unknownKeyword (head : String)
  /-- A region is opened and never closed. -/
  | unterminated (region : Region)
  /-- A macro names a join table that is not in the table. -/
  | unresolvedTable (name : String)
  /-- A fault of the template of one field. -/
  | ofField (owner : FieldOwner) (field : String) (fault : TemplateFault)
  /-- Any other fault, in words. -/
  | other (text : String)
deriving DecidableEq, Repr

/-- The fault in words. -/
def TemplateFault.text : TemplateFault → String
  | .empty => "empty query template"
  | .unknownKeyword head => "unrecognized query keyword in template '" ++ head ++ "'"
  | .unterminated region => "unterminated " ++ region.text ++ " in query template"
  | .unresolvedTable name => "unresolved join table '" ++ name ++ "'"
  | .ofField owner field fault => owner.text ++ "." ++ field ++ ": " ++ fault.text
  | .other text => text

/-- Why a request is refused. -/
inductive RequestFault where
  /-- A null would have to stand inside a string literal. -/
  | nullInLiteral (key : String)
  /-- A number is infinite or none at all. -/
  | notFinite (key : String)
  /-- The operation is not one that is tracked as a task. -/
  | notATask (owner : FieldOwner) (field : String)
  /-- An engine reported a state that is not known. -/
  | unknownState (name : String)
  /-- No operation has this name. -/
  | noSuchField (name : String)
  /-- The arguments are given, but not as an object; `text` is what was given. -/
  | argumentsNotObject (text : String)
  /-- Any other fault, in words. -/
  | other (text : String)
deriving DecidableEq, Repr

/-- The fault in words. -/
def RequestFault.text : RequestFault → String
  | .nullInLiteral key =>
    "argument '" ++ key ++ "' is null and cannot be embedded in a string literal"
  | .notFinite key => "argument '" ++ key ++ "' is not a finite number"
  | .notATask owner field => owner.text ++ "." ++ field ++ " is not a task operation"
  | .unknownState name => "unknown execution state '" ++ name ++ "'"
  | .noSuchField name => "no data-access field '" ++ name ++ "'"
  | .argumentsNotObject text => "--args must be a JSON object, got " ++ text
  | .other text => text

/-- What went wrong at the engine or with one of its executions. -/
inductive EngineFault where
  /-- The engine knows no such execution. -/
  | unknownExecution (execution : ExecutionId)
  /-- The execution has no rows to fetch in this state. -/
  | noResult (execution : ExecutionId) (state : ExecutionState)
  /-- The execution already belongs to a task. -/
  | alreadyCorrelated (execution : ExecutionId)
  /-- Any other fault, in the engine's words. -/
  | other (text : String)
deriving DecidableEq, Repr

/-- The fault in words. -/
def EngineFault.text : EngineFault → String
  | .unknownExecution execution => "unknown execution " ++ execution.text
  | .noResult execution state =>
    "execution " ++ execution.text ++ " has no result (" ++ state.text ++ ")"
  | .alreadyCorrelated execution => "execution " ++ execution.text ++ " is already correlated"
  | .other text => text

/-- What is wrong with the configuration. -/
inductive ConfigFault where
  /-- A join table would get a name that is not a dotted identifier. -/
  | invalidTable (name physical : String)
  /-- Any other fault, in words. -/
  | other (text : String)
deriving DecidableEq, Repr

/-- The fault in words. -/
def ConfigFault.text : ConfigFault → String
  | .invalidTable name physical =>
    "join table '" ++ name ++ "' maps to invalid identifier '" ++ physical ++ "'"
  | .other text => text

/-- An error of this library: a family and the cause. -/
inductive Error where
  /-- A file cannot be read or written. -/
  | io (detail : String)
  /-- A text is not the JSON form of what it should be. -/
  | json (detail : String)
  /-- A text is not a TOML configuration. -/
  | tomlParse (detail : String)
  /-- A configuration has no TOML form. -/
  | tomlSerialize (detail : String)
  /-- A text is not a schema document. -/
  | schemaParse (detail : String)
  | validation (fault : RequestFault)
  /-- A value of this kind has no literal. -/
  | unsupportedType (key kind : String)
  | compile (fault : TemplateFault)
  | engine (fault : EngineFault)
  | notFound (task : TaskId)
  | taskExists (task : TaskId)
  | config (fault : ConfigFault)
  /-- A call took longer than this. -/
  | timeout (limit : Span)
deriving DecidableEq, Repr

namespace Error

/-- The name of the error's family. -/
def family : Error → String
  | .io _ => "Io"
  | .json _ => "Json"
  | .tomlParse _ => "TomlParse"
  | .tomlSerialize _ => "TomlSerialize"
  | .schemaParse _ => "SchemaParse"
  | .validation _ => "Validation"
  | .unsupportedType _ _ => "UnsupportedType"
  | .compile _ => "Compile"
  | .engine _ => "Engine"
  | .notFound _ => "NotFound"
  | .taskExists _ => "TaskExists"
  | .config _ => "Config"
  | .timeout _ => "Timeout"

/-- The error in words. -/
def message : Error → String
  | .io detail => "IO error: " ++ detail
  | .json detail => "JSON error: " ++ detail
  | .tomlParse detail => "TOML parse error: " ++ detail
  | .tomlSerialize detail => "TOML serialize error: " ++ detail
  | .schemaParse detail => "Schema parse error: " ++ detail
  | .validation fault => "Validation error: " ++ fault.text
  | .unsupportedType key kind => "Unsupported argument type for '" ++ key ++ "': " ++ kind
  | .compile fault => "Compile error: " ++ fault.text
  | .engine fault => "Engine error: " ++ fault.text
  | .notFound task => "Task not found: " ++ task.text
  | .taskExists task => "Task already exists: " ++ task.text
  | .config fault => "Config error: " ++ fault.text
  | .timeout limit => "Operation timed out after " ++ limit.text

/-- Whether the error comes from turning a template into query text. -/
def isCompileTime : Error → Bool
  | .validation _ | .unsupportedType _ _ | .compile _ => true
  | _ => false

end Error

end SchemaQuery
