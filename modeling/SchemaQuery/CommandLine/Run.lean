import SchemaQuery.CommandLine.Invocation
import SchemaQuery.Config.File
import SchemaQuery.Json.Print
import SchemaQuery.Sdl.Grammar
import SchemaQuery.Text.Invisible
import SchemaQuery.Wire.Argument
import SchemaQuery.Wire.Schema

/-!
What the commands do. The configuration is read first, then the schema; a field is looked up before its
arguments are read. The result is one JSON document.
-/

namespace SchemaQuery

/-- The error with its cause in quotes, as the program reports it; the detail of what other formats say
of a text is left out. -/
def Error.report : Error → String
  | .io _ | .json _ | .tomlParse _ | .tomlSerialize _ | .schemaParse _ => "malformed input"
  | .validation fault => "Validation(" ++ Text.inQuotes fault.text ++ ")"
  | .unsupportedType key kind =>
    "UnsupportedType \x7b key: " ++ Text.inQuotes key ++ ", kind: " ++ Text.inQuotes kind ++ " \x7d"
  | .compile fault => "Compile(" ++ Text.inQuotes fault.text ++ ")"
  | .engine fault => "Engine(" ++ Text.inQuotes fault.text ++ ")"
  | .notFound task => "NotFound(TaskId(" ++ Text.inQuotes task.text ++ "))"
  | .taskExists task => "TaskExists(TaskId(" ++ Text.inQuotes task.text ++ "))"
  | .config fault => "Config(" ++ Text.inQuotes fault.text ++ ")"
  | .timeout limit => "Timeout(" ++ limit.text ++ ")"

namespace CommandLine

/-- A file as it is found. -/
inductive File where
  | absent
  /-- There is something, but it cannot be read as a text. -/
  | unreadable
  | text (content : String)
deriving DecidableEq, Repr

/-- The text of a file, which has to be there. -/
def File.content : File → Except Error String
  | .text content => .ok content
  | _ => .error (.io "")

/-- The configuration of a file; the standard one if there is no file. -/
def File.config : File → Except Error Config
  | .absent => Config.load none
  | .unreadable => .error (.io "")
  | .text content => Config.load (some content)

/-- The schema of a file. -/
def loadSchema (file : File) (inferShapes : Bool) (config : Config) : Except Error CompiledSchema := do
  let doc ← match Sdl.read? (← file.content) with
    | some doc => .ok doc
    | none => .error (.schemaParse "")
  let m := Metadata.ofDocument doc
  CompiledSchema.ofMetadata (if inferShapes then m.inferShapes else m) config

/-- What `inspect` shows of a schema. -/
def inspection (s : CompiledSchema) : Json :=
  .ofFields [("operations", .array (s.set.operations.map Operation.toJson)),
    ("joinTables", .ofDictionary (s.joinTables.tables.map .string)),
    ("crudTypes", .array (s.metadata.storedTypes.map fun t => .string t.name))]

/-- The arguments that a JSON object gives. -/
def readArguments (text : String) : Except Error Arguments :=
  match Json.read? text with
  | none => .error (.json "")
  | some (.object fields) => .ok (.ofFields fields)
  | some other => .error (.validation (.argumentsNotObject other.text))

/-- What `render` shows of an operation with arguments. -/
def rendering (op : Operation) (args : Arguments) : Except Error Json := do
  let query ← op.render args
  return .ofFields [("field", .string (op.owner.text ++ "." ++ op.field)), ("task", .bool op.task),
    ("kind", .string query.kind.name), ("query", .string query.query)]

/-- The document that a command shows. -/
def Command.document (command : Command) (schema : File) (config : Config) : Except Error Json := do
  match command with
  | .inspect _ inferShapes => return inspection (← loadSchema schema inferShapes config)
  | .render _ field args =>
    let s ← loadSchema schema false config
    match s.set.find? field with
    | some op => rendering op (← readArguments args)
    | none => throw (.validation (.noSuchField field))

/-- What the program prints for an invocation, by the files it is given. -/
def Invocation.output (i : Invocation) (config schema : File) : Except Error String := do
  let config ← config.config
  return (← i.command.document schema config).pretty ++ "\n"

/-- How the program ends. -/
inductive Ending where
  | printed (text : String)
  | failed (e : Error)
  | misused

/-- The exit code of an ending. -/
def Ending.code : Ending → Nat
  | .printed _ => 0
  | .failed _ => 1
  | .misused => 2

/-- How the program ends on arguments that are not carried out. -/
def Stop.ending : Stop → Ending
  | .help => .printed CommandLine.help
  | .version => .printed CommandLine.version
  | .misuse => .misused

/-- How the program ends on an invocation. -/
def Invocation.ending (i : Invocation) (config schema : File) : Ending :=
  match i.output config schema with
  | .ok text => .printed text
  | .error e => .failed e

/-- The path of the usual configuration, from the home directory on. -/
def usualConfig : String := ".sqlgate/sqlgate.toml"

end CommandLine

end SchemaQuery
