import SchemaQuery.CommandLine.Grammar

/-!
The commands of this program: `inspect` shows the operations of a schema, `render` the query of one
field.
-/

namespace SchemaQuery.CommandLine

/-- A command. -/
inductive Command where
  /-- Shows the operations of a schema, with shapes inferred if that is asked for. -/
  | inspect (schema : String) (inferShapes : Bool)
  /-- Shows the query of a field with arguments, which are given as a JSON object. -/
  | render (schema field args : String)
deriving DecidableEq, Repr

/-- The path of the schema. -/
def Command.schema : Command → String
  | .inspect schema _ => schema
  | .render schema _ _ => schema

/-- What the program is asked to do. -/
structure Invocation where
  /-- Whether the program may say more than usual about what it does. -/
  debug : Bool
  /-- The path of the configuration, if it is not the usual one. -/
  config : Option String
  command : Command
deriving DecidableEq, Repr

/-- The switch that asks for help, which every command has. -/
def helpSwitch : Switch := ⟨"help", some 'h', none⟩

/-- What may stand before the command. -/
def mainGrammar : Grammar where
  switches := [⟨"debug", some 'd', none⟩, ⟨"config", some 'c', some .path⟩, helpSwitch,
    ⟨"version", some 'V', none⟩]
  operands := []
  commands := ["inspect", "render", "help"]

/-- What may stand behind `inspect`. -/
def inspectGrammar : Grammar := ⟨[⟨"infer-shapes", none, none⟩, helpSwitch], [.path], []⟩

/-- What may stand behind `render`. -/
def renderGrammar : Grammar := ⟨[⟨"args", none, some .text⟩, helpSwitch], [.path, .text], []⟩

/-- The command of a name with the arguments behind it. -/
def Command.read (name : String) (args : List String) : Except Stop Command := do
  match name with
  | "inspect" =>
    let r ← inspectGrammar.read args
    match r.operands with
    | [schema] => return .inspect schema (r.has "infer-shapes")
    | _ => throw .misuse
  | "render" =>
    let r ← renderGrammar.read args
    match r.operands with
    | [schema, field] => return .render schema field ((r.value? "args").getD "{}")
    | _ => throw .misuse
  | _ =>
    match args with
    | [] => throw .help
    | [name] => if name ∈ mainGrammar.commands then throw .help else throw .misuse
    | _ => throw .misuse

/-- What the arguments of the program ask for. -/
def Invocation.read (args : List String) : Except Stop Invocation := do
  let r ← mainGrammar.read args
  match r.command with
  | some (name, rest) => return ⟨r.has "debug", r.value? "config", ← Command.read name rest⟩
  | none => throw .misuse

/-- The help of the program. -/
def help : String :=
  "Usage: sqlgate [-d] [-c FILE] COMMAND\n\nCommands:\n"
    ++ "  inspect SCHEMA [--infer-shapes]\n  render SCHEMA FIELD [--args JSON]\n"

/-- The version of the program. -/
def version : String := "sqlgate 0.1.0\n"

example : Invocation.read ["-dc=x", "inspect", "--", "-s"]
    = .ok ⟨true, some "x", .inspect "-s" false⟩ := by rfl
example : Invocation.read ["inspect", "s", "t"] = .error .misuse := by rfl
example : Invocation.read ["--version", "inspect"] = .error .version := by rfl

end SchemaQuery.CommandLine
