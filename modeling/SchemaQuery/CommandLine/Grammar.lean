/-!
The form of command lines. Switches begin with one dash and a letter or with two dashes and a name, and
may take a value, attached or as the next argument; everything else is an operand. Behind a bare `--`
there are only operands. Arguments count in their order: the first that asks for help or the version, or
that is wrong, decides what happens.
-/

namespace SchemaQuery.CommandLine

/-- What a value has to be. -/
inductive Kind where
  /-- A path, which is not empty. -/
  | path
  | text
deriving DecidableEq, Repr

/-- Whether a text is a value of a kind. -/
def Kind.admits (kind : Kind) (text : String) : Bool := kind = .text || text ≠ ""

/-- A switch. -/
structure Switch where
  name : String
  letter : Option Char
  /-- The kind of its value, if it takes one. -/
  value : Option Kind
deriving DecidableEq, Repr

/-- What a command line may hold. -/
structure Grammar where
  switches : List Switch
  /-- The kinds of the operands, all of which have to be given. -/
  operands : List Kind
  /-- The commands, each of which has a grammar of its own for what follows it. -/
  commands : List String

/-- A part of a command line. -/
inductive Part where
  | switch (name : String) (value : Option String)
  | operand (text : String)
  /-- A command and all arguments behind it. -/
  | command (name : String) (rest : List String)
  /-- Something that is no part. -/
  | wrong
deriving DecidableEq, Repr

/-- Whether an argument looks like a switch. A dash alone does not. -/
def looksLikeSwitch (arg : String) : Bool :=
  match arg.toList with
  | '-' :: _ :: _ => true
  | _ => false

/-- The parts of the letters behind one dash, and the switch that still needs its value. -/
def letterParts (switches : List Switch) : List Char → List Part × Option String
  | [] => ([], none)
  | c :: cs =>
    match switches.find? (·.letter = some c) with
    | none => ([.wrong], none)
    | some s =>
      if s.value.isNone then
        let (parts, open?) := letterParts switches cs
        (.switch s.name none :: parts, open?)
      else match cs with
        | [] => ([], some s.name)
        | '=' :: value => ([.switch s.name (some (String.ofList value))], none)
        | value => ([.switch s.name (some (String.ofList value))], none)

/-- The part of a name behind two dashes, and the switch that still needs its value. -/
def nameParts (switches : List Switch) (text : List Char) : List Part × Option String :=
  let name := text.takeWhile (· ≠ '=')
  match switches.find? (·.name.toList = name), text.dropWhile (· ≠ '=') with
  | none, _ => ([.wrong], none)
  | some s, [] => if s.value.isNone then ([.switch s.name none], none) else ([], some s.name)
  | some s, _ :: value =>
    if s.value.isNone then ([.wrong], none)
    else ([.switch s.name (some (String.ofList value))], none)

/-- The parts of the arguments. `open?` is a switch that has to find its value first. -/
def Grammar.parts (g : Grammar) (open? : Option String) : List String → List Part
  | [] => if open?.isSome then [.wrong] else []
  | arg :: rest =>
    match open? with
    | some name =>
      if looksLikeSwitch arg then [.wrong] else .switch name (some arg) :: g.parts none rest
    | none =>
      match arg.toList with
      | ['-', '-'] => rest.map .operand
      | '-' :: '-' :: text =>
        let (parts, open?) := nameParts g.switches text
        parts ++ g.parts open? rest
      | '-' :: c :: cs =>
        let (parts, open?) := letterParts g.switches (c :: cs)
        parts ++ g.parts open? rest
      | _ => if arg ∈ g.commands then [.command arg rest] else .operand arg :: g.parts none rest

/-- Why a command line is not carried out. -/
inductive Stop where
  | help
  | version
  | misuse
deriving DecidableEq, Repr

/-- What a command line says. -/
structure Reading where
  /-- The switches that are set, with their values. -/
  set : List (String × String)
  operands : List String
  command : Option (String × List String)
deriving DecidableEq, Repr

/-- The value of a switch, if it is set. -/
def Reading.value? (r : Reading) (name : String) : Option String := r.set.lookup name

/-- Whether a switch is set. -/
def Reading.has (r : Reading) (name : String) : Bool := (r.value? name).isSome

/-- The reading with one more part. No switch is set twice, and there are no more operands than the
grammar has. -/
def Grammar.take (g : Grammar) (r : Reading) : Part → Except Stop Reading
  | .wrong => .error .misuse
  | .switch "help" _ => .error .help
  | .switch "version" _ => .error .version
  | .switch name value =>
    let kind := ((g.switches.find? (·.name = name)).bind (·.value)).getD .text
    let value := value.getD ""
    if r.has name ∨ !kind.admits value then .error .misuse
    else .ok { r with set := r.set ++ [(name, value)] }
  | .operand text =>
    match g.operands[r.operands.length]? with
    | some kind =>
      if kind.admits text then .ok { r with operands := r.operands ++ [text] } else .error .misuse
    | none => .error .misuse
  | .command name rest => .ok { r with command := some (name, rest) }

/-- What some arguments say. -/
def Grammar.read (g : Grammar) (args : List String) : Except Stop Reading := do
  let r ← (g.parts none args).foldlM g.take ⟨[], [], none⟩
  if r.operands.length = g.operands.length then .ok r else .error .misuse

end SchemaQuery.CommandLine
