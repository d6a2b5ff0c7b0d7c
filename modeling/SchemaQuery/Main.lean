import SchemaQuery.CommandLine.Run

/-!
The program: it reads the files that its arguments name, and prints what comes of them.
-/

namespace SchemaQuery.CommandLine

/-- A file as it is found on disk. -/
def File.read (path : String) : IO File := do
  match ← (IO.FS.readFile path).toBaseIO with
  | .ok content => return .text content
  | .error (.noFileOrDirectory ..) => return .absent
  | .error _ => return .unreadable

/-- The path of the configuration. -/
def Invocation.configPath (i : Invocation) : IO String := do
  match i.config with
  | some path => return path
  | none => return (← IO.getEnv "HOME").getD "." ++ "/" ++ usualConfig

/-- Prints how the program ends, and gives its exit code. -/
def Ending.print (e : Ending) : IO UInt32 := do
  match e with
  | .printed text => IO.print text
  | .failed error => IO.eprintln ("Error: " ++ error.report)
  | .misused => IO.eprint help
  return UInt32.ofNat e.code

/-- Carries out the arguments of the program. -/
def carryOut (args : List String) : IO UInt32 := do
  match Invocation.read args with
  | .error stop => stop.ending.print
  | .ok i =>
    let config ← File.read (← i.configPath)
    let schema ← File.read i.command.schema
    (i.ending config schema).print

end SchemaQuery.CommandLine

def main (args : List String) : IO UInt32 := SchemaQuery.CommandLine.carryOut args
