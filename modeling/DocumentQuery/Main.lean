import DocumentQuery.Command
import DocumentQuery.Command.Arguments
/-!
# The program

The program reads the files that its command line names and the environment,
runs the command, and prints what it answers. A file of the current directory
may set variables that the environment does not set.
-/

namespace DocumentQuery.Command

def fileText? (path : String) : IO (Option String) :=
  try return some (← IO.FS.readFile path) catch _ => return none

/-- The environment of the program, with the variables that a file adds. -/
def environment : IO Environment := do
  let file ← fileText? ".env"
  let assigned := (file.map EnvironmentFile.assignments).getD []
  let names := Config.variableNames ++ assigned.flatMap (·.variableNames)
  let given ← names.filterMapM fun name => do
    return (← IO.getEnv name).map (name, ·)
  return (Environment.ofList given).withFile file

def readRequest (arguments : Arguments) (planPath : String) : IO Request := do
  let config ←
    match arguments.configPath with
    | none => pure ConfigSource.environment
    | some path => pure (.file path (← fileText? path))
  return {
    planPath := planPath
    plan := ← fileText? planPath
    config := config
    environment := ← environment
    parameters := arguments.parameters
    inlineParameters := arguments.inlineParameters
    debugView := arguments.debugView }

def usage : String :=
  "usage: PLAN [--config FILE] [--param NAME=JSON]... [--inline-params] [--debug-view]"

def execute (words : List String) : IO UInt32 := do
  match (Arguments.ofWords? words).bind fun arguments =>
      arguments.planPath.map fun path => (arguments, path) with
  | none =>
    IO.eprintln usage
    return 2
  | some (arguments, planPath) =>
    match run (← readRequest arguments planPath) with
    | .ok output =>
      IO.print output
      return 0
    | .error failure =>
      IO.eprintln failure.message
      return failure.exitCode.toUInt32

end DocumentQuery.Command

def main (words : List String) : IO UInt32 :=
  DocumentQuery.Command.execute words
