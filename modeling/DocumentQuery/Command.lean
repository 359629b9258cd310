import DocumentQuery.Block.Validate
import DocumentQuery.Config.EnvironmentFile
import DocumentQuery.Config.Yaml
import DocumentQuery.PlanFile.Read
import DocumentQuery.Routing
import DocumentQuery.Walk
/-!
# The command

The command reads a plan from a file, checks it, and prints its query text. It
then says which parameters are without a value, which partition the query
addresses, and which document a point read reads. The values of parameters are
given on the command line; on request they are written into the text.

`Command.run` is the whole command apart from input and output. What can go
wrong is looked for in a fixed order: the parameters, the configuration, the
file, its form, and the validity of the plan.
-/

namespace DocumentQuery.Command

inductive ConfigSource where
  | environment
  /-- A file with its text, which is absent if the file cannot be read. -/
  | file (path : String) (text : Option String)

structure Request where
  planPath : String
  /-- The text of the plan, absent if the file cannot be read. -/
  plan : Option String
  config : ConfigSource
  environment : Environment
  parameters : List String
  inlineParameters : Bool
  debugView : Bool

inductive ParameterFault where
  | noEqualsSign (argument : String)
  | noName (argument : String)

def ParameterFault.message : ParameterFault → String
  | .noEqualsSign argument => "expected name=<json>, got '" ++ argument ++ "'"
  | .noName argument => "missing parameter name in '" ++ argument ++ "'"

def splitAtEquals? : List Char → Option (List Char × List Char)
  | [] => none
  | c :: rest =>
    if c = '=' then some ([], rest)
    else (splitAtEquals? rest).map fun parts => (c :: parts.1, parts.2)

/-- Reads a parameter with its value. The name may have the sign that it has in
query text; a value that is not JSON is a text. -/
def readParameter (argument : String) : Except ParameterFault (String × Json) :=
  match splitAtEquals? argument.toList with
  | none => .error (.noEqualsSign argument)
  | some (name, value) =>
    match (Text.trimBlank name).dropWhile (· == '@') with
    | [] => .error (.noName argument)
    | name =>
      let value := String.ofList value
      .ok (String.ofList name, (Json.ofText? value).getD (.string value))

def readParameters : List String → Except ParameterFault (List (String × Json))
  | [] => .ok []
  | argument :: rest =>
    match readParameter argument with
    | .error fault => .error fault
    | .ok parameter =>
      match readParameters rest with
      | .error fault => .error fault
      | .ok parameters => .ok (parameter :: parameters)

inductive Failure where
  | parameter (fault : ParameterFault)
  | configuration (place : String) (error : ConfigError)
  | unreadablePlan (path : String)
  | malformedPlan (path : String)
  | invalidPlan (error : PlanError)
  | revision (error : PlanError)

/-- The exit code of a failure: two for a faulty command line, one otherwise. -/
def Failure.exitCode : Failure → Nat
  | .parameter _ => 2
  | _ => 1

def Failure.message : Failure → String
  | .parameter fault => fault.message
  | .configuration place _ => "loading configuration from " ++ place
  | .unreadablePlan path => "reading " ++ path
  | .malformedPlan path => "parsing query block from " ++ path
  | .invalidPlan error => "query block failed validation: " ++ error.message
  | .revision error => error.message

def loadConfig (request : Request) : Except Failure Config :=
  match request.config with
  | .environment =>
    (Config.ofEnvironment request.environment).mapError (.configuration "environment")
  | .file path text => (Config.ofFile text).mapError (.configuration path)

def loadPlan (request : Request) : Except Failure Block :=
  match request.plan with
  | none => .error (.unreadablePlan request.planPath)
  | some text =>
    match Block.ofText? text with
    | none => .error (.malformedPlan request.planPath)
    | some block =>
      match block.validate with
      | .error error => .error (.invalidPlan error)
      | .ok () => .ok block

def unboundLine (values : Values) (block : Block) : List String :=
  match block.parameterNames.filter fun name => (values name).isNone with
  | [] => []
  | names => ["-- unbound parameters: " ++ Text.commaSeparated (names.map ("@" ++ ·))]

def partitionLine (values : Values) (block : Block) : String :=
  "-- partition key: " ++ (block.partitionKey values).text

/-- The line about the document that is read, if its whole key is known. -/
def pointReadLine (values : Values) (block : Block) : List String :=
  match block.pointRead with
  | none => []
  | some pointRead =>
    match pointRead.resolve values with
    | none => []
    | some keys =>
      ["-- point read of " ++ pointRead.entityType ++ ": " ++
        Text.commaSeparated (keys.map fun key => key.1 ++ "=" ++ key.2.compact)]

def report (config : Config) (values : Values) (debugView : Bool) (block : Block) : List String :=
  [if debugView then block.debugView config.indentWidth else block.render config.indentWidth] ++
    unboundLine values block ++ [partitionLine values block] ++ pointReadLine values block

def run (request : Request) : Except Failure String := do
  let parameters ← (readParameters request.parameters).mapError .parameter
  let config ← loadConfig request
  let block ← loadPlan request
  let values := Values.ofList parameters
  let block ←
    if request.inlineParameters then (block.inline values).mapError .revision else .ok block
  return String.join ((report config values request.debugView block).map (· ++ "\n"))

end DocumentQuery.Command
