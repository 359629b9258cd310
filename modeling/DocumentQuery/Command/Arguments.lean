/-!
# The command line

The command line names the plan, and says with options which configuration to
use, which values the parameters have, and what to print. An option that takes a
value has it in the same word after an equals sign, or as the next word. After a
word of two hyphens there are no options any more.

`Arguments.ofWords?` reads the words of a command line, and refuses those that
do not name exactly one plan.
-/

namespace DocumentQuery.Command

inductive Word where
  | path (text : String)
  | option (name : String)
  | assignment (name value : String)
  | separator

def Word.ofOption (text : List Char) : Word :=
  match text.dropWhile (· != '=') with
  | [] => .option (String.ofList text)
  | _ :: value => .assignment (String.ofList (text.takeWhile (· != '='))) (String.ofList value)

/-- Reads a word; `none` if it begins as an option but has no name of one. A
single hyphen is a path. -/
def Word.ofText? (text : String) : Option Word :=
  match text.toList with
  | ['-', '-'] => some .separator
  | '-' :: '-' :: rest => some (.ofOption rest)
  | ['-'] => some (.path text)
  | '-' :: _ => none
  | _ => some (.path text)

structure Arguments where
  planPath : Option String := none
  configPath : Option String := none
  parameters : List String := []
  inlineParameters : Bool := false
  debugView : Bool := false

namespace Arguments

/-- The path that replaces none. No path is empty. -/
def firstPath? (current : Option String) (path : String) : Option String :=
  if path.isEmpty then none
  else
    match current with
    | none => some path
    | some _ => none

def addPath? (arguments : Arguments) (path : String) : Option Arguments :=
  (firstPath? arguments.planPath path).map fun path => { arguments with planPath := some path }

def addValue? (arguments : Arguments) (name value : String) : Option Arguments :=
  match name with
  | "config" =>
    (firstPath? arguments.configPath value).map fun path =>
      { arguments with configPath := some path }
  | "param" => some { arguments with parameters := arguments.parameters ++ [value] }
  | _ => none

def addSwitch? (arguments : Arguments) (name : String) : Option Arguments :=
  match name with
  | "inline-params" =>
    if arguments.inlineParameters then none else some { arguments with inlineParameters := true }
  | "debug-view" =>
    if arguments.debugView then none else some { arguments with debugView := true }
  | _ => none

def addPaths? : Arguments → List String → Option Arguments
  | arguments, [] => some arguments
  | arguments, path :: rest => (arguments.addPath? path).bind (addPaths? · rest)

def addWords? : Arguments → List String → Option Arguments
  | arguments, [] => some arguments
  | arguments, word :: rest =>
    match Word.ofText? word with
    | none => none
    | some .separator => arguments.addPaths? rest
    | some (.path path) => (arguments.addPath? path).bind (addWords? · rest)
    | some (.assignment name value) => (arguments.addValue? name value).bind (addWords? · rest)
    | some (.option name) =>
      match arguments.addSwitch? name with
      | some arguments => addWords? arguments rest
      | none =>
        match rest with
        | [] => none
        | value :: rest =>
          match Word.ofText? value with
          | some (.path value) => (arguments.addValue? name value).bind (addWords? · rest)
          | _ => none

/-- The arguments that the words of a command line are, if a plan is among
them. -/
def ofWords? (words : List String) : Option Arguments :=
  (addWords? {} words).filter (·.planPath.isSome)

end Arguments

end DocumentQuery.Command
