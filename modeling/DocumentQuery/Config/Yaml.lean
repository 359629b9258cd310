import DocumentQuery.Config.Load
import DocumentQuery.Json.Token
import DocumentQuery.Yaml.Node
/-!
# Configuration files

A configuration file is a YAML text that consists of a mapping. A setting that
is a text takes every scalar as it is written; one that is a whole number takes
only a plain scalar, or a literal one with the tag of whole numbers. Entries
with other keys are passed over.
-/

namespace DocumentQuery.Config

def digitsInBase? (base : Nat) (digits : List Char) : Option Nat :=
  if digits.isEmpty then none
  else
    digits.foldl
      (fun n c =>
        match n, Json.hexValue? c with
        | some n, some digit => if digit < base then some (n * base + digit) else none
        | _, _ => none)
      (some 0)

/-- The whole number that a plain scalar is. Several digits do not begin with
zero, and a base of sixteen, eight or two can be given. -/
def plainNumber? (text : List Char) : Option Nat :=
  let digits :=
    match text with
    | '+' :: rest => rest
    | _ => text
  let value :=
    match digits with
    | '0' :: 'x' :: rest => digitsInBase? 16 rest
    | '0' :: 'o' :: rest => digitsInBase? 8 rest
    | '0' :: 'b' :: rest => digitsInBase? 2 rest
    | '0' :: _ :: _ => none
    | _ => digitsInBase? 10 digits
  value.filter (· ≤ greatestWord)

def numberTag : List Char := "tag:yaml.org,2002:int".toList

def nodeText? : Yaml.Node → Option String
  | .scalar scalar => some (String.ofList scalar.text)
  | .collection => none

def nodeNumber? : Yaml.Node → Option Nat
  | .scalar scalar =>
    if scalar.style == .plain || (scalar.style == .literal && scalar.tag == some numberTag) then
      plainNumber? scalar.text
    else none
  | .collection => none

/-- The setting of a name; the default if it is absent, and `none` if it is
given twice or cannot be read. -/
def setting? {α : Type} (default : α) (read : Yaml.Node → Option α) (name : String)
    (entries : List (String × Yaml.Node)) : Option α :=
  match entries.filter fun entry => entry.1 == name with
  | [] => some default
  | [(_, node)] => read node
  | _ => none

def ofEntries? (entries : Yaml.Entries) : Option Config := do
  let named ← entries.mapM fun entry => do return (← nodeText? entry.1, entry.2)
  return {
    rootAlias := ← setting? default.rootAlias nodeText? "root_alias" named
    rootContainer := ← setting? default.rootContainer nodeText? "root_container" named
    joinAlias := ← setting? default.joinAlias nodeText? "join_alias" named
    indentWidth := ← setting? default.indentWidth nodeNumber? "indent_width" named }

def ofFile : Option String → Except ConfigError Config
  | none => .error .unreadableFile
  | some text =>
    match (Yaml.document? text.toList).bind ofEntries? with
    | some config => config.check
    | none => .error (.malformedFile text)

end DocumentQuery.Config
