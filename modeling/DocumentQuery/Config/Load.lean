import DocumentQuery.Config
import DocumentQuery.Json.Decode
import DocumentQuery.PlanFile.Write
/-!
# Loading configurations

A configuration is put together from settings that are given as JSON or as
environment variables, with defaults for those that are missing, and is then
checked. Whole numbers in environment variables are read digit by digit, and the
first thing that is wrong decides on the message.
-/

namespace DocumentQuery

inductive NumberFault where
  | empty
  | invalidDigit
  | tooLarge
deriving DecidableEq

def NumberFault.message : NumberFault → String
  | .empty => "cannot parse integer from empty string"
  | .invalidDigit => "invalid digit found in string"
  | .tooLarge => "number too large to fit in target type"

def greatestWord : Nat := Nat.pow 2 64 - 1

def readDigits (n : Nat) : List Char → Except NumberFault Nat
  | [] => .ok n
  | c :: rest =>
    if !c.isDigit then .error .invalidDigit
    else if n * 10 + (c.toNat - 48) ≤ greatestWord then readDigits (n * 10 + (c.toNat - 48)) rest
    else .error .tooLarge

/-- Reads a whole number, which may have a plus sign. -/
def readWord (text : String) : Except NumberFault Nat :=
  match text.toList with
  | [] => .error .empty
  | ['+'] => .error .invalidDigit
  | '+' :: digits => readDigits 0 digits
  | digits => readDigits 0 digits

inductive ConfigError where
  | notANumber (key text : String) (fault : NumberFault)
  | unreadableFile
  | malformedFile (text : String)
  | malformedJson
  | invalid (faults : List (String × Config.Fault))

namespace Config

def settingNames : List String := ["root_alias", "root_container", "join_alias", "indent_width"]

def check (config : Config) : Except ConfigError Config :=
  match config.faults with
  | [] => .ok config
  | faults => .error (.invalid faults)

/-- Reads a configuration, which is not checked yet. -/
def read? : Nat → Tree → Option Config
  | _ + 1, tree =>
    match readSparse? settingNames tree with
    | some [rootAlias, rootContainer, joinAlias, indentWidth] => do
      return {
        rootAlias := ← readOr? default.rootAlias Tree.string? rootAlias
        rootContainer := ← readOr? default.rootContainer Tree.string? rootContainer
        joinAlias := ← readOr? default.joinAlias Tree.string? joinAlias
        indentWidth := ← readOr? default.indentWidth Tree.natural? indentWidth }
    | _ => none
  | 0, _ => none

def ofJson? (json : Json) : Option Config :=
  let tree := Tree.ofJson json
  read? tree.depth tree

def load (json : Json) : Except ConfigError Config :=
  match ofJson? json with
  | some config => config.check
  | none => .error .malformedJson

def toJson (config : Config) : Json :=
  .object [("root_alias", .string config.rootAlias),
    ("root_container", .string config.rootContainer), ("join_alias", .string config.joinAlias),
    ("indent_width", .ofNat config.indentWidth)]

end Config

end DocumentQuery
