import DocumentQuery.Text.Identifier
/-!
# Configuration

The aliases that new blocks are built with and the indentation that they are
printed with. A configuration from outside is checked before it is used:
aliases are printed without quotes and have to be identifiers, and the
indentation is bounded.
-/

namespace DocumentQuery

/-- The aliases and the layout of query blocks. -/
structure Config where
  rootAlias : String
  rootContainer : String
  /-- The base of the aliases of joined sources. -/
  joinAlias : String
  /-- The number of spaces by which nested queries are indented. -/
  indentWidth : Nat
deriving DecidableEq

namespace Config

def default : Config where
  rootAlias := "c"
  rootContainer := "root"
  joinAlias := "a"
  indentWidth := 4

def leastWidth : Nat := 1

def greatestWidth : Nat := 16

inductive Fault where
  | notAnIdentifier (aliasName : String)
  | widthOutOfRange
deriving DecidableEq

def Fault.message : Fault → String
  | .notAnIdentifier aliasName => "'" ++ aliasName ++ "' is not a valid alias"
  | .widthOutOfRange => "Indent width must be between 1 and 16"

def aliasFaults (field aliasName : String) : List (String × Fault) :=
  if Text.isIdentifier aliasName then [] else [(field, .notAnIdentifier aliasName)]

def widthFaults (width : Nat) : List (String × Fault) :=
  if leastWidth ≤ width ∧ width ≤ greatestWidth then []
  else [("indent_width", .widthOutOfRange)]

/-- The faulty settings by their names, in alphabetical order. -/
def faults (config : Config) : List (String × Fault) :=
  widthFaults config.indentWidth ++ aliasFaults "join_alias" config.joinAlias ++
    aliasFaults "root_alias" config.rootAlias ++
    aliasFaults "root_container" config.rootContainer

theorem faults_default : default.faults = [] := by
  decide

end Config

end DocumentQuery
