import DocumentQuery.Config.Load
/-!
# Configuration from the environment

Four environment variables hold the settings. A variable that is not set leaves
its setting at the default.
-/

namespace DocumentQuery

abbrev Environment := String → Option String

namespace Environment

/-- The environment that sets the variables of a list, the first of a name
prevailing. -/
def ofList : List (String × String) → Environment
  | [], _ => none
  | (name, value) :: rest, key => if name = key then some value else ofList rest key

def orElse (environment other : Environment) : Environment :=
  fun key => environment key <|> other key

end Environment

namespace Config

def variableNames : List String :=
  ["DOCSQL_ROOT_ALIAS", "DOCSQL_ROOT_CONTAINER", "DOCSQL_JOIN_ALIAS", "DOCSQL_INDENT_WIDTH"]

/-- Loads a configuration from the environment. The indentation has to be a
number before anything is checked. -/
def ofEnvironment (environment : Environment) : Except ConfigError Config :=
  let key := "DOCSQL_INDENT_WIDTH"
  let text := (environment key).getD (toString default.indentWidth)
  match readWord text with
  | .error fault => .error (.notANumber key text fault)
  | .ok width =>
    check {
      rootAlias := (environment "DOCSQL_ROOT_ALIAS").getD default.rootAlias
      rootContainer := (environment "DOCSQL_ROOT_CONTAINER").getD default.rootContainer
      joinAlias := (environment "DOCSQL_JOIN_ALIAS").getD default.joinAlias
      indentWidth := width }

end Config

def numberMessage (key text : String) (fault : NumberFault) : String :=
  "Parse error for " ++ key ++ ": " ++ text ++ " - " ++ fault.message

end DocumentQuery
