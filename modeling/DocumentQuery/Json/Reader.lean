import DocumentQuery.Json.Token
import DocumentQuery.Json.Tree
/-!
# Reading JSON texts

A text is read token by token. The arrays and objects that are still open form a
stack, and between two tokens the reader is at a `Stage` which says what may
follow. Only white space may stand after the value.
-/

namespace DocumentQuery.Json

/-- An open array or object that waits for a value; what it holds so far is in
reverse. -/
inductive Frame where
  | array (items : List Tree)
  | object (fields : List (Option String × Tree)) (name : Option String)

/-- What may follow, and what is open around it, from the inside out. -/
inductive Stage where
  | value (around : List Frame)
  | firstItem (around : List Frame)
  | firstName (around : List Frame)
  | nextName (fields : List (Option String × Tree)) (around : List Frame)
  | afterName (fields : List (Option String × Tree)) (name : Option String) (around : List Frame)
  | afterItem (items : List Tree) (around : List Frame)
  | afterField (fields : List (Option String × Tree)) (around : List Frame)
  | complete (tree : Tree)

def place (tree : Tree) : List Frame → Stage
  | [] => .complete tree
  | .array items :: around => .afterItem (tree :: items) around
  | .object fields name :: around => .afterField ((name, tree) :: fields) around

def startValue? (around : List Frame) : Token → Option Stage
  | .null => some (place .null around)
  | .bool b => some (place (.bool b) around)
  | .number n => some (place (.number n) around)
  | .string s => some (place (.string s) around)
  | .openArray => some (.firstItem around)
  | .openObject => some (.firstName around)
  | _ => none

def advance? : Stage → Token → Option Stage
  | .value around, token => startValue? around token
  | .firstItem around, .closeArray => some (place (.array []) around)
  | .firstItem around, token => startValue? (.array [] :: around) token
  | .firstName around, .closeObject => some (place (.object []) around)
  | .firstName around, .string name => some (.afterName [] name around)
  | .nextName fields around, .string name => some (.afterName fields name around)
  | .afterName fields name around, .colon => some (.value (.object fields name :: around))
  | .afterItem items around, .comma => some (.value (.array items :: around))
  | .afterItem items around, .closeArray => some (place (.array items.reverse) around)
  | .afterField fields around, .comma => some (.nextName fields around)
  | .afterField fields around, .closeObject => some (place (.object fields.reverse) around)
  | _, _ => none

def treeFrom? : Stage → List Token → Option Tree
  | .complete tree, [] => some tree
  | _, [] => none
  | stage, token :: rest =>
    match advance? stage token with
    | none => none
    | some next => treeFrom? next rest

end DocumentQuery.Json

namespace DocumentQuery

def Tree.ofText? (text : String) : Option Tree :=
  (Json.tokens? text).bind (Json.treeFrom? (.value []))

def Json.nestingLimit : Nat := 127

/-- The value of a text; `none` if the text is not JSON, if it nests too deep,
or if some part of it has no value. -/
def Json.ofText? (text : String) : Option Json :=
  (Tree.ofText? text).bind (Tree.toJson? Json.nestingLimit)

end DocumentQuery
