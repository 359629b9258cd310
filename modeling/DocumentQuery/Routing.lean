import DocumentQuery.Json.Printer
import DocumentQuery.Revision.Inline
import DocumentQuery.Text.Lines
/-!
# Routing

A query that binds the partition key runs on a single partition, and one that
binds the whole key of a document need not run at all: the document is read
directly. Both keys are computed from the values of the parameters.
-/

namespace DocumentQuery

inductive PartitionKey where
  | unbound
  /-- The parts of the key in the order in which they were bound. -/
  | composite (values : List Json)

def PartitionKey.text : PartitionKey → String
  | .unbound => "(none)"
  | .composite values => "[" ++ Text.commaSeparated (values.map Json.compact) ++ "]"

/-- The value of a part of the partition key: that of a constant or a parameter,
and null if it is not known. -/
def KeyBinding.resolve (values : Values) (binding : KeyBinding) : Json :=
  match binding.value with
  | .constant value _ => value
  | .parameter name _ => (values name).getD .null
  | _ => .null

def Block.partitionKey (values : Values) (block : Block) : PartitionKey :=
  match block.keyBindings with
  | [] => .unbound
  | bindings => .composite (bindings.map (KeyBinding.resolve values))

/-- The values of key properties; `none` if a parameter has no value. -/
def resolveKeys (values : Values) : List (String × String) → Option (List (String × Json))
  | [] => some []
  | (property, parameter) :: rest =>
    match values parameter, resolveKeys values rest with
    | some value, some keys => some ((property, value) :: keys)
    | _, _ => none

def PointRead.resolve (values : Values) (pointRead : PointRead) : Option (List (String × Json)) :=
  resolveKeys values pointRead.keys

end DocumentQuery
