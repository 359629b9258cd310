import DocumentQuery.Yaml.Scalar
/-!
# Nodes and references to them

A node is a scalar or a collection. What a collection within another one holds
is not kept, because nobody asks for it.

In the place of a node there may be a reference to one that has an anchor.
References go by number. An anchor gets the number of different names that were
given before it, its own included if it was. A name that is given again thus
shares its new number with the next new name. A reference takes the number that
its name has where it stands, but the node is the last one with that number in
the whole document. It can therefore be told only at the end.
-/

namespace DocumentQuery.Yaml

inductive Node where
  | scalar (scalar : Scalar)
  | collection

def Node.absent : Node := .scalar .absent

/-- What is written in the place of a node: a node, or a reference by number. -/
inductive Written where
  | node (node : Node)
  | reference (number : Nat)

def Written.absent : Written := .node .absent

/-- The anchors of a document so far: the numbers of their names, each name
once, and the nodes with their numbers, the last one first. -/
structure Anchors where
  numbers : List (List Char × Nat)
  nodes : List (Nat × Node)

namespace Anchors

def empty : Anchors := ⟨[], []⟩

def add (anchors : Anchors) (name : List Char) (node : Node) : Anchors :=
  let number := anchors.numbers.length
  { numbers := (name, number) :: anchors.numbers.filter (·.1 != name)
    nodes := (number, node) :: anchors.nodes }

def reference? (anchors : Anchors) (name : List Char) : Option Written :=
  (anchors.numbers.lookup name).map .reference

def resolve? (anchors : Anchors) : Written → Option Node
  | .node node => some node
  | .reference number => anchors.nodes.lookup number

@[simp] theorem resolve?_node (anchors : Anchors) (node : Node) :
    anchors.resolve? (.node node) = some node := rfl

/-- As long as no other anchor follows, a reference stands for the node that got
its name last. -/
theorem resolve?_add (anchors : Anchors) (name : List Char) (node : Node) :
    ((anchors.add name node).reference? name).bind (anchors.add name node).resolve? =
      some node := by
  simp [add, reference?, resolve?]

end Anchors

end DocumentQuery.Yaml
