import DocumentQuery.Revision.Rule
/-!
# Inlining parameters

Parameters for which a value is known are replaced by the value as a constant.
The bindings of the partition key and the route of a point read are not part of
the query text and keep their parameters.
-/

namespace DocumentQuery

abbrev Values := String → Option Json

/-- The values of a list of pairs, of which a later one prevails over an earlier
one. -/
def Values.ofList : List (String × Json) → Values
  | [], _ => none
  | (name, value) :: rest, parameter =>
    match Values.ofList rest parameter with
    | some later => some later
    | none => if name = parameter then some value else none

def inlined? (values : Values) : Expr → Option Expr
  | .parameter name _ => (values name).map Expr.ofJson
  | _ => none

def inliner (values : Values) : Rule :=
  .replacing (inlined? values)

/-- The block with the known parameters replaced; `none` if there are none. -/
def Block.inline? (values : Values) (block : Block) : Except PlanError (Option Block) :=
  (block.visit (inliner values).visitor ()).1

def Block.inline (values : Values) (block : Block) : Except PlanError Block :=
  (block.inline? values).map (·.getD block)

end DocumentQuery
