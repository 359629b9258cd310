import DocumentQuery.Revision
import DocumentQuery.Proofs.Nesting
/-!
# Plain replacement

`Block.replace` replaces expressions in a block from the outside in and rebuilds
everything, without asking whether anything changed. An expression for which a
replacement is given gives way to it and is not looked into; any other one is
rebuilt from its parts. An array that is iterated over is made a source anew.
Positions, aliases, directions, flags, the bindings of the partition key and the
route of a point read stay.
-/

namespace DocumentQuery

section Replace

variable (f : Expr → Option Expr)

mutual

def Expr.replace : Expr → Expr
  | .constant value type => (f (.constant value type)).getD (.constant value type)
  | .parameter name type => (f (.parameter name type)).getD (.parameter name type)
  | .binary operator left right type =>
    (f (.binary operator left right type)).getD
      (.binary operator left.replace right.replace type)
  | .unary operator operand type =>
    (f (.unary operator operand type)).getD (.unary operator operand.replace type)
  | .property base name type =>
    (f (.property base name type)).getD (.property base.replace name type)
  | .item array index type =>
    (f (.item array index type)).getD (.item array.replace index.replace type)
  | .call function arguments type =>
    (f (.call function arguments type)).getD (.call function (replaceIn arguments) type)
  | .inlineArray items => (f (.inlineArray items)).getD (.inlineArray (replaceIn items))
  | .membership item values negated =>
    (f (.membership item values negated)).getD
      (.membership item.replace (replaceIn values) negated)
  | .subquery kind block => (f (.subquery kind block)).getD (.subquery kind block.replace)
  | .scalarReference aliasName type =>
    (f (.scalarReference aliasName type)).getD (.scalarReference aliasName type)
  | .objectReference entityType aliasName =>
    (f (.objectReference entityType aliasName)).getD (.objectReference entityType aliasName)
  | .fragment text => (f (.fragment text)).getD (.fragment text)

def replaceIn : List Expr → List Expr
  | [] => []
  | expression :: rest => expression.replace :: replaceIn rest

def replaceInOptional : Option Expr → Option Expr
  | none => none
  | some expression => some expression.replace

def Projected.replace : Projected → Projected
  | .scalar value => .scalar value.replace
  | .object entityType access => .object entityType access.replace

def replaceInEntries : List (Member × Projected) → List (Member × Projected)
  | [] => []
  | (member, projected) :: rest => (member, projected.replace) :: replaceInEntries rest

def replaceInColumns : List Column → List Column
  | [] => []
  | ⟨projected, aliasName⟩ :: rest => ⟨projected.replace, aliasName⟩ :: replaceInColumns rest

def Projection.replace : Projection → Projection
  | .pending ⟨entries⟩ => .pending ⟨replaceInEntries entries⟩
  | .frozen columns bindings => .frozen (replaceInColumns columns) bindings

/-- The source with replacements made in what it takes its rows from. -/
def Payload.replace (aliasName : String) (iterated : Bool) : Payload → Source
  | .root entityType container => ⟨.root entityType container, aliasName, iterated⟩
  | .select block => ⟨.select block.replace, aliasName, iterated⟩
  | .collection expression => .iterate expression.replace aliasName
  | .raw entityType text => ⟨.raw entityType text, aliasName, iterated⟩

def replaceInSources : List Source → List Source
  | [] => []
  | ⟨payload, aliasName, iterated⟩ :: rest =>
    payload.replace aliasName iterated :: replaceInSources rest

def replaceInSortKeys : List SortKey → List SortKey
  | [] => []
  | ⟨expression, ascending⟩ :: rest =>
    ⟨expression.replace, ascending⟩ :: replaceInSortKeys rest

def Block.replace : Block → Block
  | ⟨sources, projection, predicate, orderings, limit, offset, distinct, singleValue,
      keyBindings, pointRead⟩ =>
    ⟨replaceInSources sources, projection.replace, replaceInOptional predicate,
      replaceInSortKeys orderings, replaceInOptional limit, replaceInOptional offset, distinct,
      singleValue, keyBindings, pointRead⟩

end

theorem replaceIn_eq (expressions : List Expr) :
    replaceIn f expressions = expressions.map (Expr.replace f) := by
  induction expressions with
  | nil => rfl
  | cons expression rest ih => rw [replaceIn, ih, List.map_cons]

theorem replaceInEntries_eq (entries : List (Member × Projected)) :
    replaceInEntries f entries = entries.map fun entry => (entry.1, entry.2.replace f) := by
  induction entries with
  | nil => rfl
  | cons entry rest ih => rw [replaceInEntries, ih, List.map_cons]

theorem replaceInColumns_eq (columns : List Column) :
    replaceInColumns f columns =
      columns.map fun column => ⟨column.expression.replace f, column.aliasName⟩ := by
  induction columns with
  | nil => rfl
  | cons column rest ih =>
      cases column
      rw [replaceInColumns, ih, List.map_cons]

theorem replaceInSources_eq (sources : List Source) :
    replaceInSources f sources =
      sources.map fun source => source.payload.replace f source.aliasName source.iterated := by
  induction sources with
  | nil => rfl
  | cons source rest ih =>
      cases source
      rw [replaceInSources, ih, List.map_cons]

theorem replaceInSortKeys_eq (keys : List SortKey) :
    replaceInSortKeys f keys =
      keys.map fun key => ⟨key.expression.replace f, key.ascending⟩ := by
  induction keys with
  | nil => rfl
  | cons key rest ih =>
      cases key
      rw [replaceInSortKeys, ih, List.map_cons]

theorem Block.replace_eq (block : Block) :
    block.replace f =
      block.update (block.projection.replace f) (replaceInSources f block.sources)
        (replaceInOptional f block.predicate) (replaceInSortKeys f block.orderings)
        (replaceInOptional f block.limit) (replaceInOptional f block.offset) := by
  cases block
  rfl

end Replace

end DocumentQuery
