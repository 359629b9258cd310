import DocumentQuery.Revision.Rule
import DocumentQuery.Proofs.Nesting
/-!
# The expressions that a revision comes to

A revision comes to the expressions of a block in a fixed order: those that are
put out first, then the arrays that are iterated over and what stands in nested
sources, the predicate, the sort keys, the offset and the limit; within an
expression first the expression itself, then its parts from left to right and
the block of a subquery. It does not go on into an expression that stops it, so
that the parts of what is replaced are not reached.
-/

namespace DocumentQuery

section Reached

variable (stops : Expr → Bool)

/-- An expression and what is reached in it, unless it stops the revision. -/
def onward (expression : Expr) (inside : List Expr) : List Expr :=
  expression :: if stops expression then [] else inside

mutual

/-- The expressions that are reached in an expression, itself included. -/
def Expr.reached : Expr → List Expr
  | .constant value type => onward stops (.constant value type) []
  | .parameter name type => onward stops (.parameter name type) []
  | .binary operator left right type =>
    onward stops (.binary operator left right type) (left.reached ++ right.reached)
  | .unary operator operand type => onward stops (.unary operator operand type) operand.reached
  | .property base name type => onward stops (.property base name type) base.reached
  | .item array index type =>
    onward stops (.item array index type) (array.reached ++ index.reached)
  | .call function arguments type =>
    onward stops (.call function arguments type) (reachedIn arguments)
  | .inlineArray items => onward stops (.inlineArray items) (reachedIn items)
  | .membership item values negated =>
    onward stops (.membership item values negated) (item.reached ++ reachedIn values)
  | .subquery kind block => onward stops (.subquery kind block) block.reached
  | .scalarReference aliasName type => onward stops (.scalarReference aliasName type) []
  | .objectReference entityType aliasName =>
    onward stops (.objectReference entityType aliasName) []
  | .fragment text => onward stops (.fragment text) []

def reachedIn : List Expr → List Expr
  | [] => []
  | expression :: rest => expression.reached ++ reachedIn rest

def reachedInOptional : Option Expr → List Expr
  | none => []
  | some expression => expression.reached

def Projected.reached : Projected → List Expr
  | .scalar value => value.reached
  | .object _ access => access.reached

def reachedInEntries : List (Member × Projected) → List Expr
  | [] => []
  | (_, projected) :: rest => projected.reached ++ reachedInEntries rest

def reachedInColumns : List Column → List Expr
  | [] => []
  | ⟨projected, _⟩ :: rest => projected.reached ++ reachedInColumns rest

def Projection.reached : Projection → List Expr
  | .pending ⟨entries⟩ => reachedInEntries entries
  | .frozen columns _ => reachedInColumns columns

def Payload.reached : Payload → List Expr
  | .root _ _ => []
  | .select block => block.reached
  | .collection expression => expression.reached
  | .raw _ _ => []

def reachedInSources : List Source → List Expr
  | [] => []
  | ⟨payload, _, _⟩ :: rest => payload.reached ++ reachedInSources rest

def reachedInSortKeys : List SortKey → List Expr
  | [] => []
  | ⟨expression, _⟩ :: rest => expression.reached ++ reachedInSortKeys rest

def Block.reached : Block → List Expr
  | ⟨sources, projection, predicate, orderings, limit, offset, _, _, _, _⟩ =>
    projection.reached ++ reachedInSources sources ++ reachedInOptional predicate ++
      reachedInSortKeys orderings ++ reachedInOptional offset ++ reachedInOptional limit

end

theorem reachedIn_eq (expressions : List Expr) :
    reachedIn stops expressions = expressions.flatMap (Expr.reached stops) := by
  induction expressions with
  | nil => rfl
  | cons expression rest ih => rw [reachedIn, ih, List.flatMap_cons]

theorem Projected.reached_eq (projected : Projected) :
    projected.reached stops = projected.expression.reached stops := by
  cases projected <;> rfl

theorem reachedInEntries_eq (entries : List (Member × Projected)) :
    reachedInEntries stops entries = entries.flatMap (·.2.expression.reached stops) := by
  induction entries with
  | nil => rfl
  | cons entry rest ih => rw [reachedInEntries, ih, List.flatMap_cons, Projected.reached_eq]

theorem reachedInColumns_eq (columns : List Column) :
    reachedInColumns stops columns = columns.flatMap (·.expression.expression.reached stops) := by
  induction columns with
  | nil => rfl
  | cons column rest ih =>
      cases column
      rw [reachedInColumns, ih, List.flatMap_cons, Projected.reached_eq]

theorem reachedInSources_eq (sources : List Source) :
    reachedInSources stops sources = sources.flatMap (·.payload.reached stops) := by
  induction sources with
  | nil => rfl
  | cons source rest ih =>
      cases source
      rw [reachedInSources, ih, List.flatMap_cons]

theorem reachedInSortKeys_eq (keys : List SortKey) :
    reachedInSortKeys stops keys = keys.flatMap (·.expression.reached stops) := by
  induction keys with
  | nil => rfl
  | cons key rest ih =>
      cases key
      rw [reachedInSortKeys, ih, List.flatMap_cons]

theorem Block.reached_eq (block : Block) :
    block.reached stops =
      block.projection.reached stops ++ reachedInSources stops block.sources ++
        reachedInOptional stops block.predicate ++ reachedInSortKeys stops block.orderings ++
          reachedInOptional stops block.offset ++ reachedInOptional stops block.limit := by
  cases block
  rfl

end Reached

end DocumentQuery
