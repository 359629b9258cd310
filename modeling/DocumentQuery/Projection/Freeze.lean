import DocumentQuery.Alias
import DocumentQuery.Block.Equality
import DocumentQuery.Expr
/-!
# Freezing a projection

Freezing makes columns of what the shape positions are bound to, in the order in
which they were bound. What is bound to several positions becomes one column. A
column is named after the position if that ends with a field, else after the
expression, else by a default, and a number is added if the name is taken.
-/

namespace DocumentQuery

/-- The alias of a column that neither its position nor its expression names. -/
def defaultColumnAlias : String := "c"

def columnOf? (expression : Projected) : List Column → Option Nat
  | [] => none
  | column :: rest =>
    if column.expression.same expression then some 0 else (columnOf? expression rest).map (· + 1)

def newColumn (columns : List Column) (expression : Projected) (name : Option String)
    (fallback : String) : Column where
  expression := expression
  aliasName :=
    Alias.fresh ((name <|> expression.accessName?).getD fallback) (columns.map (·.aliasName))

/-- Provides a column for an expression: one that shows the same, or else a new
one at the end. The number of the column is returned with the columns. -/
def pushColumn (columns : List Column) (expression : Projected) (name : Option String)
    (fallback : String) : Nat × List Column :=
  match columnOf? expression columns with
  | some number => (number, columns)
  | none => (columns.length, columns ++ [newColumn columns expression name fallback])

/-- Provides columns for bound positions one after the other, each named after
its position, and notes the numbers of the columns. -/
def freezeFrom (fallback : String) (columns : List Column) (bindings : Mapping Nat) :
    List (Member × Projected) → List Column × Mapping Nat
  | [] => (columns, bindings)
  | (member, expression) :: rest =>
    let (number, columns) := pushColumn columns expression member.lastName? fallback
    freezeFrom fallback columns (bindings.insert member number).2 rest

namespace Projection

def freeze (fallback : String) : Projection → Projection
  | .pending mapping =>
    let (columns, bindings) := freezeFrom fallback [] .empty mapping.entries
    .frozen columns bindings
  | .frozen columns bindings => .frozen columns bindings

def clearMapping : Projection → Projection
  | .pending _ => .pending .empty
  | .frozen columns _ => .frozen columns .empty

inductive Binding where
  | expression (projected : Projected)
  | column (number : Nat)

def binding? (projection : Projection) (member : Member) : Option Binding :=
  match projection with
  | .pending mapping => (mapping.get? member).map .expression
  | .frozen _ bindings => (bindings.get? member).map .column

@[simp] theorem freeze_frozen (fallback : String) (columns : List Column)
    (bindings : Mapping Nat) :
    (Projection.frozen columns bindings).freeze fallback = .frozen columns bindings := rfl

theorem isFrozen_freeze (fallback : String) (projection : Projection) :
    (projection.freeze fallback).isFrozen = true := by
  cases projection <;> rfl

@[simp] theorem freeze_freeze (a b : String) (projection : Projection) :
    (projection.freeze a).freeze b = projection.freeze a := by
  cases projection <;> rfl

end Projection

end DocumentQuery
