import DocumentQuery.Block
import DocumentQuery.Json.Equality
/-!
# Structural equality

Two expressions, or two blocks, are the same when they are built alike from the
same parts. Their constants are compared as JSON values, for which the order of
fields and the sign of zero do not count. Everything else is compared exactly,
the stated types included.
-/

namespace DocumentQuery

def sameBindings (a b : Mapping Nat) : Bool :=
  decide (a.entries = b.entries)

mutual

def Expr.same : Expr → Expr → Bool
  | .constant a t, .constant b u => a.same b && decide (t = u)
  | .parameter a t, .parameter b u => a == b && decide (t = u)
  | .binary o a c t, .binary p b d u =>
    decide (o = p) && a.same b && c.same d && decide (t = u)
  | .unary o a t, .unary p b u => decide (o = p) && a.same b && decide (t = u)
  | .property a n t, .property b m u => a.same b && n == m && decide (t = u)
  | .item a c t, .item b d u => a.same b && c.same d && decide (t = u)
  | .call f as t, .call g bs u => f == g && sameExprs as bs && decide (t = u)
  | .inlineArray as, .inlineArray bs => sameExprs as bs
  | .membership a as m, .membership b bs n => a.same b && sameExprs as bs && m == n
  | .subquery k a, .subquery l b => decide (k = l) && a.same b
  | .scalarReference a t, .scalarReference b u => a == b && decide (t = u)
  | .objectReference e a, .objectReference f b => e == f && a == b
  | .fragment a, .fragment b => a == b
  | _, _ => false

def sameExprs : List Expr → List Expr → Bool
  | [], [] => true
  | a :: as, b :: bs => a.same b && sameExprs as bs
  | _, _ => false

def sameOptional : Option Expr → Option Expr → Bool
  | none, none => true
  | some a, some b => a.same b
  | _, _ => false

def Projected.same : Projected → Projected → Bool
  | .scalar a, .scalar b => a.same b
  | .object e a, .object f b => e == f && a.same b
  | _, _ => false

/-- Whether the same positions are bound to the same in the same order. -/
def sameEntries : List (Member × Projected) → List (Member × Projected) → Bool
  | [], [] => true
  | (m, a) :: as, (n, b) :: bs => decide (m = n) && a.same b && sameEntries as bs
  | _, _ => false

def sameColumns : List Column → List Column → Bool
  | [], [] => true
  | ⟨a, x⟩ :: as, ⟨b, y⟩ :: bs => a.same b && x == y && sameColumns as bs
  | _, _ => false

def Projection.same : Projection → Projection → Bool
  | .pending ⟨as⟩, .pending ⟨bs⟩ => sameEntries as bs
  | .frozen as f, .frozen bs g => sameColumns as bs && sameBindings f g
  | _, _ => false

def Payload.same : Payload → Payload → Bool
  | .root e a, .root f b => e == f && a == b
  | .select a, .select b => a.same b
  | .collection a, .collection b => a.same b
  | .raw e a, .raw f b => e == f && a == b
  | _, _ => false

def sameSources : List Source → List Source → Bool
  | [], [] => true
  | ⟨p, x, i⟩ :: as, ⟨q, y, j⟩ :: bs => p.same q && x == y && i == j && sameSources as bs
  | _, _ => false

def sameSortKeys : List SortKey → List SortKey → Bool
  | [], [] => true
  | ⟨a, x⟩ :: as, ⟨b, y⟩ :: bs => a.same b && x == y && sameSortKeys as bs
  | _, _ => false

def sameKeyBindings : List KeyBinding → List KeyBinding → Bool
  | [], [] => true
  | ⟨a, x⟩ :: as, ⟨b, y⟩ :: bs => a.same b && x == y && sameKeyBindings as bs
  | _, _ => false

def Block.same : Block → Block → Bool
  | ⟨ss, p, w, os, l, f, d, v, ks, r⟩, ⟨ss', p', w', os', l', f', d', v', ks', r'⟩ =>
    sameSources ss ss' && p.same p' && sameOptional w w' && sameSortKeys os os' &&
      sameOptional l l' && sameOptional f f' && d == d' && v == v' &&
      sameKeyBindings ks ks' && decide (r = r')

end

/-- Whether an expression is one of a list, up to sameness. -/
def Expr.occursIn (expression : Expr) (list : List Expr) : Bool :=
  list.any expression.same

end DocumentQuery
