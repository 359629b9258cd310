import DocumentQuery.Block.Equality
/-!
# Sameness is an equivalence

Two expressions, or two blocks, are the same exactly if they become equal when
their constants are brought into canonical form (`Expr.same_iff`,
`Block.same_iff`). The proof goes through the parts of both at once, so there is
one canonical form and one lemma for each kind of part; that sameness is an
equivalence needs no induction after it.
-/

namespace DocumentQuery

/-! ## Canonical forms -/

mutual

/-- An expression with every constant in it in canonical form. -/
def Expr.canonical : Expr → Expr
  | .constant value type => .constant value.canonical type
  | .parameter name type => .parameter name type
  | .binary operator left right type => .binary operator left.canonical right.canonical type
  | .unary operator operand type => .unary operator operand.canonical type
  | .property base name type => .property base.canonical name type
  | .item array index type => .item array.canonical index.canonical type
  | .call function arguments type => .call function (canonicalExprs arguments) type
  | .inlineArray items => .inlineArray (canonicalExprs items)
  | .membership item values negated =>
    .membership item.canonical (canonicalExprs values) negated
  | .subquery kind block => .subquery kind block.canonical
  | .scalarReference aliasName type => .scalarReference aliasName type
  | .objectReference entityType aliasName => .objectReference entityType aliasName
  | .fragment text => .fragment text

def canonicalExprs : List Expr → List Expr
  | [] => []
  | expression :: rest => expression.canonical :: canonicalExprs rest

def canonicalOptional : Option Expr → Option Expr
  | none => none
  | some expression => some expression.canonical

def Projected.canonical : Projected → Projected
  | .scalar value => .scalar value.canonical
  | .object entityType access => .object entityType access.canonical

def canonicalEntries : List (Member × Projected) → List (Member × Projected)
  | [] => []
  | (member, projected) :: rest => (member, projected.canonical) :: canonicalEntries rest

def canonicalColumns : List Column → List Column
  | [] => []
  | ⟨projected, aliasName⟩ :: rest => ⟨projected.canonical, aliasName⟩ :: canonicalColumns rest

def Projection.canonical : Projection → Projection
  | .pending ⟨entries⟩ => .pending ⟨canonicalEntries entries⟩
  | .frozen columns bindings => .frozen (canonicalColumns columns) bindings

def Payload.canonical : Payload → Payload
  | .root entityType container => .root entityType container
  | .select block => .select block.canonical
  | .collection expression => .collection expression.canonical
  | .raw entityType text => .raw entityType text

def canonicalSources : List Source → List Source
  | [] => []
  | ⟨payload, aliasName, iterated⟩ :: rest =>
    ⟨payload.canonical, aliasName, iterated⟩ :: canonicalSources rest

def canonicalSortKeys : List SortKey → List SortKey
  | [] => []
  | ⟨expression, ascending⟩ :: rest =>
    ⟨expression.canonical, ascending⟩ :: canonicalSortKeys rest

def canonicalKeyBindings : List KeyBinding → List KeyBinding
  | [] => []
  | ⟨value, property⟩ :: rest => ⟨value.canonical, property⟩ :: canonicalKeyBindings rest

/-- A block with every constant in it in canonical form. -/
def Block.canonical : Block → Block
  | ⟨sources, projection, predicate, orderings, limit, offset, distinct, singleValue,
      keyBindings, pointRead⟩ =>
    ⟨canonicalSources sources, projection.canonical, canonicalOptional predicate,
      canonicalSortKeys orderings, canonicalOptional limit, canonicalOptional offset, distinct,
      singleValue, canonicalKeyBindings keyBindings, pointRead⟩

end

/-! ## Lists of canonical forms -/

theorem canonicalExprs_eq_map (expressions : List Expr) :
    canonicalExprs expressions = expressions.map Expr.canonical := by
  induction expressions with
  | nil => rfl
  | cons expression rest ih => rw [canonicalExprs, ih, List.map_cons]

theorem canonicalEntries_eq_map (entries : List (Member × Projected)) :
    canonicalEntries entries = entries.map fun entry => (entry.1, entry.2.canonical) := by
  induction entries with
  | nil => rfl
  | cons entry rest ih => rw [canonicalEntries, ih, List.map_cons]

def Column.canonical : Column → Column
  | ⟨projected, aliasName⟩ => ⟨projected.canonical, aliasName⟩

theorem canonicalColumns_eq_map (columns : List Column) :
    canonicalColumns columns = columns.map Column.canonical := by
  induction columns with
  | nil => rfl
  | cons column rest ih =>
      cases column
      rw [canonicalColumns, ih, List.map_cons]
      rfl

def Source.canonical : Source → Source
  | ⟨payload, aliasName, iterated⟩ => ⟨payload.canonical, aliasName, iterated⟩

theorem canonicalSources_eq_map (sources : List Source) :
    canonicalSources sources = sources.map Source.canonical := by
  induction sources with
  | nil => rfl
  | cons source rest ih =>
      cases source
      rw [canonicalSources, ih, List.map_cons]
      rfl

def SortKey.canonical : SortKey → SortKey
  | ⟨expression, ascending⟩ => ⟨expression.canonical, ascending⟩

theorem canonicalSortKeys_eq_map (keys : List SortKey) :
    canonicalSortKeys keys = keys.map SortKey.canonical := by
  induction keys with
  | nil => rfl
  | cons key rest ih =>
      cases key
      rw [canonicalSortKeys, ih, List.map_cons]
      rfl

/-! ## The same have one canonical form -/

theorem sameBindings_iff (a b : Mapping Nat) : sameBindings a b = true ↔ a = b := by
  cases a
  cases b
  simp [sameBindings]

mutual

theorem Expr.same_iff : ∀ a b : Expr, a.same b = true ↔ a.canonical = b.canonical
  | .constant v t, b => by
      cases b <;> simp [Expr.same, Expr.canonical, Json.same_iff]
  | .parameter n t, b => by
      cases b <;> simp [Expr.same, Expr.canonical]
  | .binary o l r t, b => by
      cases b <;>
        simp [Expr.same, Expr.canonical, Expr.same_iff l, Expr.same_iff r, and_assoc]
  | .unary o a t, b => by
      cases b <;> simp [Expr.same, Expr.canonical, Expr.same_iff a, and_assoc]
  | .property a n t, b => by
      cases b <;> simp [Expr.same, Expr.canonical, Expr.same_iff a, and_assoc]
  | .item a i t, b => by
      cases b <;>
        simp [Expr.same, Expr.canonical, Expr.same_iff a, Expr.same_iff i, and_assoc]
  | .call f as t, b => by
      cases b <;> simp [Expr.same, Expr.canonical, sameExprs_iff as, and_assoc]
  | .inlineArray as, b => by
      cases b <;> simp [Expr.same, Expr.canonical, sameExprs_iff as]
  | .membership a as n, b => by
      cases b <;>
        simp [Expr.same, Expr.canonical, Expr.same_iff a, sameExprs_iff as, and_assoc]
  | .subquery k a, b => by
      cases b <;> simp [Expr.same, Expr.canonical, Block.same_iff a]
  | .scalarReference n t, b => by
      cases b <;> simp [Expr.same, Expr.canonical]
  | .objectReference e n, b => by
      cases b <;> simp [Expr.same, Expr.canonical]
  | .fragment s, b => by
      cases b <;> simp [Expr.same, Expr.canonical]
termination_by structural a => a

theorem sameExprs_iff : ∀ as bs : List Expr,
    sameExprs as bs = true ↔ canonicalExprs as = canonicalExprs bs
  | [], bs => by cases bs <;> simp [sameExprs, canonicalExprs]
  | a :: as, bs => by
      cases bs <;> simp [sameExprs, canonicalExprs, Expr.same_iff a, sameExprs_iff as]
termination_by structural as => as

theorem sameOptional_iff : ∀ a b : Option Expr,
    sameOptional a b = true ↔ canonicalOptional a = canonicalOptional b
  | none, b => by cases b <;> simp [sameOptional, canonicalOptional]
  | some a, b => by cases b <;> simp [sameOptional, canonicalOptional, Expr.same_iff a]
termination_by structural a => a

theorem Projected.same_iff : ∀ a b : Projected, a.same b = true ↔ a.canonical = b.canonical
  | .scalar a, b => by
      cases b <;> simp [Projected.same, Projected.canonical, Expr.same_iff a]
  | .object e a, b => by
      cases b <;> simp [Projected.same, Projected.canonical, Expr.same_iff a]
termination_by structural a => a

theorem sameEntries_iff : ∀ as bs : List (Member × Projected),
    sameEntries as bs = true ↔ canonicalEntries as = canonicalEntries bs
  | [], bs => by cases bs <;> simp [sameEntries, canonicalEntries]
  | (m, a) :: as, [] => by simp [sameEntries, canonicalEntries]
  | (m, a) :: as, (n, b) :: bs => by
      simp [sameEntries, canonicalEntries, Projected.same_iff a, sameEntries_iff as]
termination_by structural as => as

theorem sameColumns_iff : ∀ as bs : List Column,
    sameColumns as bs = true ↔ canonicalColumns as = canonicalColumns bs
  | [], [] => by simp [sameColumns, canonicalColumns]
  | [], ⟨b, y⟩ :: bs => by simp [sameColumns, canonicalColumns]
  | ⟨a, x⟩ :: as, [] => by simp [sameColumns, canonicalColumns]
  | ⟨a, x⟩ :: as, ⟨b, y⟩ :: bs => by
      simp [sameColumns, canonicalColumns, Projected.same_iff a, sameColumns_iff as]
termination_by structural as => as

theorem Projection.same_iff : ∀ a b : Projection, a.same b = true ↔ a.canonical = b.canonical
  | .pending ⟨as⟩, .pending ⟨bs⟩ => by
      simp [Projection.same, Projection.canonical, sameEntries_iff as]
  | .pending ⟨as⟩, .frozen bs g => by simp [Projection.same, Projection.canonical]
  | .frozen as f, .pending ⟨bs⟩ => by simp [Projection.same, Projection.canonical]
  | .frozen as f, .frozen bs g => by
      simp [Projection.same, Projection.canonical, sameColumns_iff as, sameBindings_iff]
termination_by structural a => a

theorem Payload.same_iff : ∀ a b : Payload, a.same b = true ↔ a.canonical = b.canonical
  | .root e n, b => by cases b <;> simp [Payload.same, Payload.canonical]
  | .select a, b => by
      cases b <;> simp [Payload.same, Payload.canonical, Block.same_iff a]
  | .collection a, b => by
      cases b <;> simp [Payload.same, Payload.canonical, Expr.same_iff a]
  | .raw e n, b => by cases b <;> simp [Payload.same, Payload.canonical]
termination_by structural a => a

theorem sameSources_iff : ∀ as bs : List Source,
    sameSources as bs = true ↔ canonicalSources as = canonicalSources bs
  | [], [] => by simp [sameSources, canonicalSources]
  | [], ⟨q, y, j⟩ :: bs => by simp [sameSources, canonicalSources]
  | ⟨p, x, i⟩ :: as, [] => by simp [sameSources, canonicalSources]
  | ⟨p, x, i⟩ :: as, ⟨q, y, j⟩ :: bs => by
      simp [sameSources, canonicalSources, Payload.same_iff p, sameSources_iff as, and_assoc]
termination_by structural as => as

theorem sameSortKeys_iff : ∀ as bs : List SortKey,
    sameSortKeys as bs = true ↔ canonicalSortKeys as = canonicalSortKeys bs
  | [], [] => by simp [sameSortKeys, canonicalSortKeys]
  | [], ⟨b, y⟩ :: bs => by simp [sameSortKeys, canonicalSortKeys]
  | ⟨a, x⟩ :: as, [] => by simp [sameSortKeys, canonicalSortKeys]
  | ⟨a, x⟩ :: as, ⟨b, y⟩ :: bs => by
      simp [sameSortKeys, canonicalSortKeys, Expr.same_iff a, sameSortKeys_iff as]
termination_by structural as => as

theorem sameKeyBindings_iff : ∀ as bs : List KeyBinding,
    sameKeyBindings as bs = true ↔ canonicalKeyBindings as = canonicalKeyBindings bs
  | [], [] => by simp [sameKeyBindings, canonicalKeyBindings]
  | [], ⟨b, y⟩ :: bs => by simp [sameKeyBindings, canonicalKeyBindings]
  | ⟨a, x⟩ :: as, [] => by simp [sameKeyBindings, canonicalKeyBindings]
  | ⟨a, x⟩ :: as, ⟨b, y⟩ :: bs => by
      simp [sameKeyBindings, canonicalKeyBindings, Expr.same_iff a, sameKeyBindings_iff as]
termination_by structural as => as

theorem Block.same_iff : ∀ a b : Block, a.same b = true ↔ a.canonical = b.canonical
  | ⟨ss, p, w, os, l, f, d, v, ks, r⟩, ⟨ss', p', w', os', l', f', d', v', ks', r'⟩ => by
      simp [Block.same, Block.canonical, sameSources_iff ss, Projection.same_iff p,
        sameOptional_iff w, sameSortKeys_iff os, sameOptional_iff l, sameOptional_iff f,
        sameKeyBindings_iff ks, and_assoc]
termination_by structural a => a

end

/-! ## An equivalence -/

theorem Expr.same_comm (a b : Expr) : a.same b = b.same a := by
  rw [Bool.eq_iff_iff, Expr.same_iff, Expr.same_iff, eq_comm]

namespace Projected

@[simp] theorem same_refl (a : Projected) : a.same a = true :=
  (same_iff a a).mpr rfl

theorem same_comm (a b : Projected) : a.same b = b.same a := by
  rw [Bool.eq_iff_iff, same_iff, same_iff, eq_comm]

/-- What is the same as one of two that are the same is the same as the other. -/
theorem same_congr {a b : Projected} (h : a.same b = true) (c : Projected) :
    c.same a = c.same b := by
  rw [Bool.eq_iff_iff, same_iff, same_iff, (same_iff a b).mp h]

theorem same_trans {a b c : Projected} (h : a.same b = true) (h' : b.same c = true) :
    a.same c = true := by
  rw [← same_congr h', h]

end Projected

end DocumentQuery
