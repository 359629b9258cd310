import DocumentQuery.Expr
import Mathlib.Logic.Relation
/-!
# What stands in a block

The expressions of a block, the parts of an expression and the blocks that are
nested in either. A block nests another one if it takes rows from it or asks it
in a subquery (`Nests`); it holds one also if that stands in a binding of the
partition key, which is no part of the query text (`Holds`). At any depth the
two are the closures `Relation.ReflTransGen Nests` and
`Relation.ReflTransGen Holds`.

A property that passes from what stands in a node to the node itself holds of
all expressions and blocks (`PassesOutward.all_expr`, `PassesOutward.all_block`).
The lists, tables and optional parts of a block need no cases of their own then.
-/

namespace DocumentQuery

/-! ## Expressions -/

/-- The expressions that stand in an expression directly. -/
def Expr.parts : Expr → List Expr
  | .constant _ _ => []
  | .parameter _ _ => []
  | .binary _ left right _ => [left, right]
  | .unary _ operand _ => [operand]
  | .property base _ _ => [base]
  | .item array index _ => [array, index]
  | .call _ arguments _ => arguments
  | .inlineArray items => items
  | .membership value values _ => value :: values
  | .subquery _ _ => []
  | .scalarReference _ _ => []
  | .objectReference _ _ => []
  | .fragment _ => []

def Expr.block? : Expr → Option Block
  | .subquery _ block => some block
  | _ => none

mutual

/-- The blocks of the subqueries in an expression, without those that stand in
one of these blocks in turn. -/
def Expr.subqueries : Expr → List Block
  | .constant _ _ => []
  | .parameter _ _ => []
  | .binary _ left right _ => left.subqueries ++ right.subqueries
  | .unary _ operand _ => operand.subqueries
  | .property base _ _ => base.subqueries
  | .item array index _ => array.subqueries ++ index.subqueries
  | .call _ arguments _ => subqueriesIn arguments
  | .inlineArray items => subqueriesIn items
  | .membership item values _ => item.subqueries ++ subqueriesIn values
  | .subquery _ block => [block]
  | .scalarReference _ _ => []
  | .objectReference _ _ => []
  | .fragment _ => []

def subqueriesIn : List Expr → List Block
  | [] => []
  | expression :: rest => expression.subqueries ++ subqueriesIn rest

end

theorem subqueriesIn_eq_flatMap (expressions : List Expr) :
    subqueriesIn expressions = expressions.flatMap Expr.subqueries := by
  induction expressions with
  | nil => rfl
  | cons expression rest ih => rw [subqueriesIn, ih, List.flatMap_cons]

/-- The subqueries in an expression are the expression itself, if it is one, and
those in its parts. -/
theorem Expr.subqueries_eq (expression : Expr) :
    expression.subqueries =
      expression.block?.toList ++ expression.parts.flatMap Expr.subqueries := by
  cases expression <;> simp [Expr.subqueries, Expr.block?, Expr.parts, subqueriesIn_eq_flatMap]

/-! ## Blocks -/

/-- The expressions that a projection puts out. -/
def Projection.expressions : Projection → List Expr
  | .pending mapping => mapping.values.map Projected.expression
  | .frozen columns _ => columns.map (·.expression.expression)

namespace Source

/-- The array that a source iterates over. -/
def collection? (source : Source) : Option Expr :=
  match source.payload with
  | .collection expression => some expression
  | _ => none

def block? (source : Source) : Option Block :=
  match source.payload with
  | .select block => some block
  | _ => none

end Source

namespace Block

/-- The expressions of the query text: what is put out, the arrays that are
iterated over, the predicate, the sort keys, the offset and the limit. -/
def expressions (block : Block) : List Expr :=
  block.projection.expressions ++ block.sources.filterMap Source.collection? ++
    block.predicate.toList ++ block.orderings.map (·.expression) ++ block.offset.toList ++
    block.limit.toList

/-- The blocks that rows are taken from. -/
def sourceBlocks (block : Block) : List Block :=
  block.sources.filterMap Source.block?

/-- The blocks that stand in the query text directly, as sources or subqueries. -/
def nested (block : Block) : List Block :=
  block.sourceBlocks ++ block.expressions.flatMap Expr.subqueries

/-- The blocks that stand in the bindings of the partition key directly. -/
def keyed (block : Block) : List Block :=
  (block.keyBindings.map (·.value)).flatMap Expr.subqueries

/-- `inner` is a source or a subquery of `outer`. -/
def Nests (outer inner : Block) : Prop :=
  inner ∈ outer.nested

/-- `inner` stands in `outer`, be it only in a binding of the partition key. -/
def Holds (outer inner : Block) : Prop :=
  inner ∈ outer.nested ∨ inner ∈ outer.keyed

theorem Nests.of_sourceBlocks {outer inner : Block} (h : inner ∈ outer.sourceBlocks) :
    outer.Nests inner :=
  List.mem_append_left _ h

theorem Nests.of_expressions {outer inner : Block} {expression : Expr}
    (hexpression : expression ∈ outer.expressions) (h : inner ∈ expression.subqueries) :
    outer.Nests inner :=
  List.mem_append_right _ (List.mem_flatMap.mpr ⟨expression, hexpression, h⟩)

end Block

/-! ## Induction over the nesting -/

/-- The property `E` of expressions and the property `B` of blocks pass from the
inside to the outside: an expression has the one as soon as its parts and its
block have them, a block the other as soon as its expressions and the blocks
that rows are taken from have them. -/
structure PassesOutward (E : Expr → Prop) (B : Block → Prop) : Prop where
  expr : ∀ expression : Expr, (∀ part ∈ expression.parts, E part) →
    (∀ block ∈ expression.block?, B block) → E expression
  block : ∀ block : Block, (∀ expression ∈ block.expressions, E expression) →
    (∀ inner ∈ block.sourceBlocks, B inner) → B block

namespace PassesOutward

variable {E : Expr → Prop} {B : Block → Prop}

mutual

theorem all_expr (h : PassesOutward E B) : ∀ expression : Expr, E expression
  | .constant value type => h.expr _ (by simp [Expr.parts]) (by simp [Expr.block?])
  | .parameter name type => h.expr _ (by simp [Expr.parts]) (by simp [Expr.block?])
  | .binary operator left right type => by
      have hleft := all_expr h left
      have hright := all_expr h right
      exact h.expr _ (by simp [Expr.parts, hleft, hright]) (by simp [Expr.block?])
  | .unary operator operand type => by
      have hoperand := all_expr h operand
      exact h.expr _ (by simp [Expr.parts, hoperand]) (by simp [Expr.block?])
  | .property base name type => by
      have hbase := all_expr h base
      exact h.expr _ (by simp [Expr.parts, hbase]) (by simp [Expr.block?])
  | .item array index type => by
      have harray := all_expr h array
      have hindex := all_expr h index
      exact h.expr _ (by simp [Expr.parts, harray, hindex]) (by simp [Expr.block?])
  | .call function arguments type => by
      have harguments := all_exprs h arguments
      exact h.expr _ harguments (by simp [Expr.block?])
  | .inlineArray items => by
      have hitems := all_exprs h items
      exact h.expr _ hitems (by simp [Expr.block?])
  | .membership item values negated => by
      have hitem := all_expr h item
      have hvalues := all_exprs h values
      exact h.expr _ (List.forall_mem_cons.mpr ⟨hitem, hvalues⟩) (by simp [Expr.block?])
  | .subquery kind block => by
      have hblock := all_block h block
      exact h.expr _ (by simp [Expr.parts]) (by simpa [Expr.block?] using hblock)
  | .scalarReference aliasName type => h.expr _ (by simp [Expr.parts]) (by simp [Expr.block?])
  | .objectReference entityType aliasName =>
      h.expr _ (by simp [Expr.parts]) (by simp [Expr.block?])
  | .fragment text => h.expr _ (by simp [Expr.parts]) (by simp [Expr.block?])

theorem all_exprs (h : PassesOutward E B) :
    ∀ expressions : List Expr, ∀ expression ∈ expressions, E expression
  | [] => by simp
  | expression :: rest =>
      List.forall_mem_cons.mpr ⟨all_expr h expression, all_exprs h rest⟩

theorem all_optional (h : PassesOutward E B) :
    ∀ optional : Option Expr, ∀ expression ∈ optional.toList, E expression
  | none => by simp
  | some expression => by
      have hexpression := all_expr h expression
      simpa using hexpression

theorem all_projected (h : PassesOutward E B) :
    ∀ projected : Projected, E projected.expression
  | .scalar value => all_expr h value
  | .object _ access => all_expr h access

theorem all_entries (h : PassesOutward E B) :
    ∀ entries : List (Member × Projected), ∀ entry ∈ entries, E entry.2.expression
  | [] => by simp
  | (member, projected) :: rest =>
      List.forall_mem_cons.mpr ⟨all_projected h projected, all_entries h rest⟩

theorem all_columns (h : PassesOutward E B) :
    ∀ columns : List Column, ∀ column ∈ columns, E column.expression.expression
  | [] => by simp
  | ⟨projected, aliasName⟩ :: rest =>
      List.forall_mem_cons.mpr ⟨all_projected h projected, all_columns h rest⟩

theorem all_projection (h : PassesOutward E B) :
    ∀ projection : Projection, ∀ expression ∈ projection.expressions, E expression
  | .pending ⟨entries⟩ => by
      have hentries := all_entries h entries
      intro expression hmem
      obtain ⟨projected, hprojected, rfl⟩ := List.mem_map.mp hmem
      obtain ⟨entry, hentry, rfl⟩ := List.mem_map.mp hprojected
      exact hentries entry hentry
  | .frozen columns bindings => by
      have hcolumns := all_columns h columns
      intro expression hmem
      obtain ⟨column, hcolumn, rfl⟩ := List.mem_map.mp hmem
      exact hcolumns column hcolumn

theorem all_source (h : PassesOutward E B) :
    ∀ source : Source, (∀ expression ∈ source.collection?, E expression) ∧
      ∀ block ∈ source.block?, B block
  | ⟨.root _ _, _, _⟩ => by simp [Source.collection?, Source.block?]
  | ⟨.select block, _, _⟩ => by
      have hblock := all_block h block
      simpa [Source.collection?, Source.block?] using hblock
  | ⟨.collection expression, _, _⟩ => by
      have hexpression := all_expr h expression
      simpa [Source.collection?, Source.block?] using hexpression
  | ⟨.raw _ _, _, _⟩ => by simp [Source.collection?, Source.block?]

theorem all_sources (h : PassesOutward E B) :
    ∀ sources : List Source, ∀ source ∈ sources,
      (∀ expression ∈ source.collection?, E expression) ∧ ∀ block ∈ source.block?, B block
  | [] => by simp
  | source :: rest => List.forall_mem_cons.mpr ⟨all_source h source, all_sources h rest⟩

theorem all_sortKeys (h : PassesOutward E B) :
    ∀ keys : List SortKey, ∀ key ∈ keys, E key.expression
  | [] => by simp
  | ⟨expression, ascending⟩ :: rest =>
      List.forall_mem_cons.mpr ⟨all_expr h expression, all_sortKeys h rest⟩

theorem all_block (h : PassesOutward E B) : ∀ block : Block, B block
  | ⟨sources, projection, predicate, orderings, limit, offset, distinct, singleValue,
      keyBindings, pointRead⟩ => by
      have hprojection := all_projection h projection
      have hsources := all_sources h sources
      have hpredicate := all_optional h predicate
      have horderings := all_sortKeys h orderings
      have hoffset := all_optional h offset
      have hlimit := all_optional h limit
      refine h.block _ ?_ ?_
      · intro expression hmem
        simp only [Block.expressions, List.mem_append, List.mem_filterMap, List.mem_map] at hmem
        rcases hmem with
          ((((hmem | ⟨source, hsource, hmem⟩) | hmem) | ⟨key, hkey, rfl⟩) | hmem) | hmem
        · exact hprojection expression hmem
        · exact (hsources source hsource).1 expression hmem
        · exact hpredicate expression hmem
        · exact horderings key hkey
        · exact hoffset expression hmem
        · exact hlimit expression hmem
      · intro inner hmem
        obtain ⟨source, hsource, hinner⟩ := List.mem_filterMap.mp hmem
        exact (hsources source hsource).2 inner hinner

end

end PassesOutward

end DocumentQuery
