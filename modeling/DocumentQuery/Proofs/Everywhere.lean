import DocumentQuery.Proofs.Walking
/-!
# What holds everywhere in a block

Some facts about the text of a block depend on every expression and on every
block in it, however deep they stand. `Everywhere` gathers what is asked of
them, and passes from a node to what stands in it directly. So it can be carried
along an induction over the nesting.
-/

namespace DocumentQuery

/-! ## The nodes of a node -/

theorem Expr.nodes_eq (expression : Expr) :
    expression.nodes = expression ::
      (expression.parts.flatMap Expr.nodes ++ expression.block?.toList.flatMap Block.nodes) := by
  have hnodes : Expr.nodes = Expr.reached fun _ => false := rfl
  cases expression <;>
    simp [hnodes, Block.nodes, reached, onward, parts, block?, reachedIn_eq]

theorem Projection.reached_eq (stops : Expr → Bool) (projection : Projection) :
    projection.reached stops = projection.expressions.flatMap (Expr.reached stops) := by
  cases projection with
  | pending mapping =>
      cases mapping
      rw [reached, reachedInEntries_eq]
      simp [expressions, OrderedMap.values, List.flatMap_map]
  | frozen columns bindings =>
      rw [reached, reachedInColumns_eq]
      simp [expressions, List.flatMap_map]

theorem reachedInOptional_eq (stops : Expr → Bool) (optional : Option Expr) :
    reachedInOptional stops optional = optional.toList.flatMap (Expr.reached stops) := by
  cases optional with
  | none => rfl
  | some expression => simp [reachedInOptional]

/-- What is reached in sources is reached in the arrays that are iterated over
and in the blocks that rows are taken from. -/
theorem mem_reachedInSources_iff {stops : Expr → Bool} {sources : List Source} {node : Expr} :
    node ∈ reachedInSources stops sources ↔
      node ∈ (sources.filterMap Source.collection?).flatMap (Expr.reached stops) ∨
        node ∈ (sources.filterMap Source.block?).flatMap (Block.reached stops) := by
  induction sources with
  | nil => simp [reachedInSources]
  | cons source rest ih =>
      rcases source with ⟨payload, aliasName, iterated⟩
      rw [reachedInSources, List.mem_append, ih]
      cases payload <;> simp [Payload.reached, Source.collection?, Source.block?, or_assoc,
        or_left_comm]

theorem Block.mem_nodes_iff {block : Block} {node : Expr} :
    node ∈ block.nodes ↔ node ∈ block.expressions.flatMap Expr.nodes ∨
      node ∈ block.sourceBlocks.flatMap Block.nodes := by
  have hexpr : Expr.nodes = Expr.reached fun _ => false := rfl
  have hblock : Block.nodes = Block.reached fun _ => false := rfl
  have hkeys : block.orderings.flatMap (fun key => key.expression.nodes) =
      (block.orderings.map (·.expression)).flatMap Expr.nodes := by rw [List.flatMap_map]
  rw [hblock, reached_eq, Projection.reached_eq, reachedInSortKeys_eq, reachedInOptional_eq,
    reachedInOptional_eq, reachedInOptional_eq, ← hexpr, hkeys]
  simp only [expressions, sourceBlocks, List.flatMap_append, List.mem_append,
    mem_reachedInSources_iff, ← hexpr, ← hblock]
  simp only [or_assoc, or_comm, or_left_comm]

/-! ## What is asked of every node -/

/-- The expressions in an expression, itself included, and the blocks in it, all
at any depth, are as asked. -/
structure Expr.Everywhere (E : Expr → Prop) (B : Block → Prop) (expression : Expr) : Prop where
  nodes : ∀ node ∈ expression.nodes, E node
  blocks : ∀ outer ∈ expression.subqueries, ∀ inner,
    Relation.ReflTransGen Block.Nests outer inner → B inner

/-- The expressions and the blocks in a block, itself included, all at any depth,
are as asked. -/
structure Block.Everywhere (E : Expr → Prop) (B : Block → Prop) (block : Block) : Prop where
  nodes : ∀ node ∈ block.nodes, E node
  blocks : ∀ inner, Relation.ReflTransGen Block.Nests block inner → B inner

variable {E : Expr → Prop} {B : Block → Prop}

namespace Expr.Everywhere

variable {whole inside : Expr} {inner : Block}

theorem self (h : whole.Everywhere E B) : E whole := by
  refine h.nodes whole ?_
  rw [nodes_eq]
  exact List.mem_cons_self

theorem part (h : whole.Everywhere E B) (hpart : inside ∈ whole.parts) :
    inside.Everywhere E B where
  nodes := by
    intro node hnode
    refine h.nodes node ?_
    rw [nodes_eq]
    exact List.mem_cons_of_mem _
      (List.mem_append_left _ (List.mem_flatMap.mpr ⟨inside, hpart, hnode⟩))
  blocks := by
    intro outer houter
    refine h.blocks outer ?_
    rw [subqueries_eq]
    exact List.mem_append_right _ (List.mem_flatMap.mpr ⟨inside, hpart, houter⟩)

theorem block (h : whole.Everywhere E B) (hblock : inner ∈ whole.block?) :
    inner.Everywhere E B where
  nodes := by
    intro node hnode
    refine h.nodes node ?_
    rw [nodes_eq]
    exact List.mem_cons_of_mem _ (List.mem_append_right _
      (List.mem_flatMap.mpr ⟨inner, Option.mem_toList.mpr hblock, hnode⟩))
  blocks := by
    refine h.blocks inner ?_
    rw [subqueries_eq]
    exact List.mem_append_left _ (Option.mem_toList.mpr hblock)

end Expr.Everywhere

namespace Block.Everywhere

variable {outer inner : Block} {inside : Expr}

theorem self (h : outer.Everywhere E B) : B outer :=
  h.blocks outer .refl

theorem expression (h : outer.Everywhere E B) (hmem : inside ∈ outer.expressions) :
    inside.Everywhere E B where
  nodes := fun node hnode =>
    h.nodes node (mem_nodes_iff.mpr (.inl (List.mem_flatMap.mpr ⟨inside, hmem, hnode⟩)))
  blocks := fun _ hblock inner hinner =>
    h.blocks inner (.head (.of_expressions hmem hblock) hinner)

theorem sourceBlock (h : outer.Everywhere E B) (hmem : inner ∈ outer.sourceBlocks) :
    inner.Everywhere E B where
  nodes := fun node hnode =>
    h.nodes node (mem_nodes_iff.mpr (.inr (List.mem_flatMap.mpr ⟨inner, hmem, hnode⟩)))
  blocks := fun deeper hdeeper => h.blocks deeper (.head (.of_sourceBlocks hmem) hdeeper)

end Block.Everywhere

end DocumentQuery
