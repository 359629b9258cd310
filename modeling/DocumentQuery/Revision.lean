import DocumentQuery.Error
import DocumentQuery.Source
/-!
# Revisions

A revision visits the nodes of a block from the outside in. At each node a
`Visitor` is asked what becomes of it; it can answer with a replacement, with
"unchanged" (`none`), with an error, or go on into the node with the default
walk that it is handed. A node is rebuilt only if something inside it changed,
so that the answer also says whether there was anything to do.

A visitor may carry a state from node to node. The state survives an error.
-/

namespace DocumentQuery

/-- A computation that changes a state and may fail; the state is there in
either case. -/
def Revising (σ α : Type) : Type :=
  σ → Except PlanError α × σ

namespace Revising

variable {σ α β : Type}

def answer (a : α) : Revising σ α :=
  fun s => (.ok a, s)

def andThen (m : Revising σ α) (next : α → Revising σ β) : Revising σ β :=
  fun s =>
    match m s with
    | (.ok a, s) => next a s
    | (.error e, s) => (.error e, s)

instance : Monad (Revising σ) where
  pure := answer
  bind := andThen

def fail (error : PlanError) : Revising σ α :=
  fun s => (.error error, s)

def update (change : σ → σ) : Revising σ Unit :=
  fun s => (.ok (), change s)

theorem pure_apply (a : α) (s : σ) : (pure a : Revising σ α) s = (.ok a, s) := rfl

theorem bind_apply (m : Revising σ α) (next : α → Revising σ β) (s : σ) :
    (m >>= next) s =
      match m s with
      | (.ok a, s) => next a s
      | (.error e, s) => (.error e, s) := rfl

instance : LawfulMonad (Revising σ) :=
  LawfulMonad.mk' _
    (fun m => by
      funext s
      change andThen m answer s = m s
      unfold andThen answer
      split <;> simp_all)
    (fun _ _ => rfl)
    (fun m f g => by
      funext s
      change andThen (andThen m f) g s = andThen m (fun a => andThen (f a) g) s
      unfold andThen
      cases m s with
      | mk result s => cases result <;> rfl)

end Revising

/-- What becomes of the nodes of a block. Each function is asked for a node
together with the default walk through it. -/
structure Visitor (σ : Type) where
  onExpr : Expr → Revising σ (Option Expr) → Revising σ (Option Expr) := fun _ walk => walk
  onProjected : Projected → Revising σ (Option Projected) → Revising σ (Option Projected) :=
    fun _ walk => walk
  onSource : Source → Revising σ (Option Source) → Revising σ (Option Source) :=
    fun _ walk => walk
  onBlock : Block → Revising σ (Option Block) → Revising σ (Option Block) := fun _ walk => walk

/-! ## Rebuilding nodes -/

def rebuildPair {α β γ : Type} (node : α → β → γ) (a : α) (b : β) (newA : Option α)
    (newB : Option β) : Option γ :=
  match newA, newB with
  | none, none => none
  | _, _ => some (node (newA.getD a) (newB.getD b))

def rebuildList {α : Type} (items : List α) (new : List (Option α)) : Option (List α) :=
  if new.all Option.isNone then none
  else some (List.zipWith (fun item new => new.getD item) items new)

/-- The bindings of positions in which the changed expressions are replaced, if
there are any. Positions that were bound twice are bound once afterwards. -/
def rebuildMapping (mapping : Mapping Projected) (new : List (Option Projected)) :
    Option Projection :=
  if new.all Option.isNone then none
  else
    let entries := List.zipWith (fun entry new => (entry.1, new.getD entry.2)) mapping.entries new
    some (.pending (OrderedMap.ofList entries))

def rebuildColumns (columns : List Column) (new : List (Option Projected)) :
    Option (List Column) :=
  rebuildList columns
    (List.zipWith (fun (column : Column) new => new.map (⟨·, column.aliasName⟩)) columns new)

def rebuildSortKeys (keys : List SortKey) (new : List (Option Expr)) : Option (List SortKey) :=
  rebuildList keys
    (List.zipWith (fun (key : SortKey) new => new.map (⟨·, key.ascending⟩)) keys new)

/-- A block with other parts. The flags, the bindings of the partition key and
the route of a point read stay. -/
def Block.update (block : Block) (projection : Projection) (sources : List Source)
    (predicate : Option Expr) (orderings : List SortKey) (limit offset : Option Expr) : Block :=
  { block with
    projection := projection
    sources := sources
    predicate := predicate
    orderings := orderings
    limit := limit
    offset := offset }

structure Changes where
  projection : Option Projection
  sources : Option (List Source)
  predicate : Option Expr
  orderings : Option (List SortKey)
  offset : Option Expr
  limit : Option Expr

def Changes.isEmpty (changes : Changes) : Bool :=
  changes.projection.isNone && changes.sources.isNone && changes.predicate.isNone &&
    changes.orderings.isNone && changes.offset.isNone && changes.limit.isNone

def Block.rebuild (block : Block) (changes : Changes) : Option Block :=
  if changes.isEmpty then none
  else
    some (block.update (changes.projection.getD block.projection)
      (changes.sources.getD block.sources) (changes.predicate <|> block.predicate)
      (changes.orderings.getD block.orderings) (changes.limit <|> block.limit)
      (changes.offset <|> block.offset))

/-! ## Visiting nodes -/

section Visit

variable {σ : Type} (v : Visitor σ)

mutual

def Expr.visit : Expr → Revising σ (Option Expr)
  | .constant value type => v.onExpr (.constant value type) (pure none)
  | .parameter name type => v.onExpr (.parameter name type) (pure none)
  | .binary operator left right type =>
    v.onExpr (.binary operator left right type) do
      let newLeft ← left.visit
      let newRight ← right.visit
      pure (rebuildPair (.binary operator · · type) left right newLeft newRight)
  | .unary operator operand type =>
    v.onExpr (.unary operator operand type) do
      let new ← operand.visit
      pure (new.map (.unary operator · type))
  | .property base name type =>
    v.onExpr (.property base name type) do
      let new ← base.visit
      pure (new.map (.property · name type))
  | .item array index type =>
    v.onExpr (.item array index type) do
      let newArray ← array.visit
      let newIndex ← index.visit
      pure (rebuildPair (.item · · type) array index newArray newIndex)
  | .call function arguments type =>
    v.onExpr (.call function arguments type) do
      let new ← visitExprs arguments
      pure ((rebuildList arguments new).map (.call function · type))
  | .inlineArray items =>
    v.onExpr (.inlineArray items) do
      let new ← visitExprs items
      pure ((rebuildList items new).map .inlineArray)
  | .membership item values negated =>
    v.onExpr (.membership item values negated) do
      let newItem ← item.visit
      let newValues ← visitExprs values
      pure (rebuildPair (.membership · · negated) item values newItem
        (rebuildList values newValues))
  | .subquery kind block =>
    v.onExpr (.subquery kind block) do
      let new ← block.visit
      pure (new.map (.subquery kind ·))
  | .scalarReference aliasName type => v.onExpr (.scalarReference aliasName type) (pure none)
  | .objectReference entityType aliasName =>
    v.onExpr (.objectReference entityType aliasName) (pure none)
  | .fragment text => v.onExpr (.fragment text) (pure none)

def visitExprs : List Expr → Revising σ (List (Option Expr))
  | [] => pure []
  | expression :: rest => do
    let new ← expression.visit
    let more ← visitExprs rest
    pure (new :: more)

def visitOptional : Option Expr → Revising σ (Option Expr)
  | none => pure none
  | some expression => expression.visit

def Projected.visit : Projected → Revising σ (Option Projected)
  | .scalar value =>
    v.onProjected (.scalar value) do
      let new ← value.visit
      pure (new.map .scalar)
  | .object entityType access =>
    v.onProjected (.object entityType access) do
      let new ← access.visit
      pure (new.map (.object entityType ·))

def visitEntries : List (Member × Projected) → Revising σ (List (Option Projected))
  | [] => pure []
  | (_, projected) :: rest => do
    let new ← projected.visit
    let more ← visitEntries rest
    pure (new :: more)

def visitColumns : List Column → Revising σ (List (Option Projected))
  | [] => pure []
  | ⟨projected, _⟩ :: rest => do
    let new ← projected.visit
    let more ← visitColumns rest
    pure (new :: more)

def Projection.visit : Projection → Revising σ (Option Projection)
  | .pending ⟨entries⟩ => do
    let new ← visitEntries entries
    pure (rebuildMapping ⟨entries⟩ new)
  | .frozen columns bindings => do
    let new ← visitColumns columns
    pure ((rebuildColumns columns new).map (.frozen · bindings))

/-- Visits what the source of an alias takes its rows from. An array that
changed may have to be wrapped anew. -/
def Payload.visit (aliasName : String) (iterated : Bool) : Payload → Revising σ (Option Source)
  | .root _ _ => pure none
  | .select block => do
    let new ← block.visit
    pure (new.map (⟨.select ·, aliasName, iterated⟩))
  | .collection expression => do
    let new ← expression.visit
    pure (new.map (Source.iterate · aliasName))
  | .raw _ _ => pure none

def visitSources : List Source → Revising σ (List (Option Source))
  | [] => pure []
  | ⟨payload, aliasName, iterated⟩ :: rest => do
    let new ← v.onSource ⟨payload, aliasName, iterated⟩ (payload.visit aliasName iterated)
    let more ← visitSources rest
    pure (new :: more)

def visitSortKeys : List SortKey → Revising σ (List (Option Expr))
  | [] => pure []
  | ⟨expression, _⟩ :: rest => do
    let new ← expression.visit
    let more ← visitSortKeys rest
    pure (new :: more)

def Block.visit : Block → Revising σ (Option Block)
  | ⟨sources, projection, predicate, orderings, limit, offset, distinct, singleValue, keyBindings,
      pointRead⟩ =>
    v.onBlock ⟨sources, projection, predicate, orderings, limit, offset, distinct, singleValue,
        keyBindings, pointRead⟩ do
      let newProjection ← projection.visit
      let newSources ← visitSources sources
      let newPredicate ← visitOptional predicate
      let newOrderings ← visitSortKeys orderings
      let newOffset ← visitOptional offset
      let newLimit ← visitOptional limit
      pure (Block.rebuild
        ⟨sources, projection, predicate, orderings, limit, offset, distinct, singleValue,
          keyBindings, pointRead⟩
        ⟨newProjection, rebuildList sources newSources, newPredicate,
          rebuildSortKeys orderings newOrderings, newOffset, newLimit⟩)

end

/-- The default walk through a block: its projection, sources, predicate, sort
keys, offset and limit. -/
def Block.visitParts (block : Block) : Revising σ (Option Block) := do
  let newProjection ← block.projection.visit v
  let newSources ← visitSources v block.sources
  let newPredicate ← visitOptional v block.predicate
  let newOrderings ← visitSortKeys v block.orderings
  let newOffset ← visitOptional v block.offset
  let newLimit ← visitOptional v block.limit
  pure (block.rebuild
    ⟨newProjection, rebuildList block.sources newSources, newPredicate,
      rebuildSortKeys block.orderings newOrderings, newOffset, newLimit⟩)

theorem Block.visit_eq (block : Block) : block.visit v = v.onBlock block (block.visitParts v) := by
  cases block
  rfl

end Visit

end DocumentQuery
