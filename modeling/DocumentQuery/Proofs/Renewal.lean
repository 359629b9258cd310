import DocumentQuery.Proofs.Alike
import DocumentQuery.Proofs.Rewriting
/-!
# What a replacing visit answers

A visit that only replaces expressions never fails, be the block valid or not,
and carries no state. So it comes to a function of the block: the new block, or
nothing if nothing changes (`Block.renewed?`). The function is read off from the
visit, and has an equation for each kind of node that tells it from the parts of
the node (`Expr.renewed?_eq`, `Block.renewed?_eq`); nothing else is needed to
reason about it.
-/

namespace DocumentQuery

variable {α : Type}

/-! ## The answer of a visit -/

namespace Revising

/-- What a visit without a state answers; nothing new if it fails. -/
def new? (visit : Revising Unit (Option α)) : Option α :=
  (visit ()).1.toOption.join

/-- A visit that does not fail does nothing but answer. -/
theorem eq_pure_new? {visit : Revising Unit (Option α)} {answer : Option α}
    (h : (visit ()).1 = .ok answer) : visit = pure visit.new? := by
  have hnew : visit.new? = answer := by
    rw [new?, h]
    rfl
  rw [hnew]
  exact funext fun _ => Prod.ext h rfl

end Revising

section Renewed

variable (f : Expr → Option Expr)

/-- The expression in which replacements are made, if there are any to make. -/
def Expr.renewed? (expression : Expr) : Option Expr :=
  (expression.visit (replacer Unit f)).new?

/-- The block in which replacements are made, if there are any to make. -/
def Block.renewed? (block : Block) : Option Block :=
  (block.visit (replacer Unit f)).new?

theorem noted_replacing :
    PassesOutward (Expr.Noted (Rule.replacing f)) (Block.Noted (Rule.replacing f)) :=
  ⟨fun _ => Expr.noted_of_parts, fun _ => Block.noted_of_clauses⟩

theorem findSome?_refusal_replacing (reached : List Expr) :
    reached.findSome? (Rule.replacing f).refusal? = none :=
  List.findSome?_eq_none_iff.mpr fun _ _ => rfl

/-- A visit that only replaces does not fail: it answers as the one that notes
its calls, which fails only where an expression is refused. -/
theorem Expr.visit_replacer (expression : Expr) :
    expression.visit (replacer Unit f) = pure (expression.renewed? f) := by
  have hnoted : expression.Noted (Rule.replacing f) := (noted_replacing f).all_expr expression
  obtain ⟨answer, hvisit⟩ := hnoted.accepted [] (findSome?_refusal_replacing f _)
  have halike := expression.visit_alike (Rule.visitor_alike_noting (Rule.replacing f)) () []
  rw [hvisit] at halike
  exact Revising.eq_pure_new? halike

theorem Block.visit_replacer (block : Block) :
    block.visit (replacer Unit f) = pure (block.renewed? f) := by
  have hnoted : block.Noted (Rule.replacing f) := (noted_replacing f).all_block block
  obtain ⟨answer, hvisit⟩ := hnoted.accepted [] (findSome?_refusal_replacing f _)
  have halike := block.visit_alike (Rule.visitor_alike_noting (Rule.replacing f)) () []
  rw [hvisit] at halike
  exact Revising.eq_pure_new? halike

/-! ## Expressions -/

/-- The expression that is rebuilt around its new parts, if there are any. -/
def Expr.rebuilt? : Expr → Option Expr
  | .binary operator left right type =>
    rebuildPair (.binary operator · · type) left right (left.renewed? f) (right.renewed? f)
  | .unary operator operand type => (operand.renewed? f).map (.unary operator · type)
  | .property base name type => (base.renewed? f).map (.property · name type)
  | .item array index type =>
    rebuildPair (.item · · type) array index (array.renewed? f) (index.renewed? f)
  | .call function arguments type =>
    (rebuildList arguments (arguments.map (Expr.renewed? f))).map (.call function · type)
  | .inlineArray items => (rebuildList items (items.map (Expr.renewed? f))).map .inlineArray
  | .membership value list negated =>
    rebuildPair (.membership · · negated) value list (value.renewed? f)
      (rebuildList list (list.map (Expr.renewed? f)))
  | .subquery kind block => (block.renewed? f).map (.subquery kind ·)
  | _ => none

theorem visitExprs_replacer (expressions : List Expr) :
    visitExprs (replacer Unit f) expressions = pure (expressions.map (Expr.renewed? f)) :=
  walkAll_pure rfl (fun _ _ => rfl) fun expression _ => expression.visit_replacer f

/-- The rule says what becomes of an expression, or else its new parts do. -/
theorem Expr.renewed?_eq (expression : Expr) :
    expression.renewed? f = (f expression <|> expression.rebuilt? f) := by
  have hwalk : ∀ walk answer, walk = pure answer →
      ((Rule.replacing f).applyOr expression walk : Revising Unit _).new? =
        (f expression <|> answer) := by
    rintro walk answer rfl
    rw [Rule.applyOr, Rule.replacing]
    cases f expression <;> rfl
  cases expression with
  | binary operator left right type =>
      exact hwalk _ _ (by rw [left.visit_replacer, right.visit_replacer]; rfl)
  | unary operator operand type => exact hwalk _ _ (by rw [operand.visit_replacer]; rfl)
  | property base name type => exact hwalk _ _ (by rw [base.visit_replacer]; rfl)
  | item array index type =>
      exact hwalk _ _ (by rw [array.visit_replacer, index.visit_replacer]; rfl)
  | call function arguments type => exact hwalk _ _ (by rw [visitExprs_replacer]; rfl)
  | inlineArray items => exact hwalk _ _ (by rw [visitExprs_replacer]; rfl)
  | membership value list negated =>
      exact hwalk _ _ (by rw [value.visit_replacer, visitExprs_replacer]; rfl)
  | subquery kind block => exact hwalk _ _ (by rw [block.visit_replacer]; rfl)
  | _ => exact hwalk _ none rfl

/-! ## The clauses of a block -/

def Projected.renewed? : Projected → Option Projected
  | .scalar value => (value.renewed? f).map .scalar
  | .object entityType access => (access.renewed? f).map (.object entityType ·)

def Column.renewed? (column : Column) : Option Column :=
  (column.expression.renewed? f).map (⟨·, column.aliasName⟩)

def Projection.renewed? : Projection → Option Projection
  | .pending mapping => rebuildMapping mapping (mapping.entries.map (·.2.renewed? f))
  | .frozen columns bindings =>
    (rebuildList columns (columns.map (Column.renewed? f))).map (.frozen · bindings)

/-- The source with its new payload, if there is one. A new array may have to be
wrapped. -/
def Source.renewed? : Source → Option Source
  | ⟨.root _ _, _, _⟩ => none
  | ⟨.select block, aliasName, iterated⟩ =>
    (block.renewed? f).map (⟨.select ·, aliasName, iterated⟩)
  | ⟨.collection array, aliasName, _⟩ => (array.renewed? f).map (Source.iterate · aliasName)
  | ⟨.raw _ _, _, _⟩ => none

def SortKey.renewed? (key : SortKey) : Option SortKey :=
  (key.expression.renewed? f).map (⟨·, key.ascending⟩)

/-- What is new in a block. -/
def Block.changes (block : Block) : Changes where
  projection := block.projection.renewed? f
  sources := rebuildList block.sources (block.sources.map (Source.renewed? f))
  predicate := block.predicate.bind (Expr.renewed? f)
  orderings := rebuildList block.orderings (block.orderings.map (SortKey.renewed? f))
  offset := block.offset.bind (Expr.renewed? f)
  limit := block.limit.bind (Expr.renewed? f)

theorem Projected.visit_replacer (projected : Projected) :
    projected.visit (replacer Unit f) = pure (projected.renewed? f) := by
  cases projected with
  | scalar value =>
      have hwalk : Projected.visit (replacer Unit f) (.scalar value) =
        value.visit (replacer Unit f) >>= fun new => pure (new.map .scalar) := rfl
      rw [hwalk, value.visit_replacer]
      rfl
  | object entityType access =>
      have hwalk : Projected.visit (replacer Unit f) (.object entityType access) =
        access.visit (replacer Unit f) >>= fun new => pure (new.map (.object entityType ·)) := rfl
      rw [hwalk, access.visit_replacer]
      rfl

theorem Projection.visit_replacer (projection : Projection) :
    projection.visit (replacer Unit f) = pure (projection.renewed? f) := by
  cases projection with
  | pending mapping =>
      have hvisit : visitEntries (replacer Unit f) mapping.entries =
          pure (mapping.entries.map (·.2.renewed? f)) :=
        walkAll_pure rfl (fun _ _ => rfl) fun entry _ => entry.2.visit_replacer f
      rw [Projection.visit, hvisit]
      rfl
  | frozen columns bindings =>
      have hvisit : visitColumns (replacer Unit f) columns =
          pure (columns.map (·.expression.renewed? f)) :=
        walkAll_pure rfl (fun column _ => by cases column; rfl)
          fun column _ => column.expression.visit_replacer f
      rw [Projection.visit, hvisit, pure_bind, rebuildColumns, List.zipWith_map_right,
        List.zipWith_self]
      rfl

theorem Source.visit_replacer (source : Source) :
    (replacer Unit f).onSource source
        (source.payload.visit (replacer Unit f) source.aliasName source.iterated) =
      pure (source.renewed? f) := by
  rcases source with ⟨payload, aliasName, iterated⟩
  cases payload with
  | root entityType container => rfl
  | select block =>
      change block.visit (replacer Unit f) >>= _ = _
      rw [block.visit_replacer]
      rfl
  | collection array =>
      change array.visit (replacer Unit f) >>= _ = _
      rw [array.visit_replacer]
      rfl
  | raw entityType text => rfl

theorem visitSources_replacer (sources : List Source) :
    visitSources (replacer Unit f) sources = pure (sources.map (Source.renewed? f)) :=
  walkAll_pure rfl (fun source _ => by cases source; rfl) fun source _ => source.visit_replacer f

theorem visitSortKeys_replacer (keys : List SortKey) :
    (visitSortKeys (replacer Unit f) keys >>= fun new => pure (rebuildSortKeys keys new)) =
      pure (rebuildList keys (keys.map (SortKey.renewed? f))) := by
  have hvisit : visitSortKeys (replacer Unit f) keys =
      pure (keys.map (·.expression.renewed? f)) :=
    walkAll_pure rfl (fun key _ => by cases key; rfl) fun key _ => key.expression.visit_replacer f
  rw [hvisit, pure_bind, rebuildSortKeys, List.zipWith_map_right, List.zipWith_self]
  rfl

theorem visitOptional_replacer (optional : Option Expr) :
    visitOptional (replacer Unit f) optional = pure (optional.bind (Expr.renewed? f)) := by
  cases optional with
  | none => rfl
  | some expression => exact expression.visit_replacer f

/-! ## Blocks -/

/-- A block is rebuilt with what is new in it. -/
theorem Block.renewed?_eq (block : Block) :
    block.renewed? f = block.rebuild (block.changes f) := by
  have hvisit : block.visit (replacer Unit f) = block.visitParts (replacer Unit f) :=
    block.visit_eq (replacer Unit f)
  rw [renewed?, hvisit, ← visitParts_eq, block.projection.visit_replacer, visitSources_replacer,
    visitOptional_replacer, visitSortKeys_replacer, visitOptional_replacer,
    visitOptional_replacer]
  rfl

/-- The block that is left has the parts that are left. -/
theorem Block.getD_renewed? (block : Block) :
    (block.renewed? f).getD block =
      block.update ((block.projection.renewed? f).getD block.projection)
        ((rebuildList block.sources (block.sources.map (Source.renewed? f))).getD block.sources)
        (block.predicate.bind (Expr.renewed? f) <|> block.predicate)
        ((rebuildList block.orderings (block.orderings.map (SortKey.renewed? f))).getD
          block.orderings)
        (block.limit.bind (Expr.renewed? f) <|> block.limit)
        (block.offset.bind (Expr.renewed? f) <|> block.offset) := by
  rw [renewed?_eq, getD_rebuild]
  rfl

end Renewed

/-! ## Inlining -/

section Inlined

variable (values : Values)

/-- The expression in which the parameters with a value are replaced. -/
def Expr.inlined (expression : Expr) : Expr :=
  (expression.renewed? (inlined? values)).getD expression

def Projected.inlined : Projected → Projected
  | .scalar value => .scalar (value.inlined values)
  | .object entityType access => .object entityType (access.inlined values)

def Block.inlined (block : Block) : Block :=
  (block.renewed? (inlined? values)).getD block

namespace Expr

variable {values}

theorem inlined_eq (expression : Expr) (h : inlined? values expression = none) :
    expression.inlined values = (expression.rebuilt? (inlined? values)).getD expression := by
  rw [inlined, renewed?_eq, h]
  rfl

@[simp] theorem inlined_constant (value : Json) (type : ValueType) :
    (constant value type).inlined values = constant value type :=
  inlined_eq _ rfl

theorem renewed?_parameter (name : String) (type : ValueType) :
    (parameter name type).renewed? (inlined? values) = (values name).map ofJson := by
  rw [renewed?_eq, inlined?]
  cases values name <;> rfl

@[simp] theorem inlined_parameter (name : String) (type : ValueType) :
    (parameter name type).inlined values =
      ((values name).map ofJson).getD (parameter name type) := by
  rw [inlined, renewed?_parameter]

@[simp] theorem inlined_binary (operator : Operator) (left right : Expr) (type : ValueType) :
    (binary operator left right type).inlined values =
      binary operator (left.inlined values) (right.inlined values) type :=
  (inlined_eq _ rfl).trans (getD_rebuildPair (binary operator · · type) left right _ _)

@[simp] theorem inlined_unary (operator : UnaryOperator) (operand : Expr) (type : ValueType) :
    (unary operator operand type).inlined values =
      unary operator (operand.inlined values) type :=
  (inlined_eq _ rfl).trans (Option.getD_map (unary operator · type) operand _)

@[simp] theorem inlined_property (base : Expr) (name : String) (type : ValueType) :
    (property base name type).inlined values = property (base.inlined values) name type :=
  (inlined_eq _ rfl).trans (Option.getD_map (property · name type) base _)

@[simp] theorem inlined_item (array index : Expr) (type : ValueType) :
    (item array index type).inlined values =
      item (array.inlined values) (index.inlined values) type :=
  (inlined_eq _ rfl).trans (getD_rebuildPair (item · · type) array index _ _)

@[simp] theorem inlined_call (function : String) (arguments : List Expr) (type : ValueType) :
    (call function arguments type).inlined values =
      call function (arguments.map (Expr.inlined values)) type := by
  rw [inlined_eq _ rfl, rebuilt?, Option.getD_map (call function · type), getD_rebuildList]
  rfl

@[simp] theorem inlined_inlineArray (items : List Expr) :
    (inlineArray items).inlined values = inlineArray (items.map (Expr.inlined values)) := by
  rw [inlined_eq _ rfl, rebuilt?, Option.getD_map inlineArray, getD_rebuildList]
  rfl

@[simp] theorem inlined_membership (value : Expr) (list : List Expr) (negated : Bool) :
    (membership value list negated).inlined values =
      membership (value.inlined values) (list.map (Expr.inlined values)) negated := by
  rw [inlined_eq _ rfl, rebuilt?, getD_rebuildPair (membership · · negated), getD_rebuildList]
  rfl

@[simp] theorem inlined_subquery (kind : SubqueryKind) (block : Block) :
    (subquery kind block).inlined values = subquery kind (block.inlined values) :=
  (inlined_eq _ rfl).trans (Option.getD_map (subquery kind ·) block _)

@[simp] theorem inlined_scalarReference (aliasName : String) (type : ValueType) :
    (scalarReference aliasName type).inlined values = scalarReference aliasName type :=
  inlined_eq _ rfl

@[simp] theorem inlined_objectReference (entityType aliasName : String) :
    (objectReference entityType aliasName).inlined values =
      objectReference entityType aliasName :=
  inlined_eq _ rfl

@[simp] theorem inlined_fragment (text : String) :
    (fragment text).inlined values = fragment text :=
  inlined_eq _ rfl

end Expr

theorem Projected.inlined_eq (projected : Projected) :
    (projected.renewed? (inlined? values)).getD projected = projected.inlined values := by
  cases projected with
  | scalar value => exact Option.getD_map Projected.scalar value _
  | object entityType access => exact Option.getD_map (Projected.object entityType ·) access _

namespace Projection

/-- If nothing changes, a position that is bound twice stays so. -/
theorem renewed?_pending (mapping : Mapping Projected) :
    (pending mapping).renewed? (inlined? values) =
      if ∀ entry ∈ mapping.entries, entry.2.renewed? (inlined? values) = none then none
      else some (.pending ((OrderedMap.ofList mapping.entries).mapValues
        (Projected.inlined values))) := by
  rw [renewed?, rebuildMapping_map]
  simp only [Projected.inlined_eq, OrderedMap.ofList_map]

theorem getD_renewed?_pending {mapping : Mapping Projected} (hnodup : mapping.keys.Nodup) :
    ((pending mapping).renewed? (inlined? values)).getD (.pending mapping) =
      .pending (mapping.mapValues (Projected.inlined values)) := by
  rw [renewed?, getD_rebuildMapping hnodup]
  simp only [Projected.inlined_eq]
  rfl

theorem getD_renewed?_frozen (columns : List Column) (bindings : Mapping Nat) :
    ((frozen columns bindings).renewed? (inlined? values)).getD (.frozen columns bindings) =
      .frozen (columns.map fun column => ⟨column.expression.inlined values, column.aliasName⟩)
        bindings := by
  rw [renewed?, Option.getD_map (frozen · bindings), getD_rebuildList]
  refine congrArg (frozen · bindings) (List.map_congr_left fun column _ => ?_)
  cases column with
  | mk projected aliasName =>
      rw [← Projected.inlined_eq]
      exact Option.getD_map (Column.mk · aliasName) projected _

end Projection

/-- Inlining never fails. -/
theorem Block.inline?_eq (block : Block) :
    block.inline? values = .ok (block.renewed? (inlined? values)) := by
  have hvisit : block.visit (inliner values).visitor = _ := block.visit_replacer (inlined? values)
  rw [inline?, hvisit]
  rfl

theorem Block.inline_eq (block : Block) : block.inline values = .ok (block.inlined values) := by
  rw [inline, inline?_eq]
  rfl

end Inlined

end DocumentQuery
