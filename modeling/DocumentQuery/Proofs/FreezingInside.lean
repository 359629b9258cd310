import DocumentQuery.Block.Build
import DocumentQuery.Proofs.Calls
import DocumentQuery.Proofs.Preview
/-!
# Freezing inside a block

A pending block is shown as it would be frozen. So the text of a block does not
tell which of the pending blocks in it have been frozen, be it the block itself,
and which of the bindings that freezing leaves have been cleared
(`Block.render_of_freezesTo`).

`Block.FreezesTo` relates a block to all that it can become in this way. At each
place any version of the block that stands there may stand afterwards
(`Block.Version`). What a pending block puts out is not touched: the same
expressions there become one column, and they would become two if a subquery were
frozen in one of them.
-/

namespace DocumentQuery

/-! ## Blocks with some blocks frozen -/

/-- A block as it is, or, if it is pending and can be frozen, the frozen block,
with what its positions are bound to or without. -/
inductive Block.Version (block : Block) : Block → Prop where
  | kept : Version block block
  | frozen (pending : block.projection.isFrozen = false)
      (applied : block.applyProjection.answer = .ok ()) : Version block block.applyProjection.block
  | cleared (pending : block.projection.isFrozen = false)
      (applied : block.applyProjection.answer = .ok ()) :
      Version block block.applyProjection.block.clearMapping

mutual

/-- The second expression is the first one with any of the blocks in it frozen. -/
inductive Expr.FreezesTo : Expr → Expr → Prop
  | same (expression : Expr) : Expr.FreezesTo expression expression
  | binary (operator : Operator) (type : ValueType) {left left' right right' : Expr} :
      Expr.FreezesTo left left' → Expr.FreezesTo right right' →
        Expr.FreezesTo (.binary operator left right type) (.binary operator left' right' type)
  | unary (operator : UnaryOperator) (type : ValueType) {operand operand' : Expr} :
      Expr.FreezesTo operand operand' →
        Expr.FreezesTo (.unary operator operand type) (.unary operator operand' type)
  | property (name : String) (type : ValueType) {base base' : Expr} :
      Expr.FreezesTo base base' →
        Expr.FreezesTo (.property base name type) (.property base' name type)
  | item (type : ValueType) {array array' index index' : Expr} :
      Expr.FreezesTo array array' → Expr.FreezesTo index index' →
        Expr.FreezesTo (.item array index type) (.item array' index' type)
  | call (function : String) (type : ValueType) {arguments arguments' : List Expr} :
      ExprsFreezeTo arguments arguments' →
        Expr.FreezesTo (.call function arguments type) (.call function arguments' type)
  | inlineArray {items items' : List Expr} :
      ExprsFreezeTo items items' → Expr.FreezesTo (.inlineArray items) (.inlineArray items')
  | membership (negated : Bool) {value value' : Expr} {values values' : List Expr} :
      Expr.FreezesTo value value' → ExprsFreezeTo values values' →
        Expr.FreezesTo (.membership value values negated) (.membership value' values' negated)
  | subquery (kind : SubqueryKind) {block block' : Block} :
      Block.FreezesTo block block' → Expr.FreezesTo (.subquery kind block) (.subquery kind block')

inductive ExprsFreezeTo : List Expr → List Expr → Prop
  | nil : ExprsFreezeTo [] []
  | cons {expression expression' : Expr} {rest rest' : List Expr} :
      Expr.FreezesTo expression expression' → ExprsFreezeTo rest rest' →
        ExprsFreezeTo (expression :: rest) (expression' :: rest')

inductive OptionalFreezesTo : Option Expr → Option Expr → Prop
  | none : OptionalFreezesTo none none
  | some {expression expression' : Expr} :
      Expr.FreezesTo expression expression' →
        OptionalFreezesTo (some expression) (some expression')

inductive Projected.FreezesTo : Projected → Projected → Prop
  | scalar {value value' : Expr} :
      Expr.FreezesTo value value' → Projected.FreezesTo (.scalar value) (.scalar value')
  | object (entityType : String) {access access' : Expr} :
      Expr.FreezesTo access access' →
        Projected.FreezesTo (.object entityType access) (.object entityType access')

inductive ColumnsFreezeTo : List Column → List Column → Prop
  | nil : ColumnsFreezeTo [] []
  | cons (aliasName : String) {expression expression' : Projected} {rest rest' : List Column} :
      Projected.FreezesTo expression expression' → ColumnsFreezeTo rest rest' →
        ColumnsFreezeTo (⟨expression, aliasName⟩ :: rest) (⟨expression', aliasName⟩ :: rest')

/-- Only frozen columns are looked into. -/
inductive Projection.FreezesTo : Projection → Projection → Prop
  | pending (mapping : Mapping Projected) :
      Projection.FreezesTo (.pending mapping) (.pending mapping)
  | frozen (bindings : Mapping Nat) {columns columns' : List Column} :
      ColumnsFreezeTo columns columns' →
        Projection.FreezesTo (.frozen columns bindings) (.frozen columns' bindings)

inductive Payload.FreezesTo : Payload → Payload → Prop
  | root (entityType container : String) :
      Payload.FreezesTo (.root entityType container) (.root entityType container)
  | select {block block' : Block} :
      Block.FreezesTo block block' → Payload.FreezesTo (.select block) (.select block')
  | collection {array array' : Expr} :
      Expr.FreezesTo array array' → Payload.FreezesTo (.collection array) (.collection array')
  | raw (entityType text : String) :
      Payload.FreezesTo (.raw entityType text) (.raw entityType text)

inductive SourcesFreezeTo : List Source → List Source → Prop
  | nil : SourcesFreezeTo [] []
  | cons (aliasName : String) (iterated : Bool) {payload payload' : Payload}
      {rest rest' : List Source} :
      Payload.FreezesTo payload payload' → SourcesFreezeTo rest rest' →
        SourcesFreezeTo (⟨payload, aliasName, iterated⟩ :: rest)
          (⟨payload', aliasName, iterated⟩ :: rest')

inductive SortKeysFreezeTo : List SortKey → List SortKey → Prop
  | nil : SortKeysFreezeTo [] []
  | cons (ascending : Bool) {expression expression' : Expr} {rest rest' : List SortKey} :
      Expr.FreezesTo expression expression' → SortKeysFreezeTo rest rest' →
        SortKeysFreezeTo (⟨expression, ascending⟩ :: rest) (⟨expression', ascending⟩ :: rest')

/-- The second block is the first one with any of the pending blocks frozen that
are the block itself or stand in it, at any depth, in sources, the predicate, sort
keys, the offset, the limit and frozen columns. -/
inductive Block.FreezesTo : Block → Block → Prop
  | version (distinct singleValue : Bool) (keyBindings : List KeyBinding)
      (pointRead : Option PointRead) {sources sources' : List Source}
      {projection projection' : Projection} {predicate predicate' : Option Expr}
      {orderings orderings' : List SortKey} {limit limit' offset offset' : Option Expr}
      {block : Block} :
      SourcesFreezeTo sources sources' → Projection.FreezesTo projection projection' →
        OptionalFreezesTo predicate predicate' → SortKeysFreezeTo orderings orderings' →
        OptionalFreezesTo limit limit' → OptionalFreezesTo offset offset' →
        Block.Version ⟨sources', projection', predicate', orderings', limit', offset', distinct,
          singleValue, keyBindings, pointRead⟩ block →
        Block.FreezesTo ⟨sources, projection, predicate, orderings, limit, offset, distinct,
          singleValue, keyBindings, pointRead⟩ block

end

/-! ## One block -/

namespace Block

variable {block other : Block}

theorem preview_of_settle {columns : List Column} {bindings : Mapping Nat}
    (h : block.settle = .ok (columns, bindings)) : block.projection.preview = columns := by
  cases hprojection : block.projection with
  | pending mapping =>
      have hfrozen := ((settle_pending_eq_ok_iff hprojection columns bindings).mp h).1
      rw [Projection.preview, Projection.freeze, hfrozen]
      rfl
  | frozen others bindings' =>
      rw [settle_frozen hprojection] at h
      cases h
      rfl

/-- Of a projection the text shows the preview alone. -/
theorem render_withProjection {projection : Projection}
    (h : projection.preview = block.projection.preview) (width : Nat) :
    (block.withProjection projection).render width = block.render width := by
  rw [render_eq, render_eq, withProjection, Projection.render_eq, h, ← Projection.render_eq]

theorem Version.render_eq (h : block.Version other) (width : Nat) :
    other.render width = block.render width := by
  cases hsettle : block.settle with
  | error error =>
      have happly := applyProjection_of_settle_error hsettle
      cases h with
      | kept => rfl
      | frozen pending applied => rw [happly] at applied; cases applied
      | cleared pending applied => rw [happly] at applied; cases applied
  | ok settled =>
      rcases settled with ⟨columns, bindings⟩
      have happly := applyProjection_of_settle hsettle
      have hpreview : ∀ bindings, (Projection.frozen columns bindings).preview =
          block.projection.preview :=
        fun _ => (preview_of_settle hsettle).symm
      cases h with
      | kept => rfl
      | frozen pending applied =>
          rw [happly]
          exact render_withProjection (hpreview bindings) width
      | cleared pending applied =>
          rw [happly]
          exact render_withProjection (hpreview .empty) width

end Block

/-! ## Texts around a block -/

theorem Expr.FreezesTo.isPath_eq : ∀ {expression expression' : Expr},
    expression.FreezesTo expression' → expression'.isPath = expression.isPath
  | _, _, .same _ => rfl
  | _, _, .binary .. => rfl
  | _, _, .unary .. => rfl
  | _, _, .property _ _ hbase => hbase.isPath_eq
  | _, _, .item _ harray _ => harray.isPath_eq
  | _, _, .call .. => rfl
  | _, _, .inlineArray _ => rfl
  | _, _, .membership .. => rfl
  | _, _, .subquery .. => rfl

theorem Expr.FreezesTo.accessName?_eq {expression expression' : Expr}
    (h : expression.FreezesTo expression') : expression'.accessName? = expression.accessName? := by
  cases h <;> rfl

theorem Expr.FreezesTo.negated_eq {operand operand' : Expr} (h : operand.FreezesTo operand')
    (text : String) : negated operand' text = negated operand text := by
  have hpath := h.isPath_eq
  cases h with
  | same => rfl
  | _ => simp only [negated, hpath]

theorem Projected.FreezesTo.accessName?_eq {projected projected' : Projected}
    (h : projected.FreezesTo projected') : projected'.accessName? = projected.accessName? := by
  cases h with
  | scalar hvalue => exact hvalue.accessName?_eq
  | object entityType haccess => exact haccess.accessName?_eq

/-- What the first line of a text takes from a column: its text with an alias and
without. -/
def columnTexts (column : Column × String) : String × String :=
  (columnText column.1 column.2, column.2)

theorem selectText_congr {columns columns' : List (Column × String)}
    (h : columns'.map columnTexts = columns.map columnTexts) (distinct singleValue : Bool) :
    selectText distinct singleValue columns' = selectText distinct singleValue columns := by
  have hlist : ∀ columns : List (Column × String),
      columns.map (fun column => columnText column.1 column.2) =
        (columns.map columnTexts).map Prod.fst := by
    intro columns
    rw [List.map_map]
    rfl
  cases columns with
  | nil => rw [List.map_eq_nil_iff.mp h]
  | cons first rest =>
      cases columns' with
      | nil => cases h
      | cons first' rest' =>
          have hfirst : columnTexts first' = columnTexts first := (List.cons.inj h).1
          have htext : first'.2 = first.2 :=
            congrArg (fun texts : String × String => texts.2) hfirst
          simp only [selectText, hlist, h, htext]

section Render

variable (width : Nat)

mutual

theorem Expr.FreezesTo.render_eq : ∀ {expression expression' : Expr},
    expression.FreezesTo expression' → expression'.render width = expression.render width
  | _, _, .same _ => rfl
  | _, _, .binary _ _ hleft hright => by
      rw [Expr.render, Expr.render, hleft.render_eq, hright.render_eq]
  | _, _, .unary .not _ hoperand => by rw [Expr.render, Expr.render, hoperand.render_eq]
  | _, _, .unary .negate _ hoperand => by
      rw [Expr.render, Expr.render, hoperand.render_eq, hoperand.negated_eq]
  | _, _, .property _ _ hbase => by rw [Expr.render, Expr.render, hbase.render_eq]
  | _, _, .item _ harray hindex => by
      rw [Expr.render, Expr.render, harray.render_eq, hindex.render_eq]
  | _, _, .call _ _ harguments => by rw [Expr.render, Expr.render, harguments.render_eq]
  | _, _, .inlineArray hitems => by rw [Expr.render, Expr.render, hitems.render_eq]
  | _, _, .membership _ hvalue hvalues => by
      rw [Expr.render, Expr.render, hvalue.render_eq, hvalues.render_eq]
  | _, _, .subquery _ hblock => by rw [Expr.render, Expr.render, hblock.render_eq]

theorem ExprsFreezeTo.render_eq : ∀ {expressions expressions' : List Expr},
    ExprsFreezeTo expressions expressions' →
      renderExprs width expressions' = renderExprs width expressions
  | _, _, .nil => rfl
  | _, _, .cons hfirst hrest => by
      rw [renderExprs, renderExprs, hfirst.render_eq, hrest.render_eq]

theorem OptionalFreezesTo.render_eq : ∀ {optional optional' : Option Expr},
    OptionalFreezesTo optional optional' →
      renderOptional width optional' = renderOptional width optional
  | _, _, .none => rfl
  | _, _, .some h => by rw [renderOptional, renderOptional, h.render_eq]

theorem Projected.FreezesTo.render_eq : ∀ {projected projected' : Projected},
    projected.FreezesTo projected' → projected'.render width = projected.render width
  | _, _, .scalar h => h.render_eq
  | _, _, .object _ h => h.render_eq

theorem ColumnsFreezeTo.texts_eq : ∀ {columns columns' : List Column},
    ColumnsFreezeTo columns columns' →
      (renderColumns width columns').map columnTexts =
        (renderColumns width columns).map columnTexts
  | _, _, .nil => rfl
  | _, _, .cons _ hfirst hrest => by
      rw [renderColumns, renderColumns, List.map_cons, List.map_cons, hrest.texts_eq, columnTexts,
        columnTexts, columnText, columnText, hfirst.render_eq, hfirst.accessName?_eq]

theorem Projection.FreezesTo.texts_eq : ∀ {projection projection' : Projection},
    projection.FreezesTo projection' →
      (projection'.render width).map columnTexts = (projection.render width).map columnTexts
  | _, _, .pending _ => rfl
  | _, _, .frozen _ hcolumns => hcolumns.texts_eq

theorem Payload.FreezesTo.render_eq : ∀ {payload payload' : Payload},
    payload.FreezesTo payload' → payload'.render width = payload.render width
  | _, _, .root _ _ => rfl
  | _, _, .select hblock => by rw [Payload.render, Payload.render, hblock.render_eq]
  | _, _, .collection harray => harray.render_eq
  | _, _, .raw _ _ => rfl

theorem SourcesFreezeTo.render_eq : ∀ {sources sources' : List Source},
    SourcesFreezeTo sources sources' → renderSources width sources' = renderSources width sources
  | _, _, .nil => rfl
  | _, _, .cons _ _ hfirst hrest => by
      rw [renderSources, renderSources, hfirst.render_eq, hrest.render_eq]

theorem SortKeysFreezeTo.render_eq : ∀ {keys keys' : List SortKey},
    SortKeysFreezeTo keys keys' → renderSortKeys width keys' = renderSortKeys width keys
  | _, _, .nil => rfl
  | _, _, .cons _ hfirst hrest => by
      rw [renderSortKeys, renderSortKeys, hfirst.render_eq, hrest.render_eq]

theorem Block.FreezesTo.render_eq : ∀ {block block' : Block},
    block.FreezesTo block' → block'.render width = block.render width
  | _, _, .version distinct singleValue _ _ hsources hprojection hpredicate horderings hlimit
      hoffset hversion => by
      rw [hversion.render_eq, Block.render, Block.render, hsources.render_eq,
        hpredicate.render_eq, horderings.render_eq, hlimit.render_eq, hoffset.render_eq,
        selectText_congr hprojection.texts_eq]

end

end Render

/-- Whichever of the pending blocks in a block are frozen, and whether or not what
their positions are bound to is cleared then, the text of the block stays the
same. -/
theorem Block.render_of_freezesTo (config : Config) {block frozen : Block}
    (h : block.FreezesTo frozen) :
    frozen.render config.indentWidth = block.render config.indentWidth :=
  h.render_eq config.indentWidth

/-- A block with a subquery of several lines, in which three positions are bound to
two names, and the first two of the positions differ in letter case alone. Both
blocks are frozen, and the bindings of the subquery are cleared. -/
theorem Block.render_of_freezesTo_subquery :
    let name := Projected.scalar (.property (.objectReference "Tag" "t") "Name" .string)
    let url := Projected.scalar (.property (.objectReference "Tag" "t") "Url" .string)
    let tags := { Block.empty with
      sources := [.root "Tag" "tags" "t"]
      projection := .pending ⟨[(⟨[.field "Title"]⟩, name), (⟨[.field "TITLE"]⟩, url),
        (⟨[.field "Name"]⟩, name)]⟩ }
    let blogs := forEntity .default "Blog"
    let asking := { blogs with predicate := some (.subquery .exists tags) }
    let frozenTags := tags.applyProjection.block.clearMapping
    let askingFrozen := { blogs with predicate := some (.subquery .exists frozenTags) }
    asking.FreezesTo askingFrozen.applyProjection.block ∧
      askingFrozen.applyProjection.block.projection.isFrozen = true ∧
      frozenTags.projection.columns.length = 2 ∧
      askingFrozen.applyProjection.block.render Config.default.indentWidth =
        asking.render Config.default.indentWidth := by
  intro name url tags blogs asking frozenTags askingFrozen
  have htags : tags.FreezesTo frozenTags :=
    .version false false [] none (.cons "t" false (.root "Tag" "tags") .nil) (.pending _) .none .nil
      .none .none (.cleared rfl rfl)
  have hasking : asking.FreezesTo askingFrozen.applyProjection.block :=
    .version false false [] none (.cons "c" false (.root "Blog" "root") .nil) (.pending _)
      (.some (.subquery .exists htags)) .nil .none .none (.frozen rfl rfl)
  exact ⟨hasking, rfl, by decide +kernel, render_of_freezesTo .default hasking⟩

end DocumentQuery
