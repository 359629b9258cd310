import DocumentQuery.Proofs.Renewal
import DocumentQuery.Proofs.Sameness
/-!
# Inlining does not tell apart what is the same

Two blocks that are the same are left the same by inlining (`Block.same_inlined`),
and so are two expressions that are put out (`Projected.same_inlined`). The
reason is that constants in canonical form can be put in before or after a node
is brought into canonical form: both come to the same node.

`Respects` says this of one kind of node. The answer "unchanged" is a part of it,
because a mapping in which something changes has its positions collected anew.
-/

namespace DocumentQuery

variable {α β γ : Type}

/-! ## Canonical forms -/

@[simp] theorem Json.valueType_canonical (value : Json) :
    value.canonical.valueType = value.valueType := by
  cases value with
  | number value => cases value <;> rfl
  | _ => rfl

/-- The table with every value in canonical form. -/
def Values.canonical (values : Values) : Values :=
  fun name => (values name).map Json.canonical

theorem Expr.canonical_ofJson (value : Json) :
    (ofJson value).canonical = ofJson value.canonical := by
  rw [ofJson, ofJson, canonical, Json.valueType_canonical]

@[simp] theorem Expr.isPath_canonical (expression : Expr) :
    expression.canonical.isPath = expression.isPath := by
  induction expression using Expr.isPath.induct with
  | case1 entityType aliasName => rfl
  | case2 aliasName type => rfl
  | case3 base name type ih => simpa [canonical, isPath] using ih
  | case4 array index type ih => simpa [canonical, isPath] using ih
  | case5 expression hobject hscalar hproperty hitem =>
      cases expression with
      | objectReference entityType aliasName => exact absurd rfl (hobject _ _)
      | scalarReference aliasName type => exact absurd rfl (hscalar _ _)
      | property base name type => exact absurd rfl (hproperty _ _ _)
      | item array index type => exact absurd rfl (hitem _ _ _)
      | _ => simp [canonical, isPath]

@[simp] theorem Expr.accessName?_canonical (expression : Expr) :
    expression.canonical.accessName? = expression.accessName? := by
  cases expression <;> rfl

theorem Block.canonical_ofValue (expression : Expr) :
    (ofValue expression).canonical = ofValue expression.canonical := by
  simp [ofValue, empty, canonical, canonicalSources, Projection.canonical, canonicalColumns,
    newColumn, Projected.canonical, Projected.accessName?, Projected.expression, canonicalOptional,
    canonicalSortKeys, canonicalKeyBindings]

theorem Source.canonical_iterate (array : Expr) (aliasName : String) :
    (iterate array aliasName).canonical = iterate array.canonical aliasName := by
  rw [iterate, iterate, Expr.isPath_canonical]
  split
  · rfl
  · rw [canonical, Payload.canonical, Block.canonical_ofValue]

theorem Projection.canonical_pending (mapping : Mapping Projected) :
    (pending mapping).canonical = .pending (mapping.mapValues Projected.canonical) := by
  rw [canonical, canonicalEntries_eq_map]
  rfl

/-! ## Nodes of one kind -/

/-- Canonical constants do to the canonical form of a node what the constants do
to the node. -/
def Respects (values : Values) (new? : Values → α → Option α) (canonical : α → α) (node : α) :
    Prop :=
  new? values.canonical (canonical node) = (new? values node).map canonical

namespace Respects

variable {values : Values} {new? : Values → α → Option α} {canonical : α → α}

theorem eq {node : α} (h : Respects values new? canonical node) :
    new? values.canonical (canonical node) = (new? values node).map canonical := h

theorem leaf {node : α} (h : ∀ values, new? values node = none) (hnode : canonical node = node) :
    Respects values new? canonical node := by
  rw [Respects, hnode, h, h, Option.map_none]

/-- A node around a part. -/
theorem map {a : α} (h : Respects values new? canonical a) {newNode? : Values → β → Option β}
    {canonicalNode : β → β} (node : α → β)
    (hnode : ∀ values part, newNode? values (node part) = (new? values part).map node)
    (hcanonical : ∀ part, canonicalNode (node part) = node (canonical part)) :
    Respects values newNode? canonicalNode (node a) := by
  rw [Respects, hcanonical, hnode, hnode, h, Option.map_map, Option.map_map]
  refine Option.map_congr fun part _ => ?_
  exact (hcanonical part).symm

/-- A node of two parts. -/
theorem pair {a : α} {b : β} {newSecond? : Values → β → Option β} {canonicalSecond : β → β}
    (h : Respects values new? canonical a)
    (hsecond : Respects values newSecond? canonicalSecond b)
    {newNode? : Values → γ → Option γ} {canonicalNode : γ → γ} (node : α → β → γ)
    (hnode : ∀ values a b, newNode? values (node a b) =
      rebuildPair node a b (new? values a) (newSecond? values b))
    (hcanonical : ∀ a b, canonicalNode (node a b) = node (canonical a) (canonicalSecond b)) :
    Respects values newNode? canonicalNode (node a b) := by
  rw [Respects, hcanonical, hnode, hnode, h, hsecond]
  cases new? values a <;> cases newSecond? values b <;> simp [rebuildPair, hcanonical]

theorem list {items : List α} (h : ∀ item ∈ items, Respects values new? canonical item) :
    Respects values (fun values items => rebuildList items (items.map (new? values)))
      (List.map canonical) items := by
  have hnone : (∀ item ∈ items.map canonical, new? values.canonical item = none) ↔
      ∀ item ∈ items, new? values item = none := by
    rw [List.forall_mem_map]
    refine forall₂_congr fun item hitem => ?_
    rw [h item hitem, Option.map_eq_none_iff]
  rw [Respects, rebuildList_map, rebuildList_map, if_congr hnone rfl rfl, apply_ite (Option.map _),
    Option.map_none, Option.map_some, List.map_map, List.map_map]
  refine congrArg (ite _ none ∘ some) (List.map_congr_left fun item hitem => ?_)
  rw [Function.comp_apply, h item hitem, Option.getD_map]
  rfl

end Respects

section Nodes

variable (values : Values)

abbrev Expr.Respects (expression : Expr) : Prop :=
  DocumentQuery.Respects values (fun values => Expr.renewed? (inlined? values)) Expr.canonical
    expression

abbrev Block.Respects (block : Block) : Prop :=
  DocumentQuery.Respects values (fun values => Block.renewed? (inlined? values)) Block.canonical
    block

variable {values}

/-! ## Expressions -/

theorem Expr.respects_parameter (name : String) (type : ValueType) :
    (parameter name type).Respects values := by
  change (parameter name type).renewed? (inlined? values.canonical) =
    ((parameter name type).renewed? (inlined? values)).map canonical
  rw [renewed?_parameter, renewed?_parameter, Values.canonical, Option.map_map, Option.map_map]
  refine Option.map_congr fun value _ => ?_
  exact (canonical_ofJson value).symm

theorem Expr.respects_of_parts {expression : Expr}
    (hparts : ∀ part ∈ expression.parts, part.Respects values)
    (hblock : ∀ block ∈ expression.block?, block.Respects values) :
    expression.Respects values := by
  cases expression with
  | constant value type =>
      have hnone : ∀ values value, (constant value type).renewed? (inlined? values) = none :=
        fun values value => renewed?_eq _ _
      rw [Respects, DocumentQuery.Respects, canonical, hnone, hnone, Option.map_none]
  | parameter name type => exact respects_parameter name type
  | binary operator left right type =>
      obtain ⟨hleft, hright⟩ : left.Respects values ∧ right.Respects values := by
        simpa [parts] using hparts
      exact hleft.pair hright (binary operator · · type) (fun _ _ _ => renewed?_eq _ _)
        fun _ _ => rfl
  | unary operator operand type =>
      have hoperand : operand.Respects values := by simpa [parts] using hparts
      exact hoperand.map (unary operator · type) (fun _ _ => renewed?_eq _ _) fun _ => rfl
  | property base name type =>
      have hbase : base.Respects values := by simpa [parts] using hparts
      exact hbase.map (property · name type) (fun _ _ => renewed?_eq _ _) fun _ => rfl
  | item array index type =>
      obtain ⟨harray, hindex⟩ : array.Respects values ∧ index.Respects values := by
        simpa [parts] using hparts
      exact harray.pair hindex (item · · type) (fun _ _ _ => renewed?_eq _ _) fun _ _ => rfl
  | call function arguments type =>
      refine (Respects.list hparts).map (call function · type)
        (fun _ _ => renewed?_eq _ _) fun arguments => ?_
      rw [canonical, canonicalExprs_eq_map]
  | inlineArray items =>
      refine (Respects.list hparts).map inlineArray (fun _ _ => renewed?_eq _ _) fun items => ?_
      rw [canonical, canonicalExprs_eq_map]
  | membership value list negated =>
      obtain ⟨hvalue, hlist⟩ := List.forall_mem_cons.mp hparts
      refine hvalue.pair (Respects.list hlist) (membership · · negated)
        (fun _ _ _ => renewed?_eq _ _) fun value list => ?_
      rw [canonical, canonicalExprs_eq_map]
  | subquery kind block =>
      exact (hblock block rfl).map (subquery kind ·) (fun _ _ => renewed?_eq _ _) fun _ => rfl
  | scalarReference aliasName type => exact .leaf (fun _ => renewed?_eq _ _) rfl
  | objectReference entityType aliasName => exact .leaf (fun _ => renewed?_eq _ _) rfl
  | fragment text => exact .leaf (fun _ => renewed?_eq _ _) rfl

/-! ## The clauses of a block -/

theorem respects_projected {projected : Projected}
    (h : projected.expression.Respects values) :
    Respects values (fun values => Projected.renewed? (inlined? values)) Projected.canonical
      projected := by
  cases projected with
  | scalar value => exact Respects.map h Projected.scalar (fun _ _ => rfl) fun _ => rfl
  | object entityType access =>
      exact Respects.map h (Projected.object entityType ·) (fun _ _ => rfl) fun _ => rfl

theorem Projected.canonical_inlined {projected : Projected}
    (h : projected.expression.Respects values) :
    (projected.inlined values).canonical = projected.canonical.inlined values.canonical := by
  rw [← inlined_eq, ← inlined_eq, (respects_projected h).eq, Option.getD_map]

/-- Positions are told apart as they stand, so the same ones are collected. -/
theorem respects_pending {mapping : Mapping Projected}
    (h : ∀ entry ∈ mapping.entries, entry.2.expression.Respects values) :
    Respects values (fun values => Projection.renewed? (inlined? values)) Projection.canonical
      (.pending mapping) := by
  have hnone : (∀ entry ∈ (mapping.mapValues Projected.canonical).entries,
        entry.2.renewed? (inlined? values.canonical) = none) ↔
      ∀ entry ∈ mapping.entries, entry.2.renewed? (inlined? values) = none := by
    rw [OrderedMap.mapValues, List.forall_mem_map]
    refine forall₂_congr fun entry hentry => ?_
    rw [(respects_projected (h entry hentry)).eq, Option.map_eq_none_iff]
  have hinlined : ((OrderedMap.ofList mapping.entries).mapValues Projected.canonical).mapValues
        (Projected.inlined values.canonical) =
      ((OrderedMap.ofList mapping.entries).mapValues (Projected.inlined values)).mapValues
        Projected.canonical := by
    rw [OrderedMap.mapValues_mapValues, OrderedMap.mapValues_mapValues]
    refine OrderedMap.mapValues_congr fun entry hentry => ?_
    exact (Projected.canonical_inlined
      (h entry (OrderedMap.mem_of_mem_entries_ofList hentry))).symm
  have hcollected : OrderedMap.ofList (mapping.mapValues Projected.canonical).entries =
      (OrderedMap.ofList mapping.entries).mapValues Projected.canonical :=
    OrderedMap.ofList_map Projected.canonical mapping.entries
  rw [Respects, Projection.canonical_pending, Projection.renewed?_pending,
    Projection.renewed?_pending, if_congr hnone rfl rfl, apply_ite (Option.map _),
    Option.map_none, Option.map_some, Projection.canonical_pending, hcollected, hinlined]

theorem respects_frozen {columns : List Column}
    (h : ∀ column ∈ columns, column.expression.expression.Respects values)
    (bindings : Mapping Nat) :
    Respects values (fun values => Projection.renewed? (inlined? values)) Projection.canonical
      (.frozen columns bindings) := by
  have hcolumns : ∀ column ∈ columns,
      Respects values (fun values => Column.renewed? (inlined? values)) Column.canonical
        column := by
    rintro ⟨projected, aliasName⟩ hcolumn
    exact (respects_projected (h _ hcolumn)).map (Column.mk · aliasName) (fun _ _ => rfl)
      fun _ => rfl
  refine (Respects.list hcolumns).map (Projection.frozen · bindings) (fun _ _ => rfl)
    fun columns => ?_
  rw [Projection.canonical, canonicalColumns_eq_map]

theorem respects_projection {projection : Projection}
    (h : ∀ expression ∈ projection.expressions, expression.Respects values) :
    Respects values (fun values => Projection.renewed? (inlined? values)) Projection.canonical
      projection := by
  cases projection with
  | pending mapping =>
      refine respects_pending fun entry hentry => h _ ?_
      exact List.mem_map_of_mem (List.mem_map_of_mem hentry)
  | frozen columns bindings =>
      exact respects_frozen (fun column hcolumn => h _ (List.mem_map_of_mem hcolumn)) bindings

/-- Whether an array has to be wrapped, its canonical form tells as well. -/
theorem respects_collection {array : Expr} (h : array.Respects values) (aliasName : String)
    (iterated : Bool) :
    Respects values (fun values => Source.renewed? (inlined? values)) Source.canonical
      ⟨.collection array, aliasName, iterated⟩ := by
  change (array.canonical.renewed? (inlined? values.canonical)).map (Source.iterate · aliasName) =
    ((array.renewed? (inlined? values)).map (Source.iterate · aliasName)).map Source.canonical
  rw [h.eq, Option.map_map, Option.map_map]
  refine Option.map_congr fun new _ => ?_
  exact (Source.canonical_iterate new aliasName).symm

theorem respects_source {source : Source}
    (hcollection : ∀ expression ∈ source.collection?, expression.Respects values)
    (hblock : ∀ block ∈ source.block?, block.Respects values) :
    Respects values (fun values => Source.renewed? (inlined? values)) Source.canonical source := by
  rcases source with ⟨payload, aliasName, iterated⟩
  cases payload with
  | root entityType container => exact .leaf (fun _ => rfl) rfl
  | select block =>
      exact Respects.map (hblock block rfl)
        (fun block => Source.mk (.select block) aliasName iterated) (fun _ _ => rfl) fun _ => rfl
  | collection array => exact respects_collection (hcollection array rfl) aliasName iterated
  | raw entityType text => exact .leaf (fun _ => rfl) rfl

theorem respects_sortKey {key : SortKey} (h : key.expression.Respects values) :
    Respects values (fun values => SortKey.renewed? (inlined? values)) SortKey.canonical key := by
  rcases key with ⟨expression, ascending⟩
  exact Respects.map h (SortKey.mk · ascending) (fun _ _ => rfl) fun _ => rfl

theorem respects_optional {optional : Option Expr}
    (h : ∀ expression ∈ optional.toList, expression.Respects values) :
    (canonicalOptional optional).bind (Expr.renewed? (inlined? values.canonical)) =
      (optional.bind (Expr.renewed? (inlined? values))).map Expr.canonical := by
  cases optional with
  | none => rfl
  | some expression => exact h expression (Option.mem_toList.mpr rfl)

/-! ## Blocks -/

def Changes.canonical (changes : Changes) : Changes where
  projection := changes.projection.map Projection.canonical
  sources := changes.sources.map (List.map Source.canonical)
  predicate := changes.predicate.map Expr.canonical
  orderings := changes.orderings.map (List.map SortKey.canonical)
  offset := changes.offset.map Expr.canonical
  limit := changes.limit.map Expr.canonical

theorem Changes.isEmpty_canonical (changes : Changes) :
    changes.canonical.isEmpty = changes.isEmpty := by
  simp only [isEmpty, canonical, Option.isNone_map]

theorem canonicalOptional_orElse (new old : Option Expr) :
    canonicalOptional (new <|> old) = (new.map Expr.canonical <|> canonicalOptional old) := by
  cases new <;> rfl

theorem Block.rebuild_canonical (block : Block) (changes : Changes) :
    block.canonical.rebuild changes.canonical = (block.rebuild changes).map canonical := by
  rw [rebuild, rebuild, Changes.isEmpty_canonical, apply_ite (Option.map _), Option.map_none,
    Option.map_some]
  rcases block with ⟨sources, projection, predicate, orderings, limit, offset, distinct,
    singleValue, keyBindings, pointRead⟩
  simp only [update, canonical, Changes.canonical, Option.getD_map, canonicalOptional_orElse,
    canonicalSources_eq_map, canonicalSortKeys_eq_map]

theorem Block.respects_of_clauses {block : Block}
    (hexpressions : ∀ expression ∈ block.expressions, expression.Respects values)
    (hblocks : ∀ inner ∈ block.sourceBlocks, inner.Respects values) :
    block.Respects values := by
  simp only [expressions, List.forall_mem_append] at hexpressions
  obtain ⟨⟨⟨⟨⟨hprojection, hcollections⟩, hpredicate⟩, horderings⟩, hoffset⟩, hlimit⟩ :=
    hexpressions
  have hprojection := respects_projection hprojection
  have hsources := Respects.list fun source hsource => respects_source
    (fun array harray => hcollections array (List.mem_filterMap.mpr ⟨source, hsource, harray⟩))
    fun inner hinner => hblocks inner (List.mem_filterMap.mpr ⟨source, hsource, hinner⟩)
  have horderings := Respects.list fun key hkey =>
    respects_sortKey (horderings key.expression (List.mem_map_of_mem hkey))
  have hchanges : block.canonical.changes (inlined? values.canonical) =
      (block.changes (inlined? values)).canonical := by
    rcases block with ⟨sources, projection, predicate, orderings, limit, offset, distinct,
      singleValue, keyBindings, pointRead⟩
    simp only [changes, canonical, Changes.canonical, Changes.mk.injEq, canonicalSources_eq_map,
      canonicalSortKeys_eq_map]
    exact ⟨hprojection, hsources, respects_optional hpredicate, horderings,
      respects_optional hoffset, respects_optional hlimit⟩
  change block.canonical.renewed? (inlined? values.canonical) =
    (block.renewed? (inlined? values)).map canonical
  rw [renewed?_eq, renewed?_eq, hchanges, rebuild_canonical]

theorem respects : PassesOutward (Expr.Respects values) (Block.Respects values) :=
  ⟨fun _ => Expr.respects_of_parts, fun _ => Block.respects_of_clauses⟩

end Nodes

/-! ## What is the same -/

section Same

variable (values : Values)

/-- Inlining respects sameness of what is put out. -/
theorem Projected.same_inlined {a b : Projected} (h : a.same b = true) :
    (a.inlined values).same (b.inlined values) = true := by
  rw [same_iff] at h ⊢
  rw [canonical_inlined (respects.all_expr a.expression), h,
    canonical_inlined (respects.all_expr b.expression)]

/-- Inlining respects sameness of blocks. -/
theorem Block.same_inlined {a b : Block} (h : a.same b = true) :
    (a.inlined values).same (b.inlined values) = true := by
  have hcanonical : ∀ block : Block,
      (block.inlined values).canonical = block.canonical.inlined values.canonical := by
    intro block
    have hblock : block.Respects values := respects.all_block block
    rw [inlined, inlined, hblock.eq, Option.getD_map]
  rw [same_iff] at h ⊢
  rw [hcanonical, hcanonical, h]

end Same

end DocumentQuery
