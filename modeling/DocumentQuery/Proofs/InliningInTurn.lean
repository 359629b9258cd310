import DocumentQuery.Proofs.Renewal
/-!
# Inlining one table after the other

Inlining the values of one table and then those of another comes to inlining
both at once, the first table prevailing (`Block.inline_inline`). This holds of
blocks that are not valid too. The first table may wrap an array into a query
with a column of its own, and may collapse positions that are bound twice; the
second one then meets what the two together would have made at once, because
inlining keeps what an array and the name of a column depend on: whether an
expression is a path, and the name that it is known by.

`Composes` says this of one kind of node. It passes to a node from its parts, so
each kind of node has a lemma and the rest is an induction over the nesting.
-/

namespace DocumentQuery

variable {α β γ : Type}

/-- The values of two tables, the first of which prevails. -/
def Values.orElse (first second : Values) : Values :=
  fun name => (first name).or (second name)

/-! ## Changes made in turn -/

theorem rebuildPair_or (node : α → β → γ) (a : α) (b : β) (a₁ a₂ : Option α) (b₁ b₂ : Option β) :
    rebuildPair node a b (a₂.or a₁) (b₂.or b₁) =
      (rebuildPair node (a₁.getD a) (b₁.getD b) a₂ b₂).or (rebuildPair node a b a₁ b₁) := by
  cases a₁ <;> cases a₂ <;> cases b₁ <;> cases b₂ <;> rfl

theorem rebuildList_or {items : List α} {first second both : α → Option α}
    (h : ∀ item ∈ items, both item = (second ((first item).getD item)).or (first item)) :
    let new := (rebuildList items (items.map first)).getD items
    rebuildList items (items.map both) =
      (rebuildList new (new.map second)).or (rebuildList items (items.map first)) := by
  dsimp only
  rw [getD_rebuildList, rebuildList_map _ second]
  by_cases hsecond : ∀ item ∈ items, second ((first item).getD item) = none
  · have hboth : items.map both = items.map first := by
      refine List.map_congr_left fun item hitem => ?_
      rw [h item hitem, hsecond item hitem, Option.none_or]
    rw [hboth, if_pos (List.forall_mem_map.mpr hsecond), Option.none_or]
  · have hboth : ¬ ∀ item ∈ items, both item = none := by
      intro hnone
      refine hsecond fun item hitem => ?_
      have hor := hnone item hitem
      rw [h item hitem, Option.or_eq_none_iff] at hor
      exact hor.1
    rw [rebuildList_map, if_neg hboth, if_neg (mt List.forall_mem_map.mp hsecond), Option.some_or,
      List.map_map]
    refine congrArg some (List.map_congr_left fun item hitem => ?_)
    rw [h item hitem, Option.getD_or, Function.comp_apply]

/-- The parts that changed in the second place, or else in the first. -/
def Changes.or (second first : Changes) : Changes where
  projection := second.projection.or first.projection
  sources := second.sources.or first.sources
  predicate := second.predicate.or first.predicate
  orderings := second.orderings.or first.orderings
  offset := second.offset.or first.offset
  limit := second.limit.or first.limit

namespace Changes

theorem isEmpty_iff (changes : Changes) :
    changes.isEmpty = true ↔ changes = ⟨none, none, none, none, none, none⟩ := by
  cases changes
  simp [isEmpty, and_assoc]

theorem isEmpty_or (second first : Changes) :
    (second.or first).isEmpty = (second.isEmpty && first.isEmpty) := by
  simp only [isEmpty, or, Option.isNone_or]
  ac_rfl

end Changes

theorem Block.rebuild_or (block : Block) (first second : Changes) :
    block.rebuild (second.or first) =
      (((block.rebuild first).getD block).rebuild second).or (block.rebuild first) := by
  rw [getD_rebuild]
  by_cases hempty : second.isEmpty = true
  · obtain rfl := (Changes.isEmpty_iff second).mp hempty
    rfl
  · have hboth : ¬ (second.or first).isEmpty = true := by
      rw [Changes.isEmpty_or, Bool.and_eq_true]
      exact fun h => hempty h.1
    rw [rebuild, if_neg hboth, rebuild, if_neg hempty]
    simp only [Changes.or, update, Option.getD_or, Option.orElse_eq_orElse, Option.orElse_eq_or,
      Option.or_assoc, Option.some_or]

/-! ## What inlining keeps -/

section Kept

variable (values : Values)

/-- Neither a parameter nor the constant in its place is a path. -/
@[simp] theorem Expr.isPath_inlined (expression : Expr) :
    (expression.inlined values).isPath = expression.isPath := by
  induction expression using Expr.isPath.induct with
  | case1 entityType aliasName => simp
  | case2 aliasName type => simp
  | case3 base name type ih => simpa [isPath] using ih
  | case4 array index type ih => simpa [isPath] using ih
  | case5 expression hobject hscalar hproperty hitem =>
      cases expression with
      | parameter name type => cases hvalue : values name <;> simp [hvalue, isPath, ofJson]
      | objectReference entityType aliasName => exact absurd rfl (hobject _ _)
      | scalarReference aliasName type => exact absurd rfl (hscalar _ _)
      | property base name type => exact absurd rfl (hproperty _ _ _)
      | item array index type => exact absurd rfl (hitem _ _ _)
      | _ => simp [isPath]

/-- Neither a parameter nor the constant in its place has a name. -/
@[simp] theorem Expr.accessName?_inlined (expression : Expr) :
    (expression.inlined values).accessName? = expression.accessName? := by
  cases expression with
  | parameter name type => cases hvalue : values name <;> simp [hvalue, accessName?, ofJson]
  | _ => simp [accessName?]

/-- The column of a single value keeps its name. -/
theorem Block.renewed?_ofValue (expression : Expr) :
    (ofValue expression).renewed? (inlined? values) =
      (expression.renewed? (inlined? values)).map ofValue := by
  have hname : (expression.inlined values).accessName? = expression.accessName? := by simp
  rw [Expr.inlined] at hname
  rw [renewed?_eq]
  cases hnew : expression.renewed? (inlined? values) with
  | none =>
      have hchanges : (ofValue expression).changes (inlined? values) =
          ⟨none, none, none, none, none, none⟩ := by
        simp [changes, ofValue, Projection.renewed?, Column.renewed?, Projected.renewed?,
          newColumn, hnew, empty, rebuildList]
      rw [hchanges]
      rfl
  | some new =>
      rw [hnew, Option.getD_some] at hname
      have hchanges : (ofValue expression).changes (inlined? values) =
          ⟨some (ofValue new).projection, none, none, none, none, none⟩ := by
        simp [changes, ofValue, Projection.renewed?, Column.renewed?, Projected.renewed?,
          newColumn, hnew, hname, empty, rebuildList, Projected.accessName?, Projected.expression]
      rw [hchanges]
      rfl

/-- Whether an array has to be wrapped was decided before. -/
theorem Source.renewed?_iterate (array : Expr) (aliasName : String) :
    (iterate array aliasName).renewed? (inlined? values) =
      (array.renewed? (inlined? values)).map (iterate · aliasName) := by
  have hpath : (array.inlined values).isPath = array.isPath := array.isPath_inlined values
  rw [iterate]
  split
  · rfl
  · rename_i hwrapped
    rw [renewed?, Block.renewed?_ofValue, Option.map_map]
    refine Option.map_congr fun new hnew => ?_
    rw [Expr.inlined, hnew, Option.getD_some] at hpath
    rw [iterate, hpath, if_neg hwrapped]
    rfl

end Kept

/-! ## Nodes of one kind -/

/-- What the second table makes of a node after the first one is what both
make of it at once, and the first one has nothing more to do to what it left. -/
structure Composes (first second : Values) (new? : Values → α → Option α) (node : α) : Prop where
  inTurn : new? (first.orElse second) node =
    (new? second ((new? first node).getD node)).or (new? first node)
  settled : new? first ((new? first node).getD node) = none

namespace Composes

variable {first second : Values} {new? : Values → α → Option α}

/-- Only a node that neither table changes stays. -/
theorem eq_none {node : α} (h : Composes first second new? node)
    (hnone : new? (first.orElse second) node = none) : new? first node = none := by
  rw [h.inTurn, Option.or_eq_none_iff] at hnone
  exact hnone.2

theorem leaf {node : α} (h : ∀ values, new? values node = none) :
    Composes first second new? node where
  inTurn := by simp only [h, Option.getD_none, Option.or_none]
  settled := by simp only [h, Option.getD_none]

theorem map {a : α} (h : Composes first second new? a) {newNode? : Values → β → Option β}
    (node : α → β) (hnode : ∀ values part, newNode? values (node part) =
      (new? values part).map node) :
    Composes first second newNode? (node a) where
  inTurn := by
    rw [hnode, hnode, Option.getD_map node, hnode, h.inTurn, Option.map_or]
  settled := by rw [hnode, Option.getD_map node, hnode, h.settled, Option.map_none]

theorem pair {a : α} {b : β} {newSecond? : Values → β → Option β}
    (h : Composes first second new? a) (hsecond : Composes first second newSecond? b)
    {newNode? : Values → γ → Option γ} (node : α → β → γ)
    (hnode : ∀ values a b, newNode? values (node a b) =
      rebuildPair node a b (new? values a) (newSecond? values b)) :
    Composes first second newNode? (node a b) where
  inTurn := by
    rw [hnode, hnode, getD_rebuildPair, hnode, h.inTurn, hsecond.inTurn, rebuildPair_or]
  settled := by
    rw [hnode, getD_rebuildPair, hnode, h.settled, hsecond.settled]
    rfl

theorem list {items : List α} (h : ∀ item ∈ items, Composes first second new? item) :
    Composes first second
      (fun values items => rebuildList items (items.map (new? values))) items where
  inTurn := rebuildList_or fun item hitem => (h item hitem).inTurn
  settled := by
    rw [getD_rebuildList, rebuildList_map, if_pos]
    exact List.forall_mem_map.mpr fun item hitem => (h item hitem).settled

end Composes

section Nodes

variable (first second : Values)

/-- Both tables in turn come to both at once on an expression. -/
abbrev Expr.Composes (expression : Expr) : Prop :=
  DocumentQuery.Composes first second (fun values => Expr.renewed? (inlined? values)) expression

abbrev Block.Composes (block : Block) : Prop :=
  DocumentQuery.Composes first second (fun values => Block.renewed? (inlined? values)) block

variable {first second}

/-! ## Expressions -/

theorem Expr.composes_parameter (name : String) (type : ValueType) :
    (parameter name type).Composes first second := by
  -- a constant is left alone by either table
  have hconstant : ∀ values value, (ofJson value).renewed? (inlined? values) = none :=
    fun values value => renewed?_eq _ _
  constructor
  · rw [renewed?_parameter, renewed?_parameter, Values.orElse]
    cases first name with
    | none =>
        rw [Option.none_or, Option.map_none, Option.getD_none, renewed?_parameter, Option.or_none]
    | some value =>
        rw [Option.map_some, Option.getD_some, hconstant]
        rfl
  · rw [renewed?_parameter]
    cases hvalue : first name with
    | none =>
        rw [Option.map_none, Option.getD_none, renewed?_parameter, hvalue, Option.map_none]
    | some value => exact hconstant first value

theorem Expr.composes_of_parts {expression : Expr}
    (hparts : ∀ part ∈ expression.parts, part.Composes first second)
    (hblock : ∀ block ∈ expression.block?, block.Composes first second) :
    expression.Composes first second := by
  cases expression with
  | constant value type => exact .leaf fun values => renewed?_eq _ _
  | parameter name type => exact composes_parameter name type
  | binary operator left right type =>
      obtain ⟨hleft, hright⟩ : left.Composes first second ∧ right.Composes first second := by
        simpa [parts] using hparts
      exact hleft.pair hright (binary operator · · type) fun values left right => renewed?_eq _ _
  | unary operator operand type =>
      have hoperand : operand.Composes first second := by simpa [parts] using hparts
      exact hoperand.map (unary operator · type) fun values operand => renewed?_eq _ _
  | property base name type =>
      have hbase : base.Composes first second := by simpa [parts] using hparts
      exact hbase.map (property · name type) fun values base => renewed?_eq _ _
  | item array index type =>
      obtain ⟨harray, hindex⟩ : array.Composes first second ∧ index.Composes first second := by
        simpa [parts] using hparts
      exact harray.pair hindex (item · · type) fun values array index => renewed?_eq _ _
  | call function arguments type =>
      exact (Composes.list hparts).map (call function · type)
        fun values arguments => renewed?_eq _ _
  | inlineArray items =>
      exact (Composes.list hparts).map inlineArray fun values items => renewed?_eq _ _
  | membership value list negated =>
      obtain ⟨hvalue, hlist⟩ := List.forall_mem_cons.mp hparts
      exact hvalue.pair (Composes.list hlist) (membership · · negated)
        fun values value list => renewed?_eq _ _
  | subquery kind block =>
      exact (hblock block rfl).map (subquery kind ·) fun values block => renewed?_eq _ _
  | scalarReference aliasName type => exact .leaf fun values => renewed?_eq _ _
  | objectReference entityType aliasName => exact .leaf fun values => renewed?_eq _ _
  | fragment text => exact .leaf fun values => renewed?_eq _ _

/-! ## The clauses of a block -/

theorem composes_projected {projected : Projected}
    (h : projected.expression.Composes first second) :
    Composes first second (fun values => Projected.renewed? (inlined? values)) projected := by
  cases projected with
  | scalar value => exact Composes.map h Projected.scalar fun _ _ => rfl
  | object entityType access =>
      exact Composes.map h (Projected.object entityType ·) fun _ _ => rfl

theorem Projected.inlined_inlined {projected : Projected}
    (h : projected.expression.Composes first second) :
    projected.inlined (first.orElse second) = (projected.inlined first).inlined second := by
  rw [← inlined_eq, (composes_projected h).inTurn, Option.getD_or, inlined_eq, inlined_eq]

/-- A position that is bound twice loses its first binding as soon as something
changes, no matter which of the tables changes it. -/
theorem composes_pending {mapping : Mapping Projected}
    (h : ∀ entry ∈ mapping.entries, entry.2.expression.Composes first second) :
    Composes first second (fun values => Projection.renewed? (inlined? values))
      (.pending mapping) := by
  have hentries := fun entry hentry => composes_projected (h entry hentry)
  by_cases hfirst : ∀ entry ∈ mapping.entries, entry.2.renewed? (inlined? first) = none
  · have hnone : (Projection.pending mapping).renewed? (inlined? first) = none := by
      rw [Projection.renewed?_pending, if_pos hfirst]
    refine ⟨?_, by rw [hnone, Option.getD_none, hnone]⟩
    rw [hnone, Option.getD_none, Option.or_none]
    refine congrArg (rebuildMapping mapping) (List.map_congr_left fun entry hentry => ?_)
    rw [(hentries entry hentry).inTurn, hfirst entry hentry, Option.getD_none, Option.or_none]
  · -- the map of all positions, each with what it was bound to last
    obtain ⟨collected, hcollected⟩ : ∃ map, OrderedMap.ofList mapping.entries = map := ⟨_, rfl⟩
    have hmem : ∀ entry ∈ collected.entries, entry ∈ mapping.entries := by
      subst hcollected
      exact fun _ => OrderedMap.mem_of_mem_entries_ofList
    have hnodup : (collected.mapValues (Projected.inlined first)).keys.Nodup := by
      rw [OrderedMap.keys_mapValues, ← hcollected]
      exact OrderedMap.nodup_keys_ofList _
    have hleft : (Projection.pending mapping).renewed? (inlined? first) =
        some (.pending (collected.mapValues (Projected.inlined first))) := by
      rw [Projection.renewed?_pending, if_neg hfirst, hcollected]
    constructor
    · have hboth : ¬ ∀ entry ∈ mapping.entries,
          entry.2.renewed? (inlined? (first.orElse second)) = none :=
        fun hnone => hfirst fun entry hentry => (hentries entry hentry).eq_none (hnone entry hentry)
      have hinlined : collected.mapValues (Projected.inlined (first.orElse second)) =
          (collected.mapValues (Projected.inlined first)).mapValues (Projected.inlined second) := by
        rw [OrderedMap.mapValues_mapValues]
        exact OrderedMap.mapValues_congr fun entry hentry =>
          Projected.inlined_inlined (h entry (hmem entry hentry))
      rw [hleft, Option.getD_some, Option.or_some, Projection.getD_renewed?_pending second hnodup,
        Projection.renewed?_pending, if_neg hboth, hcollected, hinlined]
    · rw [hleft, Option.getD_some, Projection.renewed?_pending, if_pos]
      refine List.forall_mem_map.mpr fun entry hentry => ?_
      have hsettled := (hentries entry (hmem entry hentry)).settled
      rw [Projected.inlined_eq] at hsettled
      exact hsettled

theorem composes_frozen {columns : List Column}
    (h : ∀ column ∈ columns, column.expression.expression.Composes first second)
    (bindings : Mapping Nat) :
    Composes first second (fun values => Projection.renewed? (inlined? values))
      (.frozen columns bindings) := by
  have hcolumns : ∀ column ∈ columns,
      Composes first second (fun values => Column.renewed? (inlined? values)) column := by
    rintro ⟨projected, aliasName⟩ hcolumn
    exact (composes_projected (h _ hcolumn)).map (Column.mk · aliasName) fun _ _ => rfl
  exact (Composes.list hcolumns).map (Projection.frozen · bindings) fun _ _ => rfl

theorem composes_projection {projection : Projection}
    (h : ∀ expression ∈ projection.expressions, expression.Composes first second) :
    Composes first second (fun values => Projection.renewed? (inlined? values)) projection := by
  cases projection with
  | pending mapping =>
      refine composes_pending fun entry hentry => h _ ?_
      exact List.mem_map_of_mem (List.mem_map_of_mem hentry)
  | frozen columns bindings =>
      exact composes_frozen (fun column hcolumn => h _ (List.mem_map_of_mem hcolumn)) bindings

theorem composes_collection {array : Expr} (h : array.Composes first second)
    (aliasName : String) (iterated : Bool) :
    Composes first second (fun values => Source.renewed? (inlined? values))
      ⟨.collection array, aliasName, iterated⟩ := by
  have hnew : ∀ values, Source.renewed? (inlined? values)
      ⟨.collection array, aliasName, iterated⟩ =
        (array.renewed? (inlined? values)).map (Source.iterate · aliasName) := fun _ => rfl
  obtain ⟨hturn, hsettled⟩ := h
  constructor
  · rw [hnew, hnew, hturn, Option.map_or]
    cases array.renewed? (inlined? first) with
    | none => rw [Option.map_none, Option.getD_none, Option.getD_none, hnew]
    | some new => rw [Option.map_some, Option.getD_some, Option.getD_some, Source.renewed?_iterate]
  · rw [hnew]
    cases hfirst : array.renewed? (inlined? first) with
    | none => rw [Option.map_none, Option.getD_none, hnew, hfirst, Option.map_none]
    | some new =>
        rw [hfirst, Option.getD_some] at hsettled
        rw [Option.map_some, Option.getD_some, Source.renewed?_iterate, hsettled, Option.map_none]

theorem composes_source {source : Source}
    (hcollection : ∀ expression ∈ source.collection?, expression.Composes first second)
    (hblock : ∀ block ∈ source.block?, block.Composes first second) :
    Composes first second (fun values => Source.renewed? (inlined? values)) source := by
  rcases source with ⟨payload, aliasName, iterated⟩
  cases payload with
  | root entityType container => exact .leaf fun _ => rfl
  | select block =>
      exact Composes.map (hblock block rfl)
        (fun block => Source.mk (.select block) aliasName iterated) fun _ _ => rfl
  | collection array => exact composes_collection (hcollection array rfl) aliasName iterated
  | raw entityType text => exact .leaf fun _ => rfl

theorem composes_sortKey {key : SortKey} (h : key.expression.Composes first second) :
    Composes first second (fun values => SortKey.renewed? (inlined? values)) key := by
  rcases key with ⟨expression, ascending⟩
  exact Composes.map h (SortKey.mk · ascending) fun _ _ => rfl

theorem inTurn_optional {optional : Option Expr}
    (h : ∀ expression ∈ optional.toList, expression.Composes first second) :
    optional.bind (Expr.renewed? (inlined? (first.orElse second))) =
      ((optional.bind (Expr.renewed? (inlined? first)) <|> optional).bind
        (Expr.renewed? (inlined? second))).or (optional.bind (Expr.renewed? (inlined? first))) := by
  cases optional with
  | none => rfl
  | some expression =>
      have hturn := (h expression (Option.mem_toList.mpr rfl)).inTurn
      rw [Option.bind_some, Option.bind_some, hturn]
      cases expression.renewed? (inlined? first) <;> rfl

theorem settled_optional {optional : Option Expr}
    (h : ∀ expression ∈ optional.toList, expression.Composes first second) :
    (optional.bind (Expr.renewed? (inlined? first)) <|> optional).bind
      (Expr.renewed? (inlined? first)) = none := by
  cases optional with
  | none => rfl
  | some expression =>
      have hsettled := (h expression (Option.mem_toList.mpr rfl)).settled
      rw [Option.bind_some]
      cases hfirst : expression.renewed? (inlined? first) with
      | none => exact hfirst
      | some new => rwa [hfirst] at hsettled

/-! ## Blocks -/

theorem Block.composes_of_clauses {block : Block}
    (hexpressions : ∀ expression ∈ block.expressions, expression.Composes first second)
    (hblocks : ∀ inner ∈ block.sourceBlocks, inner.Composes first second) :
    block.Composes first second := by
  simp only [expressions, List.forall_mem_append] at hexpressions
  obtain ⟨⟨⟨⟨⟨hprojection, hcollections⟩, hpredicate⟩, horderings⟩, hoffset⟩, hlimit⟩ :=
    hexpressions
  have hprojection := composes_projection hprojection
  have hsources := Composes.list fun source hsource => composes_source
    (fun array harray => hcollections array (List.mem_filterMap.mpr ⟨source, hsource, harray⟩))
    fun inner hinner => hblocks inner (List.mem_filterMap.mpr ⟨source, hsource, hinner⟩)
  have horderings := Composes.list fun key hkey =>
    composes_sortKey (horderings key.expression (List.mem_map_of_mem hkey))
  have hleft := block.getD_renewed? (inlined? first)
  constructor
  · have hchanges : block.changes (inlined? (first.orElse second)) =
        (((block.renewed? (inlined? first)).getD block).changes (inlined? second)).or
          (block.changes (inlined? first)) := by
      rw [hleft]
      simp only [changes, Changes.or, update, Changes.mk.injEq]
      exact ⟨hprojection.inTurn, hsources.inTurn, inTurn_optional hpredicate, horderings.inTurn,
        inTurn_optional hoffset, inTurn_optional hlimit⟩
    rw [renewed?_eq _ block, hchanges, renewed?_eq _ block, rebuild_or, ← renewed?_eq]
  · have hchanges : ((block.renewed? (inlined? first)).getD block).changes (inlined? first) =
        ⟨none, none, none, none, none, none⟩ := by
      rw [hleft]
      simp only [changes, update, Changes.mk.injEq]
      exact ⟨hprojection.settled, hsources.settled, settled_optional hpredicate,
        horderings.settled, settled_optional hoffset, settled_optional hlimit⟩
    rw [renewed?_eq, hchanges]
    rfl

theorem composes : PassesOutward (Expr.Composes first second) (Block.Composes first second) :=
  ⟨fun _ => Expr.composes_of_parts, fun _ => Block.composes_of_clauses⟩

end Nodes

/-! ## Inlining in turn -/

/-- Where two tables have no name in common, it does not matter which prevails. -/
theorem Values.orElse_comm {first second : Values}
    (h : ∀ name, first name = none ∨ second name = none) :
    first.orElse second = second.orElse first := by
  funext name
  rcases h name with hnone | hnone
  · rw [orElse, orElse, hnone, Option.none_or, Option.or_none]
  · rw [orElse, orElse, hnone, Option.none_or, Option.or_none]

namespace Block

theorem inlined_inlined (first second : Values) (block : Block) :
    (block.inlined first).inlined second = block.inlined (first.orElse second) := by
  have hblock : block.Composes first second := composes.all_block block
  rw [inlined, inlined, inlined, hblock.inTurn, Option.getD_or]

/-- Inlining the values of one table after those of another gives the block that
inlining both at once gives, the first table prevailing. So tables with no name
in common may be inlined in either order, and a table that has been inlined leaves
the block alone when it is inlined again. -/
theorem inline_inline (first second : Values) (block : Block) :
    ∃ once both, block.inline first = .ok once ∧ once.inline second = .ok both ∧
      block.inline (first.orElse second) = .ok both ∧
      ((∀ name, first name = none ∨ second name = none) →
        ∃ other, block.inline second = .ok other ∧ other.inline first = .ok both) ∧
      once.inline? first = .ok none := by
  have hblock : block.Composes first second := composes.all_block block
  have hboth := inlined_inlined first second block
  refine ⟨_, _, inline_eq first block, inline_eq second _, ?_, ?_, ?_⟩
  · rw [inline_eq, hboth]
  · intro hdisjoint
    refine ⟨_, inline_eq second block, ?_⟩
    rw [inline_eq, inlined_inlined, hboth, Values.orElse_comm hdisjoint]
  · rw [inline?_eq]
    exact congrArg Except.ok hblock.settled

/-- A block that binds a position twice and iterates over a call: whichever
parameter is inlined first, the call is wrapped and the first binding is lost. -/
theorem inline_inline_wrapped :
    let first := Values.ofList [("p", .bool true)]
    let second := Values.ofList [("q", .bool false)]
    let p := Expr.parameter "p" .boolean
    let q := Expr.parameter "q" .boolean
    let block := { Block.empty with
      projection := .pending ⟨[(.root, .scalar p), (.root, .scalar q)]⟩
      sources := [⟨.collection (.call "F" [p, q] .array), "c", true⟩] }
    let both := { Block.empty with
      projection := .pending ⟨[(.root, .scalar (.ofJson (.bool false)))]⟩
      sources := [⟨.select (ofValue
        (.call "F" [.ofJson (.bool true), .ofJson (.bool false)] .array)), "c", true⟩] }
    block.fault?.isSome = true ∧ (∀ name, first name = none ∨ second name = none) ∧
      ∃ once other, block.inline first = .ok once ∧ once.inline second = .ok both ∧
        block.inline second = .ok other ∧ other.inline first = .ok both ∧
        once.inline? first = .ok none := by
  intro first second p q block both
  have hdisjoint : ∀ name, first name = none ∨ second name = none := by
    intro name
    by_cases hname : "p" = name
    · subst hname
      exact .inr rfl
    · exact .inl (if_neg hname)
  obtain ⟨once, left, honce, hleft, hatonce, horder, hsettled⟩ := inline_inline first second block
  obtain ⟨other, hother, hright⟩ := horder hdisjoint
  have hinline : block.inline (first.orElse second) = .ok both := rfl
  obtain rfl : left = both := Except.ok.inj (hatonce.symm.trans hinline)
  exact ⟨rfl, hdisjoint, once, other, honce, hleft, hother, hright, hsettled⟩

end Block

end DocumentQuery
