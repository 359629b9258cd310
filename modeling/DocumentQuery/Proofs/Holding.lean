import DocumentQuery.Block.Build
import DocumentQuery.Proofs.Calls
import DocumentQuery.Proofs.Freeze
/-!
# What a block holds after a call

All that a block holds after a call was there before or was handed over with the
call (`Carries.perform`). This is said with a property of blocks that the blocks
in an expression, a source or a block have (`Carries`), part by part.
-/

namespace DocumentQuery

/-! ## What a block holds, part by part -/

/-- The blocks of the subqueries in an expression have the property `P`. -/
def Expr.Carries (P : Block → Prop) (expression : Expr) : Prop :=
  ∀ inner ∈ expression.subqueries, P inner

/-- The blocks that a source takes its rows from, or that stand in the array
that it iterates over, have the property `P`. -/
def Source.Carries (P : Block → Prop) (source : Source) : Prop :=
  (∀ array ∈ source.collection?, array.Carries P) ∧ ∀ inner ∈ source.block?, P inner

namespace Block

/-- The blocks that stand in a block have the property `P`. -/
structure Carries (P : Block → Prop) (block : Block) : Prop where
  projection : ∀ expression ∈ block.projection.expressions, expression.Carries P
  sources : ∀ source ∈ block.sources, source.Carries P
  predicate : ∀ condition ∈ block.predicate, condition.Carries P
  orderings : ∀ key ∈ block.orderings, key.expression.Carries P
  limit : ∀ limit ∈ block.limit, limit.Carries P
  offset : ∀ offset ∈ block.offset, offset.Carries P
  keyBindings : ∀ binding ∈ block.keyBindings, binding.value.Carries P

variable {P : Block → Prop} {block : Block}

theorem carries_iff : block.Carries P ↔ ∀ inner, block.Holds inner → P inner := by
  constructor
  · rintro h inner (hnested | hkeyed)
    · rcases List.mem_append.mp hnested with hsource | hexpression
      · obtain ⟨source, hsource, hinner⟩ := List.mem_filterMap.mp hsource
        exact (h.sources source hsource).2 inner hinner
      · obtain ⟨expression, hexpression, hinner⟩ := List.mem_flatMap.mp hexpression
        simp only [expressions, List.mem_append, List.mem_filterMap, List.mem_map,
          Option.mem_toList] at hexpression
        rcases hexpression with
          ((((hexpression | ⟨source, hsource, harray⟩) | hexpression) | ⟨key, hkey, rfl⟩) |
            hexpression) | hexpression
        · exact h.projection expression hexpression inner hinner
        · exact (h.sources source hsource).1 expression harray inner hinner
        · exact h.predicate expression hexpression inner hinner
        · exact h.orderings key hkey inner hinner
        · exact h.offset expression hexpression inner hinner
        · exact h.limit expression hexpression inner hinner
    · obtain ⟨value, hvalue, hinner⟩ := List.mem_flatMap.mp hkeyed
      obtain ⟨binding, hbinding, rfl⟩ := List.mem_map.mp hvalue
      exact h.keyBindings binding hbinding inner hinner
  · intro h
    have hexpression : ∀ expression ∈ block.expressions, expression.Carries P :=
      fun expression hexpression inner hinner =>
        h inner (Or.inl (Nests.of_expressions hexpression hinner))
    simp only [expressions, List.forall_mem_append, List.mem_filterMap, List.forall_mem_map,
      Option.mem_toList] at hexpression
    obtain ⟨⟨⟨⟨⟨hprojection, harrays⟩, hpredicate⟩, horderings⟩, hoffset⟩, hlimit⟩ := hexpression
    refine ⟨hprojection, fun source hsource => ⟨?_, ?_⟩, hpredicate, horderings, hlimit, hoffset,
      ?_⟩
    · exact fun array harray => harrays array ⟨source, hsource, harray⟩
    · intro inner hinner
      exact h inner (Or.inl (Nests.of_sourceBlocks (List.mem_filterMap.mpr
        ⟨source, hsource, hinner⟩)))
    · intro binding hbinding inner hinner
      exact h inner (Or.inr (List.mem_flatMap.mpr
        ⟨binding.value, List.mem_map.mpr ⟨binding, hbinding, rfl⟩, hinner⟩))

/-! ## The blocks that queries begin with -/

theorem Carries.projecting (projected : Projected) (h : projected.expression.Carries P) :
    (projecting projected).Carries P where
  projection := by
    intro expression hexpression
    obtain rfl := List.mem_singleton.mp hexpression
    exact h
  sources := by simp [Block.projecting, Block.empty]
  predicate := by simp [Block.projecting, Block.empty]
  orderings := by simp [Block.projecting, Block.empty]
  limit := by simp [Block.projecting, Block.empty]
  offset := by simp [Block.projecting, Block.empty]
  keyBindings := by simp [Block.projecting, Block.empty]

theorem Carries.ofValue {expression : Expr} (h : expression.Carries P) :
    (ofValue expression).Carries P :=
  { Carries.projecting (.scalar expression) h with }

theorem Carries.over (h : block.Carries P) {source : Source} (hsource : source.Carries P) :
    Carries P { block with sources := [source] } :=
  { h with sources := by simpa using hsource }

theorem Carries.forEntity (config : Config) (entityType : String) :
    (forEntity config entityType).Carries P := by
  have hreference : (Expr.objectReference entityType config.rootAlias).Carries P := by
    simp [Expr.Carries, Expr.subqueries]
  refine (Carries.projecting (.object entityType _) hreference).over ?_
  simp [Source.Carries, Source.root, Source.collection?, Source.block?]

/-- An array that is iterated over directly holds what it held; another one is
held together with the block around it. -/
theorem carries_iterate {collection : Expr} (h : collection.Carries P)
    (hwrapped : P (.ofValue collection)) (aliasName : String) :
    (Source.iterate collection aliasName).Carries P := by
  unfold Source.iterate
  split
  · refine ⟨fun array harray => ?_, by simp [Source.block?]⟩
    obtain rfl := Option.some.inj harray
    exact h
  · refine ⟨by simp [Source.collection?], fun inner hinner => ?_⟩
    obtain rfl := Option.some.inj hinner
    exact hwrapped

/-! ## Calls -/

namespace Carries

variable {columns : List Column} {bindings : Mapping Nat}

theorem withProjection (h : block.Carries P) {projection : Projection}
    (hprojection : ∀ expression ∈ projection.expressions, expression.Carries P) :
    (block.withProjection projection).Carries P :=
  { h with projection := hprojection }

theorem settle (h : block.Carries P) (hsettle : block.settle = .ok (columns, bindings)) :
    ∀ column ∈ columns, column.expression.expression.Carries P := by
  have hcarries := h.projection
  cases hprojection : block.projection with
  | frozen settled bound =>
      rw [settle_frozen hprojection] at hsettle
      obtain ⟨rfl, rfl⟩ := Prod.mk.inj (Except.ok.inj hsettle)
      rw [hprojection] at hcarries
      exact List.forall_mem_map.mp hcarries
  | pending mapping =>
      obtain ⟨hfrozen, -⟩ := (settle_pending_eq_ok_iff hprojection columns bindings).mp hsettle
      have hcolumns : (freezeFrom defaultColumnAlias [] .empty mapping.entries).1 = columns :=
        congrArg Prod.fst hfrozen
      intro column hcolumn
      rw [← hcolumns] at hcolumn
      rcases mem_freezeFrom hcolumn with hnone | ⟨entry, hentry, hshown⟩
      · simp at hnone
      · rw [hprojection] at hcarries
        rw [hshown]
        exact hcarries _ (List.mem_map_of_mem (List.mem_map_of_mem hentry))

theorem pushTo (h : block.Carries P)
    (hcolumns : ∀ column ∈ columns, column.expression.expression.Carries P)
    {projected : Projected} (hprojected : projected.expression.Carries P)
    (aliasName : Option String) :
    (block.pushTo columns bindings projected aliasName).block.Carries P := by
  rw [pushTo_eq]
  split
  · exact h.withProjection (List.forall_mem_map.mpr hcolumns)
  · refine h.withProjection (List.forall_mem_map.mpr fun column hcolumn => ?_)
    rcases mem_pushColumn _ _ _ _ hcolumn with hold | hshown
    · exact hcolumns column hold
    · rw [hshown]
      exact hprojected

theorem addColumn (h : block.Carries P) {projected : Projected}
    (hprojected : projected.expression.Carries P) (aliasName : Option String) :
    (block.addColumn projected aliasName).block.Carries P := by
  rcases addColumn_cases block projected aliasName with
    ⟨error, hcolumn⟩ | hcolumn | ⟨columns, bindings, hsettle, hcolumn⟩
  · rw [hcolumn]
    exact h
  · rw [hcolumn]
    exact h.pushTo (by simp) hprojected aliasName
  · rw [hcolumn]
    exact h.pushTo (h.settle hsettle) hprojected aliasName

/-- The source that a join adds holds what the inner block held, and the inner
block itself once it is frozen and its bindings are forgotten. -/
theorem joinSource {inner : Block} {aliasName : String} {source : Source}
    (hinner : inner.Carries P)
    (hfrozen : P (inner.applyProjection.block.clearMapping))
    (h : inner.joinSource aliasName = .ok source) : source.Carries P := by
  rcases joinSource_eq_ok h with ⟨array, hbare, -, rfl⟩ | ⟨columns, bindings, hsettle, rfl⟩
  · obtain ⟨innerAlias, hsources⟩ := bareArray?_eq_some hbare
    have hsource := hinner.sources ⟨.collection array, innerAlias, true⟩ (by simp [hsources])
    exact hsource
  · rw [applyProjection_of_settle hsettle] at hfrozen
    refine ⟨by simp [Source.nested, Source.collection?], fun other hother => ?_⟩
    obtain rfl := Option.some.inj hother
    exact hfrozen

theorem addJoin (h : block.Carries P) (config : Config) {inner : Block}
    (hinner : inner.Carries P) (hfrozen : P (inner.applyProjection.block.clearMapping)) :
    (block.addJoin config inner).block.Carries P := by
  rcases addJoin_cases config block inner with hkept | ⟨remapping, after, hjoin⟩
  · rw [hkept]
    exact h
  · rw [hjoin]
    obtain ⟨-, outer, mapping, source, houter, -, -, hsource, -, rfl⟩ := addJoin_eq_ok hjoin
    have hcarries := h.projection
    rw [houter] at hcarries
    refine { h with projection := ?_, sources := ?_ }
    · intro expression hexpression
      obtain ⟨projected, hprojected, rfl⟩ := List.mem_map.mp hexpression
      obtain ⟨entry, hentry, rfl⟩ := List.mem_map.mp hprojected
      have hjoined := OrderedMap.mem_of_mem_entries_ofList hentry
      rcases List.mem_append.mp hjoined with hmoved | hreferred
      · obtain ⟨before, hbefore, rfl⟩ := List.mem_map.mp hmoved
        exact hcarries before.2.expression
          (List.mem_map_of_mem (List.mem_map_of_mem hbefore))
      · obtain ⟨before, -, rfl⟩ := List.mem_map.mp hreferred
        rcases before with ⟨member, value | ⟨entityType, access⟩⟩ <;>
          simp [Projected.referTo, Projected.expression, Expr.Carries, Expr.subqueries]
    · have hsourceCarries := joinSource hinner hfrozen hsource
      exact List.forall_mem_append.mpr ⟨h.sources, by simpa using hsourceCarries⟩

/-- What a block holds after a call was there before, was handed over, or is the
inner block of a join, frozen and without bindings. -/
theorem perform (h : block.Carries P) {call : Call}
    (hexpressions : ∀ expression ∈ call.expressions, expression.Carries P)
    (hinner : ∀ inner ∈ call.inner?,
      inner.Carries P ∧ P inner.applyProjection.block.clearMapping) :
    (block.perform call).block.Carries P := by
  cases call with
  | bindMember member projected =>
      rw [Block.perform, Outcome.block_map, bindMember]
      split
      · rename_i mapping hprojection
        refine h.withProjection fun expression hexpression => ?_
        obtain ⟨shown, hshown, rfl⟩ := List.mem_map.mp hexpression
        obtain ⟨entry, hentry, rfl⟩ := List.mem_map.mp hshown
        rcases OrderedMap.mem_insertEntry hentry with rfl | hold
        · exact hexpressions _ (by simp [Call.expressions])
        · have hcarries := h.projection
          rw [hprojection] at hcarries
          exact hcarries _ (List.mem_map_of_mem (List.mem_map_of_mem hold))
      · exact h
  | replaceMapping mapping =>
      rw [Block.perform, Outcome.block_map, replaceMapping]
      split
      · exact h.withProjection hexpressions
      · exact h
  | clearMapping =>
      refine h.withProjection ?_
      have hcarries := h.projection
      cases hprojection : block.projection with
      | pending mapping => simp [Projection.clearMapping, Projection.expressions,
          OrderedMap.values, OrderedMap.empty]
      | frozen columns bindings =>
          rw [hprojection] at hcarries
          exact hcarries
  | applyProjection =>
      rw [Block.perform, Outcome.block_map]
      cases hsettle : block.settle with
      | error error =>
          rw [applyProjection_of_settle_error hsettle]
          exact h
      | ok settled =>
          rw [applyProjection_of_settle hsettle]
          exact h.withProjection (List.forall_mem_map.mpr (h.settle hsettle))
  | addColumn projected aliasName =>
      exact h.addColumn (hexpressions _ (by simp [Call.expressions])) aliasName
  | selectingValue => exact { h with }
  | applyDistinct => exact { h with }
  | filter condition =>
      have hcondition := hexpressions condition (by simp [Call.expressions])
      rw [Block.perform, Outcome.done, filter]
      split
      · exact h
      · split
        · exact { h with predicate := by simpa using hcondition }
        · rename_i predicate hpredicate
          refine { h with predicate := ?_ }
          have hboth : (Expr.both predicate condition).Carries P := by
            intro inner hinner
            rcases List.mem_append.mp hinner with hleft | hright
            · exact h.predicate predicate (by simp [hpredicate]) inner hleft
            · exact hcondition inner hright
          simpa using hboth
  | applyLimit limit =>
      have hlimit := hexpressions limit (by simp [Call.expressions])
      rw [Block.perform, Outcome.block_map, applyLimit]
      split
      · exact h
      · exact { h with limit := by simpa using hlimit }
  | applyOffset offset =>
      have hoffset := hexpressions offset (by simp [Call.expressions])
      rw [Block.perform, Outcome.block_map, applyOffset]
      split
      · exact h
      · exact { h with offset := by simpa using hoffset }
  | applyOrdering key =>
      have hkey := hexpressions key.expression (by simp [Call.expressions])
      rw [Block.perform, Outcome.block_map, applyOrdering]
      split
      · exact h
      · exact { h with orderings := by simpa using hkey }
  | appendOrdering key =>
      have hkey := hexpressions key.expression (by simp [Call.expressions])
      rw [Block.perform, Outcome.block_map, appendOrdering]
      split
      · exact h
      · split
        · exact h
        · refine { h with orderings := ?_ }
          exact List.forall_mem_append.mpr ⟨h.orderings, by simpa using hkey⟩
  | reverseOrderings =>
      rw [Block.perform, Outcome.block_map, reverseOrderings]
      split
      · exact h
      · split
        · exact h
        · exact { h with orderings := List.forall_mem_map.mpr h.orderings }
  | clearOrdering => exact { h with orderings := by simp [Block.perform, Outcome.done,
      clearOrdering] }
  | addKeyBinding property value =>
      have hvalue := hexpressions value (by simp [Call.expressions])
      refine { h with keyBindings := ?_ }
      exact List.forall_mem_append.mpr ⟨h.keyBindings, by simpa using hvalue⟩
  | addJoin config inner =>
      obtain ⟨hcarries, hfrozen⟩ := hinner inner rfl
      exact h.addJoin config hcarries hfrozen

end Carries

end Block

end DocumentQuery
