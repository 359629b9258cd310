import DocumentQuery.Proofs.Calls
import DocumentQuery.Proofs.FrozenColumns
import DocumentQuery.Proofs.InliningSameness
/-!
# Freezing before and after inlining

A projection may be frozen before the parameters in it are inlined or after. The
columns may differ: two that show different parameters stay two if they are
frozen first, and are one if they are frozen last and the parameters have the
same value. But a position resolves to the same expression either way
(`Block.resolved?_inline`), because inlining respects sameness and freezing
resolves a position to something that is the same as what it was bound to.
-/

namespace DocumentQuery

/-- The column that a position resolves to. -/
def Block.resolved? (block : Block) (member : Member) : Option Column :=
  match block.projection.binding? member with
  | some (.column number) => block.projection.columns[number]?
  | _ => none

theorem Block.resolved?_of_frozen {block : Block} {columns : List Column}
    {bindings : Mapping Nat} (h : block.projection = .frozen columns bindings) {member : Member}
    {number : Nat} (hnumber : bindings.get? member = some number) :
    block.resolved? member = columns[number]? := by
  rw [resolved?, h, Projection.binding?, hnumber]
  rfl

theorem Block.exists_madeFrom {block : Block} {mapping : Mapping Projected}
    (hprojection : block.projection = .pending mapping) (hnodup : mapping.keys.Nodup)
    (h : block.applyProjection.answer = .ok ()) :
    ∃ columns bindings, block.applyProjection.block.projection = .frozen columns bindings ∧
      MadeFrom defaultColumnAlias mapping.entries columns bindings := by
  cases hsettle : block.settle with
  | error error =>
      rw [applyProjection_of_settle_error hsettle] at h
      cases h
  | ok settled =>
      rcases settled with ⟨columns, bindings⟩
      obtain ⟨hfrozen, -⟩ := (settle_pending_eq_ok_iff hprojection columns bindings).mp hsettle
      have hmade := (MadeFrom.empty defaultColumnAlias).freezeFrom hnodup
      rw [List.nil_append, hfrozen] at hmade
      exact ⟨columns, bindings, by rw [applyProjection_of_settle hsettle]; rfl, hmade⟩

section Inlined

variable (values : Values)

theorem Block.projection_inlined (block : Block) :
    (block.inlined values).projection =
      (block.projection.renewed? (inlined? values)).getD block.projection := by
  rw [inlined, getD_renewed?]
  rfl

/-- A position resolves to the same expression whether the projection is frozen
before or after the parameters are inlined. -/
theorem Block.resolved?_inline {block : Block} {mapping : Mapping Projected}
    (hprojection : block.projection = .pending mapping) (honce : mapping.duplicate? = none)
    (hfreezes : block.applyProjection.answer = .ok ()) :
    ∃ frozen inlined, block.applyProjection.block.inline values = .ok frozen ∧
      block.inline values = .ok inlined ∧
      (inlined.applyProjection.answer = .ok () → ∀ member ∈ mapping.keys,
        ∃ first last, frozen.resolved? member = some first ∧
          inlined.applyProjection.block.resolved? member = some last ∧
          first.expression.same last.expression = true) := by
  rw [OrderedMap.duplicate?_eq_none_iff] at honce
  refine ⟨_, _, inline_eq values _, inline_eq values block, ?_⟩
  intro hinlined member hmember
  obtain ⟨columns, bindings, hfrozen, hmade⟩ := exists_madeFrom hprojection honce hfreezes
  have hleft : (block.applyProjection.block.inlined values).projection =
      .frozen (columns.map fun column => ⟨column.expression.inlined values, column.aliasName⟩)
        bindings := by
    rw [projection_inlined, hfrozen, Projection.getD_renewed?_frozen]
  have hpending : (block.inlined values).projection =
      .pending (mapping.mapValues (Projected.inlined values)) := by
    rw [projection_inlined, hprojection, Projection.getD_renewed?_pending values honce]
  have hnodup : (mapping.mapValues (Projected.inlined values)).keys.Nodup := by
    rwa [OrderedMap.keys_mapValues]
  obtain ⟨columns', bindings', hright, hmade'⟩ := exists_madeFrom hpending hnodup hinlined
  obtain ⟨⟨member, projected⟩, hentry, rfl⟩ := List.mem_map.mp hmember
  -- both columns show what the position was bound to, with the parameters inlined
  obtain ⟨number, column, hnumber, hcolumn, hsame⟩ := hmade.resolves member projected hentry
  obtain ⟨number', column', hnumber', hcolumn', hsame'⟩ :=
    hmade'.resolves member (projected.inlined values) (List.mem_map_of_mem hentry)
  refine ⟨⟨column.expression.inlined values, column.aliasName⟩, column', ?_, ?_, ?_⟩
  · rw [resolved?_of_frozen hleft hnumber, List.getElem?_map, hcolumn]
    rfl
  · rw [resolved?_of_frozen hright hnumber', hcolumn']
  · rw [Projected.same_comm] at hsame'
    exact Projected.same_trans (Projected.same_inlined values hsame) hsame'

end Inlined

/-- A parameter and its value are put out: two columns if they are frozen first,
one if they are frozen last. -/
theorem Block.resolved?_inline_shared :
    let values := Values.ofList [("p", .bool true)]
    let parameter := Projected.scalar (.parameter "p" .boolean)
    let constant := Projected.scalar (.ofJson (.bool true))
    let a : Member := ⟨[.field "A"]⟩
    let b : Member := ⟨[.field "B"]⟩
    let mapping : Mapping Projected := ⟨[(a, parameter), (b, constant)]⟩
    let block := Block.empty.withProjection (.pending mapping)
    mapping.duplicate? = none ∧ block.applyProjection.answer = .ok () ∧
      ∃ frozen inlined, block.applyProjection.block.inline values = .ok frozen ∧
        block.inline values = .ok inlined ∧ inlined.applyProjection.answer = .ok () ∧
        frozen.projection.columns.length = 2 ∧
        inlined.applyProjection.block.projection.columns.length = 1 ∧
        ∃ first last, frozen.resolved? b = some first ∧
          inlined.applyProjection.block.resolved? b = some last ∧
          first.expression.same last.expression = true := by
  intro values parameter constant a b mapping block
  have honce : mapping.duplicate? = none := rfl
  have hfreezes : block.applyProjection.answer = .ok () := rfl
  obtain ⟨frozen, inlined, hfirst, hlast, hresolved⟩ := resolved?_inline values rfl honce hfreezes
  have hother : parameter.same constant = false := by
    simp [parameter, constant, Projected.same, Expr.same, Expr.ofJson]
  have halias : Alias.fresh "B" ["A"] = "B" := rfl
  have hnew : newColumn [⟨parameter, "A"⟩] constant b.lastName? defaultColumnAlias =
      ⟨constant, "B"⟩ :=
    congrArg (Column.mk constant) halias
  have hrows : ¬ block.singleValue = true := Bool.false_ne_true
  have hsettle : block.settle =
      .ok ([⟨parameter, "A"⟩, ⟨constant, "B"⟩], ⟨[(a, 0), (b, 1)]⟩) := by
    refine (settle_pending_eq_ok_iff rfl _ _).mpr ⟨?_, fun hvalue => absurd hvalue hrows⟩
    change freezeFrom defaultColumnAlias [⟨parameter, "A"⟩] ⟨[(a, 0)]⟩ [(b, constant)] = _
    rw [freezeFrom, pushColumn, columnOf?, hother, hnew]
    rfl
  have hcolumns : block.applyProjection.block.inline values = .ok (block.withProjection
      (.frozen [⟨constant, "A"⟩, ⟨constant, "B"⟩] ⟨[(a, 0), (b, 1)]⟩)) := by
    rw [applyProjection_of_settle hsettle]
    rfl
  have hmapping : block.inline values =
      .ok (block.withProjection (.pending ⟨[(a, constant), (b, constant)]⟩)) := rfl
  obtain rfl := Except.ok.inj (hfirst.symm.trans hcolumns)
  obtain rfl := Except.ok.inj (hlast.symm.trans hmapping)
  refine ⟨honce, hfreezes, _, _, hfirst, hlast, rfl, rfl, ?_, hresolved rfl b (by decide)⟩
  have hshared : (block.withProjection (.pending ⟨[(a, constant), (b, constant)]⟩)).settle =
      .ok ([⟨constant, "A"⟩], ⟨[(a, 0), (b, 0)]⟩) := by
    refine (settle_pending_eq_ok_iff rfl _ _).mpr ⟨?_, fun hvalue => absurd hvalue hrows⟩
    change freezeFrom defaultColumnAlias [⟨constant, "A"⟩] ⟨[(a, 0)]⟩ [(b, constant)] = _
    rw [freezeFrom, pushColumn, columnOf?, Projected.same_refl]
    rfl
  rw [applyProjection_of_settle hshared]
  rfl

end DocumentQuery
