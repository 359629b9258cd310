import DocumentQuery.Proofs.Calls
/-!
# What a refused call leaves behind

A call that is refused should leave the block as it was. All calls keep to this
but one: a further column for a pending block that selects a single value is
refused only after the block has been frozen (`addColumn_of_overfills`).
`Overfills` says when that happens; it happens in no other way.
-/

namespace DocumentQuery

namespace Outcome

variable {α β : Type}

/-- If the call was refused, it left `block` behind. -/
def Spares (block : Block) (outcome : Outcome α) : Prop :=
  ∀ error, outcome.answer = .error error → outcome.block = block

theorem spares_refuse (block : Block) (error : PlanError) :
    (block.refuse error : Outcome α).Spares block :=
  fun _ _ => rfl

theorem spares_reject (block : Block) (expression : String) (limitation : Limitation) :
    (block.reject expression limitation : Outcome α).Spares block :=
  spares_refuse block _

theorem spares_ok (block : Block) (answer : α) (after : Block) :
    (⟨.ok answer, after⟩ : Outcome α).Spares block := by
  intro error h
  simp at h

theorem Spares.map {block : Block} {outcome : Outcome α} (h : outcome.Spares block)
    (f : α → β) : (outcome.map f).Spares block := by
  intro error herror
  rw [answer_map_eq_error_iff] at herror
  exact h error herror

end Outcome

namespace Block

variable {block : Block}

/-- The block selects a single value, what it is bound to gives it its one
column, and that column shows something else than `projected`. -/
def Overfills (block : Block) (projected : Projected) : Prop :=
  ∃ mapping column bindings,
    block.projection = .pending mapping ∧ block.singleValue = true ∧
      freezeFrom defaultColumnAlias [] .empty mapping.entries = ([column], bindings) ∧
      column.expression.same projected = false

theorem same_eq_false_of_isFrozen {a b : Block}
    (h : a.projection.isFrozen ≠ b.projection.isFrozen) : a.same b = false := by
  rcases a with ⟨_, _ | _⟩ <;> rcases b with ⟨_, _ | _⟩ <;>
    simp_all [Block.same, Projection.same, Projection.isFrozen]

/-- A block that is overfilled settles to its one column. -/
theorem settle_of_overfills {projected : Projected} (h : block.Overfills projected) :
    ∃ column bindings, block.settle = .ok ([column], bindings) ∧
      column.expression.same projected = false := by
  obtain ⟨mapping, column, bindings, hprojection, hsingle, hfrozen, hother⟩ := h
  refine ⟨column, bindings, ?_, hother⟩
  exact (settle_pending_eq_ok_iff hprojection [column] bindings).mpr ⟨hfrozen, fun _ => rfl⟩

/-- The column is refused, and the block is left behind frozen. -/
theorem addColumn_of_overfills {projected : Projected} (h : block.Overfills projected)
    (aliasName : Option String) :
    block.addColumn projected aliasName =
      ⟨.error (.structural projected.text .singleValueArity), block.applyProjection.block⟩ := by
  obtain ⟨column, bindings, hsettle, hother⟩ := settle_of_overfills h
  obtain ⟨mapping, _, _, hprojection, hsingle, hfrozen, -⟩ := h
  have hbinds : block.bindsNothing = false := by
    cases hentries : mapping.entries with
    | nil => simp [hentries, freezeFrom] at hfrozen
    | cons entry rest => simp [bindsNothing, hprojection, OrderedMap.isEmpty, hentries]
  have hnew : columnOf? projected [column] = none := by
    simp [columnOf?, hother]
  rw [addColumn_of_settle hbinds hsettle, pushTo_eq, applyProjection_of_settle hsettle,
    if_pos ⟨hsingle, hnew, List.cons_ne_nil column []⟩]

theorem spares_addColumn {projected : Projected} (hfits : ¬ block.Overfills projected)
    (aliasName : Option String) : (block.addColumn projected aliasName).Spares block := by
  rcases addColumn_cases block projected aliasName with
    ⟨error, hcolumn⟩ | hcolumn | ⟨columns, bindings, hsettle, hcolumn⟩
  · rw [hcolumn]
    exact Outcome.spares_refuse block error
  · rw [hcolumn, pushTo_eq, if_neg (fun hrefused => hrefused.2.2 rfl)]
    exact Outcome.spares_ok block _ _
  · rw [hcolumn, pushTo_eq]
    split
    · rename_i hrefused
      obtain ⟨hsingle, hnew, -⟩ := hrefused
      cases hprojection : block.projection with
      | frozen settled bound =>
          -- nothing was left to freeze
          rw [settle_frozen hprojection] at hsettle
          obtain ⟨rfl, rfl⟩ := Prod.mk.inj (Except.ok.inj hsettle)
          exact fun _ _ => withProjection_self hprojection
      | pending mapping =>
          obtain ⟨hfrozen, hone⟩ :=
            (settle_pending_eq_ok_iff hprojection columns bindings).mp hsettle
          obtain ⟨column, rfl⟩ := List.length_eq_one_iff.mp (hone hsingle)
          have hother : column.expression.same projected = false := by
            simpa [columnOf?] using hnew
          exact absurd ⟨mapping, column, bindings, hprojection, hsingle, hfrozen, hother⟩ hfits
    · exact Outcome.spares_ok block _ _

theorem spares_applyProjection (block : Block) : block.applyProjection.Spares block := by
  unfold applyProjection
  split
  · exact Outcome.spares_refuse block _
  · exact Outcome.spares_ok block _ _

/-- A refused call leaves the block as it is unless it asks for a column too
many. -/
theorem spares_perform {call : Call} (hfits : ∀ projected aliasName,
    call = .addColumn projected aliasName → ¬ block.Overfills projected) :
    (block.perform call).Spares block := by
  cases call with
  | bindMember member projected =>
      refine Outcome.Spares.map ?_ _
      unfold bindMember
      split
      · exact Outcome.spares_ok block _ _
      · exact Outcome.spares_reject block _ _
  | replaceMapping mapping =>
      refine Outcome.Spares.map ?_ _
      unfold replaceMapping
      split
      · exact Outcome.spares_ok block _ _
      · exact Outcome.spares_reject block _ _
  | applyProjection => exact (spares_applyProjection block).map _
  | addColumn projected aliasName =>
      exact (spares_addColumn (hfits projected aliasName rfl) aliasName).map _
  | applyLimit limit =>
      refine Outcome.Spares.map ?_ _
      unfold applyLimit
      split
      · exact Outcome.spares_reject block _ _
      · exact Outcome.spares_ok block _ _
  | applyOffset offset =>
      refine Outcome.Spares.map ?_ _
      unfold applyOffset
      split
      · exact Outcome.spares_reject block _ _
      · exact Outcome.spares_ok block _ _
  | applyOrdering key =>
      refine Outcome.Spares.map ?_ _
      unfold applyOrdering
      split
      · exact Outcome.spares_reject block _ _
      · exact Outcome.spares_ok block _ _
  | appendOrdering key =>
      refine Outcome.Spares.map ?_ _
      unfold appendOrdering
      split
      · exact Outcome.spares_reject block _ _
      · split <;> exact Outcome.spares_ok block _ _
  | reverseOrderings =>
      refine Outcome.Spares.map ?_ _
      unfold reverseOrderings
      split
      · exact Outcome.spares_reject block _ _
      · split
        · exact Outcome.spares_reject block _ _
        · exact Outcome.spares_ok block _ _
  | addJoin config inner =>
      have hjoin : (block.addJoin config inner).Spares block := fun _ h => addJoin_of_error h
      exact hjoin.map _
  | clearMapping => exact Outcome.spares_ok block _ _
  | selectingValue => exact Outcome.spares_ok block _ _
  | applyDistinct => exact Outcome.spares_ok block _ _
  | filter condition => exact Outcome.spares_ok block _ _
  | clearOrdering => exact Outcome.spares_ok block _ _
  | addKeyBinding property value => exact Outcome.spares_ok block _ _

/-- A call is refused and yet changes the block exactly if it asks for a column
too many; see `addColumn_of_overfills` for what it leaves behind. -/
theorem refused_changes_iff (block : Block) (call : Call) :
    ((∃ error, (block.perform call).answer = .error error) ∧
        (block.perform call).block ≠ block) ↔
      ∃ projected aliasName, call = .addColumn projected aliasName ∧
        block.Overfills projected := by
  constructor
  · rintro ⟨⟨error, herror⟩, hchanged⟩
    by_cases hcause : ∃ projected aliasName, call = .addColumn projected aliasName ∧
        block.Overfills projected
    · exact hcause
    · refine absurd (spares_perform ?_ error herror) hchanged
      intro projected aliasName hcall hoverfills
      exact hcause ⟨projected, aliasName, hcall, hoverfills⟩
  · rintro ⟨projected, aliasName, rfl, hoverfills⟩
    have hcolumn := addColumn_of_overfills hoverfills aliasName
    obtain ⟨column, bindings, hsettle, -⟩ := settle_of_overfills hoverfills
    obtain ⟨mapping, _, _, hprojection, -⟩ := hoverfills
    rw [perform, hcolumn, applyProjection_of_settle hsettle]
    refine ⟨⟨_, rfl⟩, fun hsame => ?_⟩
    have hstage : Projection.frozen [column] bindings = .pending mapping :=
      (congrArg Block.projection hsame).trans hprojection
    simp at hstage

/-- A pending block over the tags of a blog is refused the constant `1` as a
further column, and is frozen afterwards. -/
theorem refused_constant_freezes :
    let tags := Expr.property (.objectReference "Blog" "c") "Tags" .array
    let block := overCollection tags "t" (.scalar (.scalarReference "t" .string))
    let one := Projected.scalar (.constant (.number (.integer 1)) .number)
    let outcome := block.perform (.addColumn one none)
    outcome.answer = .error (.structural "1" .singleValueArity) ∧
      outcome.block.projection.isFrozen = true ∧ outcome.block.same block = false := by
  intro tags block one outcome
  have hother : (Projected.scalar (.scalarReference "t" .string)).same one = false := by
    simp [one, Projected.same, Expr.same]
  have hoverfills : block.Overfills one := ⟨_, _, _, rfl, rfl, rfl, hother⟩
  have houtcome : outcome = (block.addColumn one none).map .column := rfl
  rw [houtcome, addColumn_of_overfills hoverfills none]
  have hstage : block.applyProjection.block.projection.isFrozen ≠ block.projection.isFrozen :=
    Bool.noConfusion
  exact ⟨rfl, rfl, same_eq_false_of_isFrozen hstage⟩

end Block

end DocumentQuery
