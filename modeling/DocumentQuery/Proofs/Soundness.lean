import DocumentQuery.Block.Build
import DocumentQuery.Proofs.Calls
import DocumentQuery.Proofs.Validity
/-!
# Calls keep a block sound

The blocks that queries begin with are sound, and a call on a sound block leaves
a sound block behind, be the call refused or not (`Sound.perform`). Two demands
on the calls stand in `Permits`: a mapping is collected from pairs, and a single
value is demanded only as long as the columns are not settled or of a single
column.
-/

namespace DocumentQuery

namespace Block

variable {block : Block}

/-! ## The blocks that queries begin with -/

theorem Sound.projecting (projected : Projected) : (projecting projected).Sound where
  sources := by simp [Block.projecting, Block.empty]
  aliases := Alias.distinct_nil
  projection := List.nodup_singleton Member.root
  pointRead := by simp [Block.projecting, Block.empty]

theorem Sound.over (h : block.Sound) {source : Source} (hlegal : source.Legal) :
    Sound { block with sources := [source] } where
  sources := by simpa using hlegal
  aliases := Alias.distinct_nil.append_fresh source.aliasName
  projection := h.projection
  pointRead := by simp

theorem Sound.ofValue (expression : Expr) : (ofValue expression).Sound where
  sources := by simp [Block.ofValue, Block.empty]
  aliases := Alias.distinct_nil
  projection := ⟨Fits.empty.pushColumn (.scalar expression) none defaultColumnAlias, fun _ => rfl⟩
  pointRead := by simp [Block.ofValue, Block.empty]

/-- What is iterated over is an array that the query language knows how to
iterate over, or is wrapped into a block of a single value. -/
theorem legal_iterate (collection : Expr) (aliasName : String) :
    (Source.iterate collection aliasName).Legal := by
  unfold Source.iterate
  split
  · rename_i hpath
    exact ⟨rfl, hpath⟩
  · exact fun _ => rfl

/-! ## Calls -/

/-- The state in which a call is made as it is meant to be: a mapping is
collected from pairs, and a single value is demanded of a pending block or of a
single column. -/
def Permits (block : Block) : Call → Prop
  | .replaceMapping mapping => ∃ pairs, mapping = OrderedMap.ofList pairs
  | .selectingValue =>
    block.projection.isFrozen = true → block.projection.columns.length = 1
  | _ => True

theorem legal_joinSource {inner : Block} {aliasName : String} {source : Source}
    (h : inner.joinSource aliasName = .ok source) : source.Legal := by
  rcases joinSource_eq_ok h with ⟨array, -, hpath, rfl⟩ | ⟨columns, bindings, -, rfl⟩
  · exact ⟨rfl, hpath⟩
  · simp [Source.Legal, Source.nested]

namespace Sound

variable {columns : List Column} {bindings : Mapping Nat}

theorem withProjection (h : block.Sound) {projection : Projection}
    (hprojection : projection.Sound block.singleValue) :
    (block.withProjection projection).Sound :=
  ⟨h.sources, h.aliases, hprojection, h.pointRead⟩

theorem sameShape {after : Block} (h : block.Sound) (hshape : SameShape block after) :
    after.Sound := by
  refine ⟨?_, ?_, ?_, ?_⟩
  · rw [hshape.sources]
    exact h.sources
  · rw [hshape.sources]
    exact h.aliases
  · rw [hshape.projection, hshape.singleValue]
    exact h.projection
  · rw [hshape.pointRead, hshape.sources]
    exact h.pointRead

/-- Settled columns and bindings fit together, and a single value has its
column. -/
theorem settle (h : block.Sound) (hsettle : block.settle = .ok (columns, bindings)) :
    (Projection.frozen columns bindings).Sound block.singleValue := by
  cases hprojection : block.projection with
  | frozen settled bound =>
      rw [settle_frozen hprojection] at hsettle
      obtain ⟨rfl, rfl⟩ := Prod.mk.inj (Except.ok.inj hsettle)
      exact hprojection ▸ h.projection
  | pending mapping =>
      obtain ⟨hfrozen, hone⟩ :=
        (settle_pending_eq_ok_iff hprojection columns bindings).mp hsettle
      have hfits := Fits.empty.freezeFrom defaultColumnAlias mapping.entries
      rw [hfrozen] at hfits
      exact ⟨hfits, hone⟩

/-- Adding a column to columns that fit together keeps a block sound also when
it is refused. -/
theorem pushTo (h : block.Sound) (hfits : Fits columns bindings)
    (hvalue : block.singleValue = true → columns.length ≤ 1) (projected : Projected)
    (aliasName : Option String) :
    (block.pushTo columns bindings projected aliasName).block.Sound := by
  rw [pushTo_eq]
  split
  · rename_i hrefused
    refine h.withProjection ⟨hfits, fun hsingle => ?_⟩
    have hpositive := List.length_pos_iff.mpr hrefused.2.2
    have hone := hvalue hsingle
    omega
  · rename_i haccepted
    refine h.withProjection ⟨hfits.pushColumn projected aliasName _, fun hsingle => ?_⟩
    have hone := hvalue hsingle
    cases hfound : columnOf? projected columns with
    | some number =>
        have hnumber := columnOf?_lt hfound
        simp only [pushColumn, hfound]
        omega
    | none =>
        have hempty : columns = [] := by
          by_contra hsome
          exact haccepted ⟨hsingle, hfound, hsome⟩
        simp [pushColumn, hempty, columnOf?]

theorem addColumn (h : block.Sound) (projected : Projected) (aliasName : Option String) :
    (block.addColumn projected aliasName).block.Sound := by
  rcases addColumn_cases block projected aliasName with
    ⟨error, hcolumn⟩ | hcolumn | ⟨columns, bindings, hsettle, hcolumn⟩
  · rw [hcolumn]
    exact h
  · rw [hcolumn]
    exact h.pushTo Fits.empty (by simp) projected aliasName
  · obtain ⟨hfits, hvalue⟩ := h.settle hsettle
    rw [hcolumn]
    exact h.pushTo hfits (fun hsingle => Nat.le_of_eq (hvalue hsingle)) projected aliasName

theorem addJoin (h : block.Sound) (config : Config) (inner : Block) :
    (block.addJoin config inner).block.Sound := by
  rcases addJoin_cases config block inner with hkept | ⟨remapping, after, hjoin⟩
  · rw [hkept]
    exact h
  · rw [hjoin]
    obtain ⟨hroute, outer, mapping, source, -, -, -, hsource, -, rfl⟩ := addJoin_eq_ok hjoin
    refine ⟨?_, ?_, OrderedMap.nodup_keys_ofList _, by simp [hroute]⟩
    · exact List.forall_mem_append.mpr ⟨h.sources, by simpa using legal_joinSource hsource⟩
    · rw [List.map_append, List.map_singleton, aliasName_joinSource hsource]
      exact h.aliases.append_fresh config.joinAlias

/-- A call that is permitted keeps a block sound. -/
theorem perform (h : block.Sound) {call : Call} (hpermits : block.Permits call) :
    (block.perform call).block.Sound := by
  by_cases hshape : call.keepsShape = true
  · exact h.sameShape (sameShape_perform hshape block)
  · cases call with
    | bindMember member projected =>
        rw [Block.perform, Outcome.block_map, bindMember]
        split
        · rename_i mapping hprojection
          have hnodup : mapping.keys.Nodup := by
            have hsound := h.projection
            rwa [hprojection] at hsound
          exact h.withProjection (OrderedMap.nodup_keys_insert member projected hnodup)
        · exact h
    | replaceMapping mapping =>
        obtain ⟨pairs, rfl⟩ := hpermits
        rw [Block.perform, Outcome.block_map, replaceMapping]
        split
        · exact h.withProjection (OrderedMap.nodup_keys_ofList pairs)
        · exact h
    | clearMapping =>
        refine h.withProjection ?_
        have hsound := h.projection
        cases hprojection : block.projection with
        | pending mapping => exact List.nodup_nil
        | frozen columns bindings =>
            rw [hprojection] at hsound
            exact ⟨hsound.1.clear, hsound.2⟩
    | applyProjection =>
        rw [Block.perform, Outcome.block_map]
        cases hsettle : block.settle with
        | error error =>
            rw [applyProjection_of_settle_error hsettle]
            exact h
        | ok settled =>
            rw [applyProjection_of_settle hsettle]
            exact h.withProjection (h.settle hsettle)
    | addColumn projected aliasName => exact h.addColumn projected aliasName
    | selectingValue =>
        refine ⟨h.sources, h.aliases, ?_, h.pointRead⟩
        have hsound := h.projection
        change block.projection.Sound true
        cases hprojection : block.projection with
        | pending mapping =>
            rw [hprojection] at hsound
            exact hsound
        | frozen columns bindings =>
            rw [hprojection] at hsound
            refine ⟨hsound.1, fun _ => ?_⟩
            have hone := hpermits (by rw [hprojection]; rfl)
            rwa [hprojection] at hone
    | addJoin config inner => exact h.addJoin config inner
    | _ => exact absurd rfl hshape

end Sound

end Block

end DocumentQuery
