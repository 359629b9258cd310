import DocumentQuery.Block.Build
import DocumentQuery.Block.Join
import DocumentQuery.Proofs.Nesting
import Mathlib.Tactic.ByContra
/-!
# Calls as data

The calls that build up a block, with their arguments, as values of a type
`Call`, so that a statement can speak of any call and of any sequence of calls.
`perform` carries a call out. What a call does to a block is said here once for
each of the calls that change the projection: freezing (`settle`), adding a
column (`addColumn`) and joining (`addJoin`); the other calls replace one part
of the block and are read off their definitions. A call leaves either the shape
alone (`sameShape_perform`) or everything else (`perform_reshapes`).
-/

namespace DocumentQuery

inductive Call where
  | bindMember (member : Member) (projected : Projected)
  | replaceMapping (mapping : Mapping Projected)
  | clearMapping
  | applyProjection
  | addColumn (projected : Projected) (aliasName : Option String)
  | selectingValue
  | applyDistinct
  | filter (condition : Expr)
  | applyLimit (limit : Expr)
  | applyOffset (offset : Expr)
  | applyOrdering (key : SortKey)
  | appendOrdering (key : SortKey)
  | reverseOrderings
  | clearOrdering
  | addKeyBinding (property : String) (value : Expr)
  | addJoin (config : Config) (inner : Block)

/-- What a call answers when it succeeds: nothing, the number of a column, or how
positions moved in a join. -/
inductive Reply where
  | done
  | column (number : Nat)
  | joined (remapping : JoinRemapping)

namespace Outcome

variable {α β : Type}

/-- The same outcome with another answer. -/
def map (f : α → β) (outcome : Outcome α) : Outcome β :=
  ⟨outcome.answer.map f, outcome.block⟩

/-- The outcome of a call that cannot fail. -/
def done (block : Block) : Outcome Reply :=
  ⟨.ok .done, block⟩

@[simp] theorem block_map (f : α → β) (outcome : Outcome α) :
    (outcome.map f).block = outcome.block := rfl

theorem answer_map_eq_error_iff (f : α → β) (outcome : Outcome α) (error : PlanError) :
    (outcome.map f).answer = .error error ↔ outcome.answer = .error error := by
  rcases outcome with ⟨answer, block⟩
  cases answer <;> simp [map, Except.map]

end Outcome

namespace Call

def expressions : Call → List Expr
  | .bindMember _ projected => [projected.expression]
  | .replaceMapping mapping => mapping.values.map Projected.expression
  | .addColumn projected _ => [projected.expression]
  | .filter condition => [condition]
  | .applyLimit limit => [limit]
  | .applyOffset offset => [offset]
  | .applyOrdering key => [key.expression]
  | .appendOrdering key => [key.expression]
  | .addKeyBinding _ value => [value]
  | _ => []

/-- The block that is handed over with a join. -/
def inner? : Call → Option Block
  | .addJoin _ inner => some inner
  | _ => none

/-- Whether a call is only about which rows are put out and in which order. -/
def keepsShape : Call → Bool
  | .applyDistinct => true
  | .filter _ => true
  | .applyLimit _ => true
  | .applyOffset _ => true
  | .applyOrdering _ => true
  | .appendOrdering _ => true
  | .reverseOrderings => true
  | .clearOrdering => true
  | .addKeyBinding _ _ => true
  | _ => false

/-- Whether a call demands a single value. -/
def selectsValue : Call → Bool
  | .selectingValue => true
  | _ => false

def addsColumn : Call → Bool
  | .addColumn _ _ => true
  | _ => false

/-- Whether a call forgets what positions are bound to. -/
def clearsBindings : Call → Bool
  | .clearMapping => true
  | _ => false

theorem clearsBindings_of_keepsShape {call : Call} (h : call.keepsShape = true) :
    call.clearsBindings = false := by
  cases call <;> simp [keepsShape, clearsBindings] at h ⊢

end Call

namespace Block

def perform (block : Block) : Call → Outcome Reply
  | .bindMember member projected => (block.bindMember member projected).map fun _ => .done
  | .replaceMapping mapping => (block.replaceMapping mapping).map fun _ => .done
  | .clearMapping => .done block.clearMapping
  | .applyProjection => block.applyProjection.map fun _ => .done
  | .addColumn projected aliasName => (block.addColumn projected aliasName).map .column
  | .selectingValue => .done block.selectingValue
  | .applyDistinct => .done block.applyDistinct
  | .filter condition => .done (block.filter condition)
  | .applyLimit limit => (block.applyLimit limit).map fun _ => .done
  | .applyOffset offset => (block.applyOffset offset).map fun _ => .done
  | .applyOrdering key => (block.applyOrdering key).map fun _ => .done
  | .appendOrdering key => (block.appendOrdering key).map fun _ => .done
  | .reverseOrderings => block.reverseOrderings.map fun _ => .done
  | .clearOrdering => .done block.clearOrdering
  | .addKeyBinding property value => .done (block.addKeyBinding property value)
  | .addJoin config inner => (block.addJoin config inner).map .joined

/-! ## Predicate, sort keys, paging and partition key -/

/-- Two blocks take rows from the same sources on the same route and put out the
same columns. -/
structure SameShape (before after : Block) : Prop where
  sources : after.sources = before.sources
  projection : after.projection = before.projection
  singleValue : after.singleValue = before.singleValue
  pointRead : after.pointRead = before.pointRead

theorem sameShape_perform {call : Call} (h : call.keepsShape = true) (block : Block) :
    SameShape block (block.perform call).block := by
  cases call with
  | filter condition =>
      unfold perform filter
      dsimp only [Outcome.done]
      split
      · exact ⟨rfl, rfl, rfl, rfl⟩
      · split <;> exact ⟨rfl, rfl, rfl, rfl⟩
  | applyLimit limit =>
      unfold perform applyLimit
      rw [Outcome.block_map]
      split <;> exact ⟨rfl, rfl, rfl, rfl⟩
  | applyOffset offset =>
      unfold perform applyOffset
      rw [Outcome.block_map]
      split <;> exact ⟨rfl, rfl, rfl, rfl⟩
  | applyOrdering key =>
      unfold perform applyOrdering
      rw [Outcome.block_map]
      split <;> exact ⟨rfl, rfl, rfl, rfl⟩
  | appendOrdering key =>
      unfold perform appendOrdering
      rw [Outcome.block_map]
      split
      · exact ⟨rfl, rfl, rfl, rfl⟩
      · split <;> exact ⟨rfl, rfl, rfl, rfl⟩
  | reverseOrderings =>
      unfold perform reverseOrderings
      rw [Outcome.block_map]
      split
      · exact ⟨rfl, rfl, rfl, rfl⟩
      · split <;> exact ⟨rfl, rfl, rfl, rfl⟩
  | applyDistinct => exact ⟨rfl, rfl, rfl, rfl⟩
  | clearOrdering => exact ⟨rfl, rfl, rfl, rfl⟩
  | addKeyBinding property value => exact ⟨rfl, rfl, rfl, rfl⟩
  | bindMember member projected => simp [Call.keepsShape] at h
  | replaceMapping mapping => simp [Call.keepsShape] at h
  | clearMapping => simp [Call.keepsShape] at h
  | applyProjection => simp [Call.keepsShape] at h
  | addColumn projected aliasName => simp [Call.keepsShape] at h
  | selectingValue => simp [Call.keepsShape] at h
  | addJoin config inner => simp [Call.keepsShape] at h

def withProjection (block : Block) (projection : Projection) : Block :=
  { block with projection := projection }

theorem withProjection_self {block : Block} {projection : Projection}
    (h : block.projection = projection) : block.withProjection projection = block := by
  cases block
  cases h
  rfl

/-! ## Freezing -/

theorem settle_frozen {block : Block} {columns : List Column} {bindings : Mapping Nat}
    (h : block.projection = .frozen columns bindings) :
    block.settle = .ok (columns, bindings) := by
  simp [settle, h]

/-- A pending block settles to the columns for what its positions are bound to,
unless it selects a single value and has not exactly one. -/
theorem settle_pending {block : Block} {mapping : Mapping Projected}
    (h : block.projection = .pending mapping) :
    block.settle =
      if block.singleValue = true ∧
          (freezeFrom defaultColumnAlias [] .empty mapping.entries).1.length ≠ 1 then
        .error (.structural
          (columnsText (freezeFrom defaultColumnAlias [] .empty mapping.entries).1)
          .singleValueArity)
      else .ok (freezeFrom defaultColumnAlias [] .empty mapping.entries) := by
  simp [settle, h]

theorem settle_pending_eq_ok_iff {block : Block} {mapping : Mapping Projected}
    (h : block.projection = .pending mapping) (columns : List Column) (bindings : Mapping Nat) :
    block.settle = .ok (columns, bindings) ↔
      freezeFrom defaultColumnAlias [] .empty mapping.entries = (columns, bindings) ∧
        (block.singleValue = true → columns.length = 1) := by
  rw [settle_pending h]
  split
  · rename_i hrefused
    refine ⟨fun hsettle => absurd hsettle (by simp), ?_⟩
    rintro ⟨hfrozen, hone⟩
    rw [hfrozen] at hrefused
    exact absurd (hone hrefused.1) hrefused.2
  · rename_i haccepted
    rw [Except.ok.injEq, iff_self_and]
    intro hfrozen hsingle
    rw [hfrozen] at haccepted
    by_contra hlength
    exact haccepted ⟨hsingle, hlength⟩

theorem applyProjection_of_settle {block : Block} {columns : List Column}
    {bindings : Mapping Nat} (h : block.settle = .ok (columns, bindings)) :
    block.applyProjection = ⟨.ok (), block.withProjection (.frozen columns bindings)⟩ := by
  simp [applyProjection, h, withProjection]

theorem applyProjection_of_settle_error {block : Block} {error : PlanError}
    (h : block.settle = .error error) : block.applyProjection = ⟨.error error, block⟩ := by
  simp [applyProjection, h, refuse]

/-! ## Adding a column -/

theorem pushTo_eq (block : Block) (columns : List Column) (bindings : Mapping Nat)
    (projected : Projected) (aliasName : Option String) :
    block.pushTo columns bindings projected aliasName =
      if block.singleValue = true ∧ columnOf? projected columns = none ∧ columns ≠ [] then
        ⟨.error (.structural projected.text .singleValueArity),
          block.withProjection (.frozen columns bindings)⟩
      else
        ⟨.ok (pushColumn columns projected aliasName defaultColumnAlias).1,
          block.withProjection
            (.frozen (pushColumn columns projected aliasName defaultColumnAlias).2 bindings)⟩ := by
  simp [pushTo, reject, refuse, withProjection, and_assoc]

theorem projection_pushTo_of_singleValue {block : Block} (hsingle : block.singleValue = true)
    (columns : List Column) (bindings : Mapping Nat) (projected : Projected)
    (aliasName : Option String) :
    (block.pushTo columns bindings projected aliasName).block.projection =
      .frozen (if columns = [] then [newColumn [] projected aliasName defaultColumnAlias]
        else columns) bindings := by
  rw [pushTo_eq]
  by_cases hempty : columns = []
  · subst hempty
    simp [withProjection, pushColumn, columnOf?]
  · rw [if_neg hempty]
    cases hfound : columnOf? projected columns with
    | none => rw [if_pos ⟨hsingle, rfl, hempty⟩, withProjection]
    | some number => simp [withProjection, pushColumn, hfound]

theorem addColumn_of_settle {block : Block} (hbinds : block.bindsNothing = false)
    {columns : List Column} {bindings : Mapping Nat}
    (h : block.settle = .ok (columns, bindings)) (projected : Projected)
    (aliasName : Option String) :
    block.addColumn projected aliasName =
      block.pushTo columns bindings projected aliasName := by
  simp [addColumn, hbinds, h]

/-- A column is added to the columns that the block settles to, or to none if
nothing is bound; a block that does not settle stays as it is. -/
theorem addColumn_cases (block : Block) (projected : Projected) (aliasName : Option String) :
    (∃ error, block.addColumn projected aliasName = ⟨.error error, block⟩) ∨
      block.addColumn projected aliasName = block.pushTo [] .empty projected aliasName ∨
      ∃ columns bindings, block.settle = .ok (columns, bindings) ∧
        block.addColumn projected aliasName =
          block.pushTo columns bindings projected aliasName := by
  by_cases hbinds : block.bindsNothing = true
  · exact Or.inr (Or.inl (by rw [addColumn, if_pos hbinds]))
  · rw [Bool.not_eq_true] at hbinds
    cases hsettle : block.settle with
    | error error => exact Or.inl ⟨error, by simp [addColumn, hbinds, hsettle, refuse]⟩
    | ok settled =>
        rcases settled with ⟨columns, bindings⟩
        exact Or.inr (Or.inr ⟨columns, bindings, rfl, addColumn_of_settle hbinds hsettle _ _⟩)

/-! ## Joining -/

/-- Only a block with an iterated array as its single source puts out the items
of an array and nothing else. -/
theorem bareArray?_eq_some {block : Block} {array : Expr} (h : block.bareArray? = some array) :
    ∃ aliasName, block.sources = [⟨.collection array, aliasName, true⟩] := by
  unfold bareArray? at h
  split at h
  · simp at h
  · split at h
    · rename_i found aliasName reference type hsources hprojected
      split at h
      · obtain rfl := Option.some.inj h
        exact ⟨aliasName, hsources⟩
      · simp at h
    · simp at h

/-- The source that a joined block becomes: its array, if that is all it puts
out, else the block itself, frozen and without bindings. -/
theorem joinSource_eq_ok {inner : Block} {aliasName : String} {source : Source}
    (h : inner.joinSource aliasName = .ok source) :
    (∃ array, inner.bareArray? = some array ∧ array.isPath = true ∧
        source = ⟨.collection array, aliasName, true⟩) ∨
      ∃ columns bindings, inner.settle = .ok (columns, bindings) ∧
        source = .nested (inner.withProjection (.frozen columns .empty)) aliasName := by
  unfold joinSource at h
  split at h
  · rename_i array harray
    obtain ⟨hbare, hpath⟩ := Option.filter_eq_some_iff.mp harray
    refine Or.inl ⟨array, hbare, hpath, ?_⟩
    rw [← Except.ok.inj h, Source.iterate, if_pos hpath]
  · cases hsettle : inner.settle with
    | error error => simp [applyProjection_of_settle_error hsettle] at h
    | ok settled =>
        rcases settled with ⟨columns, bindings⟩
        simp only [applyProjection_of_settle hsettle, Except.ok.injEq] at h
        exact Or.inr ⟨columns, bindings, rfl, h.symm⟩

theorem aliasName_joinSource {inner : Block} {aliasName : String} {source : Source}
    (h : inner.joinSource aliasName = .ok source) : source.aliasName = aliasName := by
  rcases joinSource_eq_ok h with ⟨array, -, -, rfl⟩ | ⟨columns, bindings, -, rfl⟩ <;> rfl

/-- The pairs that are bound after a join: those of the outer block under
`Outer`, and references to the new source for those of the inner block under
`Inner`. -/
def joinedEntries (aliasName : String) (outer mapping : Mapping Projected) :
    List (Member × Projected) :=
  outer.entries.map (fun entry => (entry.1.prepend outerStep, entry.2)) ++
    mapping.entries.map fun entry => (entry.1.prepend innerStep, entry.2.referTo aliasName)

theorem joinParts_eq_ok {inner : Block} {aliasName : String} {outer mapping : Mapping Projected}
    {source : Source} {merged : Mapping Projected}
    (h : inner.joinParts aliasName outer = .ok (source, mapping, merged)) :
    inner.projection = .pending mapping ∧ (∀ member ∈ mapping.keys, member = .root) ∧
      inner.joinSource aliasName = .ok source ∧
      merged = OrderedMap.ofList (joinedEntries aliasName outer mapping) := by
  unfold joinParts at h
  split at h
  · simp at h
  · rename_i bound hprojection
    split at h
    · simp at h
    · rename_i hroot
      split at h
      · simp at h
      · rename_i found hsource
        simp only [Except.ok.injEq, Prod.mk.injEq] at h
        obtain ⟨rfl, rfl, rfl⟩ := h
        exact ⟨hprojection, by simpa using hroot, hsource, rfl⟩

/-- What a join that succeeds did: the outer block is pending and has no route,
the inner block is pending and binds nothing but its root, and the outer block
got one source and the bindings of both. -/
theorem addJoin_eq_ok {config : Config} {block inner after : Block}
    {remapping : JoinRemapping} (h : block.addJoin config inner = ⟨.ok remapping, after⟩) :
    block.pointRead = none ∧
      ∃ outer mapping source,
        block.projection = .pending outer ∧
        inner.projection = .pending mapping ∧
        (∀ member ∈ mapping.keys, member = .root) ∧
        inner.joinSource (block.freshSourceAlias config.joinAlias) = .ok source ∧
        remapping = ⟨block.freshSourceAlias config.joinAlias, movedUnder outerStep outer,
          movedUnder innerStep mapping⟩ ∧
        after = { block with
          sources := block.sources ++ [source]
          projection := .pending (OrderedMap.ofList
            (joinedEntries (block.freshSourceAlias config.joinAlias) outer mapping)) } := by
  unfold addJoin at h
  split at h
  · simp [reject, refuse] at h
  · rename_i hroute
    split at h
    · simp [reject, refuse] at h
    · rename_i outer houter
      dsimp only at h
      split at h
      · simp [refuse] at h
      · rename_i source mapping merged hparts
        simp only [Outcome.mk.injEq, Except.ok.injEq] at h
        obtain ⟨rfl, rfl⟩ := h
        obtain ⟨hinner, hroot, hsource, rfl⟩ := joinParts_eq_ok hparts
        exact ⟨hroute, outer, mapping, source, houter, hinner, hroot, hsource, rfl, rfl⟩

theorem addJoin_of_error {config : Config} {block inner : Block} {error : PlanError}
    (h : (block.addJoin config inner).answer = .error error) :
    (block.addJoin config inner).block = block := by
  unfold addJoin at h ⊢
  split at h
  · rfl
  · split at h
    · rfl
    · dsimp only at h ⊢
      split at h
      · rfl
      · simp at h

theorem addJoin_cases (config : Config) (block inner : Block) :
    (block.addJoin config inner).block = block ∨
      ∃ remapping after, block.addJoin config inner = ⟨.ok remapping, after⟩ := by
  cases hjoin : block.addJoin config inner with
  | mk answer after =>
      cases answer with
      | error error =>
          have hkept := addJoin_of_error (congrArg Outcome.answer hjoin)
          rw [hjoin] at hkept
          exact Or.inl hkept
      | ok remapping => exact Or.inr ⟨remapping, after, rfl⟩

/-! ## Sources and projection -/

/-- The block with other sources, another projection and another word on whether
it selects a single value. -/
def reshaped (block : Block) (sources : List Source) (projection : Projection)
    (singleValue : Bool) : Block :=
  { block with sources := sources, projection := projection, singleValue := singleValue }

theorem pushTo_reshapes (block : Block) (columns : List Column) (bindings : Mapping Nat)
    (projected : Projected) (aliasName : Option String) :
    ∃ projection, (block.pushTo columns bindings projected aliasName).block =
      block.withProjection projection := by
  rw [pushTo_eq]
  split
  · exact ⟨_, rfl⟩
  · exact ⟨_, rfl⟩

/-- A call that is about the shape changes the sources, the projection and the
demand for a single value, and nothing else. -/
theorem perform_reshapes {call : Call} (h : call.keepsShape = false) (block : Block) :
    ∃ sources projection, (block.perform call).block =
      block.reshaped sources projection (block.singleValue || call.selectsValue) := by
  have hprojected : ∀ (after : Block) (projection : Projection), call.selectsValue = false →
      after = block.withProjection projection → ∃ sources projection, after =
        block.reshaped sources projection (block.singleValue || call.selectsValue) := by
    intro after projection hvalue hafter
    refine ⟨block.sources, projection, ?_⟩
    rw [hafter, hvalue, Bool.or_false]
    rfl
  have hrefused : block = block.withProjection block.projection := (withProjection_self rfl).symm
  cases call with
  | bindMember member projected =>
      rw [perform, Outcome.block_map, bindMember]
      split
      · exact hprojected _ _ rfl rfl
      · exact hprojected _ _ rfl hrefused
  | replaceMapping mapping =>
      rw [perform, Outcome.block_map, replaceMapping]
      split
      · exact hprojected _ _ rfl rfl
      · exact hprojected _ _ rfl hrefused
  | clearMapping => exact hprojected _ _ rfl rfl
  | applyProjection =>
      rw [perform, Outcome.block_map, applyProjection]
      split
      · exact hprojected _ _ rfl hrefused
      · exact hprojected _ _ rfl rfl
  | addColumn projected aliasName =>
      rw [perform, Outcome.block_map]
      rcases addColumn_cases block projected aliasName with
        ⟨error, hcolumn⟩ | hcolumn | ⟨columns, bindings, -, hcolumn⟩
      · rw [hcolumn]
        exact hprojected _ _ rfl hrefused
      · rw [hcolumn]
        obtain ⟨projection, hpushed⟩ := pushTo_reshapes block [] .empty projected aliasName
        exact hprojected _ _ rfl hpushed
      · rw [hcolumn]
        obtain ⟨projection, hpushed⟩ := pushTo_reshapes block columns bindings projected aliasName
        exact hprojected _ _ rfl hpushed
  | selectingValue =>
      refine ⟨block.sources, block.projection, ?_⟩
      rw [Call.selectsValue, Bool.or_true]
      rfl
  | addJoin config inner =>
      rw [perform, Outcome.block_map]
      rcases addJoin_cases config block inner with hkept | ⟨remapping, after, hjoin⟩
      · rw [hkept]
        exact hprojected _ _ rfl hrefused
      · obtain ⟨-, outer, mapping, source, -, -, -, -, -, rfl⟩ := addJoin_eq_ok hjoin
        refine ⟨block.sources ++ [source], .pending (.ofList (joinedEntries
          (block.freshSourceAlias config.joinAlias) outer mapping)), ?_⟩
        rw [hjoin]
        simp [reshaped, Call.selectsValue]
  | _ => exact absurd h (by simp [Call.keepsShape])

/-! ## Pending and frozen -/

section

variable {block : Block} {mapping : Mapping Projected} {columns : List Column}
  {bindings : Mapping Nat}

/-- A pending block stays pending, or it settles, or a column is added to those
that it settles to, or to none. -/
theorem perform_pending (h : block.projection = .pending mapping) (call : Call) :
    (∃ after, (block.perform call).block.projection = .pending after) ∨
      (∃ columns bindings, block.settle = .ok (columns, bindings) ∧
        (block.perform call).block = block.withProjection (.frozen columns bindings)) ∨
      ∃ columns bindings projected aliasName,
        (columns = [] ∨ block.settle = .ok (columns, bindings)) ∧
        (block.perform call).block =
          (block.pushTo columns bindings projected aliasName).block := by
  by_cases hshape : call.keepsShape = true
  · exact Or.inl ⟨mapping, (sameShape_perform hshape block).projection.trans h⟩
  · cases call with
    | bindMember member projected =>
        rw [perform, Outcome.block_map, bindMember, h]
        exact Or.inl ⟨_, rfl⟩
    | replaceMapping other =>
        rw [perform, Outcome.block_map, replaceMapping, h]
        exact Or.inl ⟨_, rfl⟩
    | clearMapping =>
        refine Or.inl ⟨.empty, ?_⟩
        rw [perform, Outcome.done, Block.clearMapping, h, Projection.clearMapping]
    | selectingValue => exact Or.inl ⟨mapping, h⟩
    | applyProjection =>
        rw [perform, Outcome.block_map]
        cases hsettle : block.settle with
        | error error =>
            rw [applyProjection_of_settle_error hsettle]
            exact Or.inl ⟨mapping, h⟩
        | ok settled =>
            rcases settled with ⟨columns, bindings⟩
            rw [applyProjection_of_settle hsettle]
            exact Or.inr (Or.inl ⟨columns, bindings, rfl, rfl⟩)
    | addColumn projected aliasName =>
        rw [perform, Outcome.block_map]
        rcases addColumn_cases block projected aliasName with
          ⟨error, hcolumn⟩ | hcolumn | ⟨columns, bindings, hsettle, hcolumn⟩
        · rw [hcolumn]
          exact Or.inl ⟨mapping, h⟩
        · rw [hcolumn]
          exact Or.inr (Or.inr ⟨[], .empty, projected, aliasName, Or.inl rfl, rfl⟩)
        · rw [hcolumn]
          exact Or.inr (Or.inr ⟨columns, bindings, projected, aliasName, Or.inr hsettle, rfl⟩)
    | addJoin config inner =>
        rw [perform, Outcome.block_map]
        rcases addJoin_cases config block inner with hkept | ⟨remapping, after, hjoin⟩
        · rw [hkept]
          exact Or.inl ⟨mapping, h⟩
        · obtain ⟨-, outer, bound, source, -, -, -, -, -, rfl⟩ := addJoin_eq_ok hjoin
          rw [hjoin]
          exact Or.inl ⟨_, rfl⟩
    | _ => exact absurd rfl hshape

/-- The columns of a frozen block stay unless a column is asked for, and the
bindings stay unless they are cleared. -/
theorem perform_frozen (h : block.projection = .frozen columns bindings) {call : Call}
    (hcall : call.addsColumn = false) :
    (block.perform call).block.projection =
      .frozen columns (if call.clearsBindings then .empty else bindings) := by
  by_cases hshape : call.keepsShape = true
  · rw [(sameShape_perform hshape block).projection, h,
      Call.clearsBindings_of_keepsShape hshape]
    rfl
  · cases call with
    | bindMember member projected =>
        rw [perform, Outcome.block_map, bindMember, h]
        exact h
    | replaceMapping mapping =>
        rw [perform, Outcome.block_map, replaceMapping, h]
        exact h
    | clearMapping =>
        rw [perform, Outcome.done, Block.clearMapping, h]
        rfl
    | applyProjection =>
        rw [perform, Outcome.block_map, applyProjection_of_settle (settle_frozen h)]
        rfl
    | selectingValue => exact h
    | addJoin config inner =>
        rw [perform, Outcome.block_map]
        rcases addJoin_cases config block inner with hkept | ⟨remapping, after, hjoin⟩
        · rw [hkept]
          exact h
        · obtain ⟨-, outer, mapping, source, hpending, -⟩ := addJoin_eq_ok hjoin
          rw [h] at hpending
          simp at hpending
    | addColumn projected aliasName => simp [Call.addsColumn] at hcall
    | _ => exact absurd rfl hshape

theorem addColumn_frozen (h : block.projection = .frozen columns bindings)
    (projected : Projected) (aliasName : Option String) :
    block.addColumn projected aliasName = block.pushTo columns bindings projected aliasName := by
  have hbinds : block.bindsNothing = false := by
    rw [bindsNothing, h]
  exact addColumn_of_settle hbinds (settle_frozen h) projected aliasName

end

end Block

end DocumentQuery
