import DocumentQuery.Block.Validate
import DocumentQuery.Proofs.Freeze
import DocumentQuery.Proofs.Nesting
/-!
# What a valid block guarantees

`Block.Sound` says without any search what `Block.fault?` looks for in a block
itself: legal sources, aliases that do not collide, a projection whose parts fit
together, and a point read without joined sources. A block has no fault exactly
if it is sound and the blocks that its sources take rows from have none
(`fault?_eq_none_iff`). So it is valid exactly if it and all blocks that rows are
drawn from, at any depth, are sound (`validate_eq_ok_iff_sound_of_drawn`).
-/

namespace DocumentQuery

/-! ## Repeated aliases -/

theorem Alias.repeatedAfter_eq_none_iff (seen aliases : List String) :
    Alias.repeatedAfter seen aliases = none ↔
      Alias.Distinct aliases ∧ ∀ aliasName ∈ aliases, Alias.isTaken seen aliasName = false := by
  induction aliases generalizing seen with
  | nil => simp [Alias.repeatedAfter, Alias.distinct_nil]
  | cons aliasName rest ih =>
      rw [Alias.repeatedAfter]
      by_cases htaken : Alias.isTaken seen aliasName = true
      · simp [htaken]
      · rw [if_neg htaken, ih (aliasName :: seen)]
        simp only [Alias.isTaken_eq_false_iff, Alias.Distinct, List.map_cons, List.nodup_cons,
          List.mem_cons, not_or]
        rw [Alias.isTaken_iff] at htaken
        constructor
        · rintro ⟨hrest, hall⟩
          refine ⟨⟨?_, hrest⟩, ?_⟩
          · intro hmem
            obtain ⟨other, hother, hsame⟩ := List.mem_map.mp hmem
            exact (hall other hother).1 hsame
          · rintro other (rfl | hother)
            · exact htaken
            · exact (hall other hother).2
        · rintro ⟨⟨hnew, hrest⟩, hall⟩
          refine ⟨hrest, fun other hother => ⟨?_, hall other (Or.inr hother)⟩⟩
          intro hsame
          exact hnew (List.mem_map.mpr ⟨other, hother, hsame⟩)

theorem Alias.repeated?_eq_none_iff (aliases : List String) :
    Alias.repeated? aliases = none ↔ Alias.Distinct aliases := by
  simp [Alias.repeated?, Alias.repeatedAfter_eq_none_iff, Alias.isTaken]

/-! ## Soundness -/

/-- A source that the query language knows: an array behind `IN` that can be
iterated over directly, a nested query, which behind `IN` selects a single
value, or a container or query text that is not iterated over. -/
def Source.Legal (source : Source) : Prop :=
  match source.payload with
  | .root _ _ => source.iterated = false
  | .select block => source.iterated = true → block.singleValue = true
  | .collection expression => source.iterated = true ∧ expression.isPath = true
  | .raw _ _ => source.iterated = false

/-- A projection whose parts fit together. -/
def Projection.Sound (singleValue : Bool) : Projection → Prop
  | .pending mapping => mapping.keys.Nodup
  | .frozen columns bindings => Fits columns bindings ∧ (singleValue = true → columns.length = 1)

/-- What a valid block guarantees of itself, the blocks in it left aside. -/
structure Block.Sound (block : Block) : Prop where
  sources : ∀ source ∈ block.sources, source.Legal
  aliases : Alias.Distinct (block.sources.map (·.aliasName))
  projection : block.projection.Sound block.singleValue
  pointRead : block.pointRead.isSome = true → block.sources.length ≤ 1

/-! ## Soundness and faults -/

theorem orElse_eq_none_iff {α : Type} (a b : Option α) : (a <|> b) = none ↔ a = none ∧ b = none := by
  cases a <;> simp

theorem arityFault?_eq_none_iff (singleValue : Bool) (columns : List Column) :
    arityFault? singleValue columns = none ↔ (singleValue = true → columns.length = 1) := by
  simp [arityFault?]

theorem bindingFault?_eq_none_iff (columns : List Column) (bindings : Mapping Nat) :
    bindingFault? columns bindings = none ↔
      ∀ entry ∈ bindings.entries, entry.2 < columns.length := by
  simp [bindingFault?]

theorem Projection.fault?_eq_none_iff (singleValue : Bool) (projection : Projection) :
    projection.fault? singleValue = none ↔ projection.Sound singleValue := by
  cases projection with
  | pending mapping =>
      simp [Projection.fault?, Projection.Sound, memberFault?, OrderedMap.duplicate?_eq_none_iff]
  | frozen columns bindings =>
      simp only [Projection.fault?, Projection.Sound, memberFault?, columnAliasFault?,
        orElse_eq_none_iff, Option.map_eq_none_iff, OrderedMap.duplicate?_eq_none_iff,
        arityFault?_eq_none_iff, bindingFault?_eq_none_iff, Alias.repeated?_eq_none_iff]
      constructor
      · rintro ⟨hmembers, harity, hbound, haliases⟩
        exact ⟨⟨haliases, hmembers, hbound⟩, harity⟩
      · rintro ⟨⟨haliases, hmembers, hbound⟩, harity⟩
        exact ⟨hmembers, harity, hbound, haliases⟩

theorem pointReadFault?_eq_none_iff (pointRead : Option PointRead) (sources : List Source) :
    pointReadFault? pointRead sources = none ↔
      (pointRead.isSome = true → sources.length ≤ 1) := by
  simp [pointReadFault?]

theorem Source.fault?_eq_none_iff (source : Source) :
    source.fault? = none ↔ source.Legal ∧ ∀ block ∈ source.block?, block.fault? = none := by
  rcases source with ⟨payload, aliasName, iterated⟩
  cases payload with
  | root entityType container =>
      cases iterated <;> simp [Source.fault?, Payload.fault?, Source.Legal, Source.block?]
  | select block =>
      cases iterated <;> cases hvalue : block.singleValue <;>
        simp [Source.fault?, Payload.fault?, Source.Legal, Source.block?, hvalue]
  | collection expression => simp [Source.fault?, Payload.fault?, Source.Legal, Source.block?]
  | raw entityType text =>
      cases iterated <;> simp [Source.fault?, Payload.fault?, Source.Legal, Source.block?]

theorem sourcesFault?_eq_none_iff (sources : List Source) :
    sourcesFault? sources = none ↔ ∀ source ∈ sources, source.fault? = none := by
  induction sources with
  | nil => simp [sourcesFault?]
  | cons source rest ih =>
      have hsource : sourcesFault? (source :: rest) = (source.fault? <|> sourcesFault? rest) := by
        cases source
        rfl
      rw [hsource, orElse_eq_none_iff, ih, List.forall_mem_cons]

theorem Block.fault?_eq_none_iff_clauses (block : Block) :
    block.fault? = none ↔
      (∀ source ∈ block.sources, source.fault? = none) ∧
        Alias.Distinct (block.sources.map (·.aliasName)) ∧
        block.projection.Sound block.singleValue ∧
        (block.pointRead.isSome = true → block.sources.length ≤ 1) := by
  have hfault : block.fault? =
      (sourcesFault? block.sources <|> sourceAliasFault? (block.sources.map (·.aliasName)) <|>
        block.projection.fault? block.singleValue <|>
          pointReadFault? block.pointRead block.sources) := by
    cases block
    rfl
  simp only [hfault, orElse_eq_none_iff, sourcesFault?_eq_none_iff, sourceAliasFault?,
    Option.map_eq_none_iff, Alias.repeated?_eq_none_iff, Projection.fault?_eq_none_iff,
    pointReadFault?_eq_none_iff]

/-- A block has no fault exactly if it is sound and the blocks that its sources
take rows from have no fault. -/
theorem Block.fault?_eq_none_iff (block : Block) :
    block.fault? = none ↔
      block.Sound ∧ ∀ inner ∈ block.sourceBlocks, inner.fault? = none := by
  have hsources : (∀ source ∈ block.sources, source.fault? = none) ↔
      (∀ source ∈ block.sources, source.Legal) ∧
        ∀ inner ∈ block.sourceBlocks, inner.fault? = none := by
    simp only [Source.fault?_eq_none_iff, Block.sourceBlocks, List.mem_filterMap]
    constructor
    · intro h
      refine ⟨fun source hsource => (h source hsource).1, ?_⟩
      rintro inner ⟨source, hsource, hinner⟩
      exact (h source hsource).2 inner hinner
    · rintro ⟨hlegal, hinner⟩ source hsource
      exact ⟨hlegal source hsource, fun inner h => hinner inner ⟨source, hsource, h⟩⟩
  rw [fault?_eq_none_iff_clauses, hsources]
  constructor
  · rintro ⟨⟨hlegal, hinner⟩, haliases, hprojection, hpointRead⟩
    exact ⟨⟨hlegal, haliases, hprojection, hpointRead⟩, hinner⟩
  · rintro ⟨⟨hlegal, haliases, hprojection, hpointRead⟩, hinner⟩
    exact ⟨⟨hlegal, hinner⟩, haliases, hprojection, hpointRead⟩

/-! ## Validity at any depth -/

namespace Block

variable {block inner : Block}

theorem Sound.of_validate (h : block.validate = .ok ()) : block.Sound :=
  ((fault?_eq_none_iff block).mp ((validate_eq_ok_iff block).mp h)).1

/-- `outer` takes rows from `inner`. -/
def Draws (outer inner : Block) : Prop :=
  inner ∈ outer.sourceBlocks

theorem Draws.nests (h : block.Draws inner) : block.Nests inner :=
  .of_sourceBlocks h

theorem validate_eq_ok_iff_sound :
    block.validate = .ok () ↔
      block.Sound ∧ ∀ inner, block.Draws inner → inner.validate = .ok () := by
  simp only [validate_eq_ok_iff]
  exact fault?_eq_none_iff block

theorem validate_of_drawn (h : block.validate = .ok ())
    (hdrawn : Relation.ReflTransGen Draws block inner) : inner.validate = .ok () := by
  induction hdrawn with
  | refl => exact h
  | tail _ hdraws ih => exact (validate_eq_ok_iff_sound.mp ih).2 _ hdraws

/-- A block is valid exactly if all blocks that rows are taken from, itself
included, are sound. -/
theorem validate_eq_ok_iff_sound_of_drawn (block : Block) :
    block.validate = .ok () ↔
      ∀ inner, Relation.ReflTransGen Draws block inner → inner.Sound := by
  constructor
  · intro h inner hdrawn
    exact .of_validate (validate_of_drawn h hdrawn)
  · -- from the inside to the outside, over the sources alone
    have houtward : PassesOutward (fun _ => True) fun block =>
        (∀ inner, Relation.ReflTransGen Draws block inner → inner.Sound) →
          block.validate = .ok () := by
      refine ⟨fun _ _ _ => trivial, ?_⟩
      intro block _ ih hsound
      rw [validate_eq_ok_iff_sound]
      refine ⟨hsound block .refl, ?_⟩
      intro inner hdraws
      apply ih inner hdraws
      intro deeper hdeeper
      exact hsound deeper (hdeeper.head hdraws)
    exact houtward.all_block block

/-- The block and all blocks that are nested in it, however deep, are sound. -/
def SoundThroughout (block : Block) : Prop :=
  ∀ inner, Relation.ReflTransGen Nests block inner → inner.Sound

namespace SoundThroughout

theorem sound (h : block.SoundThroughout) : block.Sound :=
  h block .refl

theorem of_nests (h : block.SoundThroughout) (hinner : block.Nests inner) :
    inner.SoundThroughout :=
  fun deeper hdeeper => h deeper (hdeeper.head hinner)

theorem validate (h : block.SoundThroughout) : block.validate = .ok () := by
  rw [validate_eq_ok_iff_sound_of_drawn]
  intro inner hdrawn
  exact h inner (Relation.ReflTransGen.mono (fun _ _ hdraws => hdraws.nests) _ _ hdrawn)

end SoundThroughout

end Block

end DocumentQuery
