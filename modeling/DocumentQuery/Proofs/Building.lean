import DocumentQuery.Proofs.Holding
import DocumentQuery.Proofs.Soundness
/-!
# Blocks that are built by calls

A block is `Built` if it is one of the blocks that a query begins with, or is
left behind by a permitted call on a built block, be the call refused or not;
the blocks that are handed over with a call have to be built in turn. What is
built is sound (`Built.sound`), and what stands in it is built (`Built.carries`),
so that all of it is valid, at any depth.
-/

namespace DocumentQuery

namespace Block

variable {block : Block}

/-- The blocks that queries begin with, and what calls make of them. The blocks
in the expressions that are handed over, and the inner blocks of joins, are
built themselves. -/
inductive Built : Block → Prop where
  | forEntity (config : Config) (entityType : String) : Built (.forEntity config entityType)
  | forPointRead (config : Config) (entityType : String) (pointRead : PointRead) :
      Built (.forPointRead config entityType pointRead)
  | ofText (config : Config) (entityType text : String) : Built (.ofText config entityType text)
  | projecting (projected : Projected)
      (hprojected : ∀ inner ∈ projected.expression.subqueries, Built inner) :
      Built (.projecting projected)
  | ofValue (expression : Expr) (hexpression : ∀ inner ∈ expression.subqueries, Built inner) :
      Built (.ofValue expression)
  | overCollection (collection : Expr) (aliasName : String) (projected : Projected)
      (hcollection : ∀ inner ∈ collection.subqueries, Built inner)
      (hprojected : ∀ inner ∈ projected.expression.subqueries, Built inner) :
      Built (.overCollection collection aliasName projected)
  | perform {block : Block} {call : Call} (hblock : Built block) (hpermits : block.Permits call)
      (hexpressions : ∀ expression ∈ call.expressions,
        ∀ inner ∈ expression.subqueries, Built inner)
      (hinner : ∀ inner ∈ call.inner?, Built inner) :
      Built (block.perform call).block

namespace Built

theorem sound (h : Built block) : block.Sound := by
  induction h with
  | forEntity config entityType => exact (Sound.projecting _).over rfl
  | forPointRead config entityType pointRead =>
      have hentity : (Block.forEntity config entityType).Sound := (Sound.projecting _).over rfl
      exact { hentity with pointRead := fun _ => Nat.le_refl 1 }
  | ofText config entityType text => exact (Sound.projecting _).over rfl
  | projecting projected _ => exact Sound.projecting projected
  | ofValue expression _ => exact Sound.ofValue expression
  | overCollection collection aliasName projected _ _ =>
      have hsource := (Sound.projecting projected).over (legal_iterate collection aliasName)
      exact { hsource with }
  | perform _ hpermits _ _ ih => exact ih.perform hpermits

theorem carries (h : Built block) : block.Carries Built := by
  induction h with
  | forEntity config entityType => exact Carries.forEntity config entityType
  | forPointRead config entityType pointRead =>
      exact { Carries.forEntity config entityType with }
  | ofText config entityType text =>
      refine (Carries.forEntity config entityType).over ?_
      simp [Source.Carries, Source.ofText, Source.collection?, Source.block?]
  | projecting projected hprojected _ => exact Carries.projecting projected hprojected
  | ofValue expression hexpression _ => exact Carries.ofValue hexpression
  | overCollection collection aliasName projected hcollection hprojected _ _ =>
      have hsource := carries_iterate hcollection (.ofValue collection hcollection) aliasName
      exact { (Carries.projecting projected hprojected).over hsource with }
  | perform _ _ hexpressions hinner ih _ ihinner =>
      refine ih.perform hexpressions fun inner hmem => ⟨ihinner inner hmem, ?_⟩
      have hfrozen : Built (inner.perform .applyProjection).block :=
        .perform (hinner inner hmem) trivial (by simp [Call.expressions]) (by simp [Call.inner?])
      have hcleared : Built ((inner.perform .applyProjection).block.perform .clearMapping).block :=
        .perform hfrozen trivial (by simp [Call.expressions]) (by simp [Call.inner?])
      exact hcleared

/-- What stands in a built block at any depth is built. -/
theorem of_held {inner : Block} (h : Built block)
    (hinner : Relation.ReflTransGen Holds block inner) : Built inner := by
  induction hinner with
  | refl => exact h
  | tail _ hheld ih => exact carries_iff.mp ih.carries _ hheld

end Built

/-- A built block is valid, and so is every block that stands in it, as a source
or as a subquery, however deep. -/
theorem validate_of_built {inner : Block} (h : Built block)
    (hinner : Relation.ReflTransGen Holds block inner) : inner.validate = .ok () := by
  have hsound : inner.SoundThroughout := by
    intro deeper hdeeper
    have hheld : Relation.ReflTransGen Holds inner deeper :=
      Relation.ReflTransGen.mono (fun _ _ hnests => Or.inl hnests) _ _ hdeeper
    exact (h.of_held (hinner.trans hheld)).sound
  exact hsound.validate

/-- An array that is written out stands in a wrapper of its own, which stands in
the block that was joined. -/
theorem validate_wrapped_array :
    let array := Expr.inlineArray [.constant .null .null]
    let items := overCollection array "i" (.scalar (.scalarReference "i" .unknown))
    let block := ((forEntity .default "Order").perform (.addJoin .default items)).block
    Built block ∧ Relation.ReflTransGen Holds block (ofValue array) ∧
      (ofValue array).validate = .ok () := by
  intro array items block
  have hitems : Built items :=
    .overCollection array "i" _ (by simp [array, Expr.subqueries, subqueriesIn])
      (by simp [Projected.expression, Expr.subqueries])
  have hblock : Built block :=
    .perform (.forEntity .default "Order") trivial (by simp [Call.expressions])
      (by simpa [Call.inner?] using hitems)
  have hjoined : block.Holds items.applyProjection.block.clearMapping :=
    Or.inl (List.mem_append_left _ (.head _))
  have hwrapped : items.applyProjection.block.clearMapping.Holds (ofValue array) :=
    Or.inl (List.mem_append_left _ (.head _))
  have hheld := Relation.ReflTransGen.tail (.single hjoined) hwrapped
  exact ⟨hblock, hheld, validate_of_built hblock hheld⟩

end Block

end DocumentQuery
