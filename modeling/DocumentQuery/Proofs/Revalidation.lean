import DocumentQuery.Proofs.Renewal
import DocumentQuery.Proofs.Soundness
import Mathlib.Data.List.Forall2
/-!
# Revisions keep blocks valid

A visitor may answer any expressions and any projected expressions, and may
decide by what it has seen so far. As long as it has nothing to say about sources
and blocks, what it makes of a valid block is valid (`Block.validate_visit`): a
new array is wrapped if it cannot be iterated over directly, a block in a source
keeps its demand for a single value, and aliases, the number of columns and the
bindings into them are carried over.

`Yields` says what holds of an answer if there is one.
-/

namespace DocumentQuery

variable {α β σ : Type}

/-! ## Answers with a property -/

namespace Revising

/-- If a computation succeeds, its answer has the property. -/
def Yields (property : α → Prop) (computation : Revising σ α) : Prop :=
  ∀ s answer s', computation s = (.ok answer, s') → property answer

namespace Yields

variable {property : α → Prop} {other : β → Prop}

theorem pure {answer : α} (h : property answer) :
    Yields property (Pure.pure answer : Revising σ α) := by
  intro s answer' s' hanswer
  obtain rfl : answer = answer' := Except.ok.inj (Prod.mk.inj hanswer).1
  exact h

theorem any (computation : Revising σ α) : Yields (fun _ => True) computation :=
  fun _ _ _ _ => trivial

theorem bind {first : Revising σ α} {next : α → Revising σ β} (h : first.Yields property)
    (hnext : ∀ answer, property answer → (next answer).Yields other) :
    (first >>= next).Yields other := by
  intro s answer s' hanswer
  rw [bind_apply] at hanswer
  rcases hfirst : first s with ⟨error | middle, s''⟩
  · rw [hfirst] at hanswer
    cases hanswer
  · rw [hfirst] at hanswer
    exact hnext middle (h s middle s'' hfirst) s'' answer s' hanswer

theorem map {first : Revising σ α} {make : α → β} (h : first.Yields property)
    (hmake : ∀ answer, property answer → other (make answer)) :
    (first >>= fun answer => Pure.pure (make answer)).Yields other :=
  h.bind fun answer hanswer => .pure (hmake answer hanswer)

/-- A walk that asks the items of a list one after the other has an answer with
the property for each of them. -/
theorem all {walkAll : List α → Revising σ (List (Option β))} {walk : α → Revising σ (Option β)}
    {related : α → Option β → Prop} {items : List α} (hnil : walkAll [] = Pure.pure [])
    (hcons : ∀ item rest, walkAll (item :: rest) =
      walk item >>= fun first => walkAll rest >>= fun more => Pure.pure (first :: more))
    (h : ∀ item ∈ items, (walk item).Yields (related item)) :
    (walkAll items).Yields (List.Forall₂ related items) := by
  induction items with
  | nil => exact hnil ▸ .pure .nil
  | cons item rest ih =>
      rw [List.forall_mem_cons] at h
      rw [hcons]
      exact h.1.bind fun first hfirst => (ih h.2).map fun more hmore => .cons hfirst hmore

end Yields

end Revising

/-! ## Lists that are rebuilt -/

theorem forall₂_rebuildList {related : α → α → Prop} {items : List α} {answers : List (Option α)}
    (h : List.Forall₂ (fun item answer => related item (answer.getD item)) items answers) :
    List.Forall₂ related items ((rebuildList items answers).getD items) := by
  rw [rebuildList]
  split
  · rename_i hnone
    induction h with
    | nil => exact .nil
    | cons hitem _ ih =>
        rw [List.all_cons, Bool.and_eq_true, Option.isNone_iff_eq_none] at hnone
        obtain ⟨rfl, hrest⟩ := hnone
        exact .cons hitem (ih hrest)
  · clear * - h
    induction h with
    | nil => exact .nil
    | cons hitem _ ih => exact .cons hitem ih

/-- What every item hands on to the item that it gives way to holds of all. -/
theorem forall_mem_of_forall₂ {property : α → Prop} {items new : List α}
    (h : List.Forall₂ (fun old new => property old → property new) items new)
    (hitems : ∀ old ∈ items, property old) : ∀ item ∈ new, property item := by
  induction h with
  | nil => exact hitems
  | cons hitem _ ih =>
      rw [List.forall_mem_cons] at hitems
      exact List.forall_mem_cons.mpr ⟨hitem hitems.1, ih hitems.2⟩

theorem map_eq_of_forall₂ {part : α → β} {items new : List α}
    (h : List.Forall₂ (fun old new => part new = part old) items new) :
    new.map part = items.map part := by
  rw [← List.forall₂_eq_eq_eq, List.forall₂_map_left_iff, List.forall₂_map_right_iff]
  exact h.flip

/-! ## The clauses of a block -/

section Revisions

variable (onExpr : Expr → Revising σ (Option Expr) → Revising σ (Option Expr))
  (onProjected : Projected → Revising σ (Option Projected) → Revising σ (Option Projected))

/-- A visitor that has nothing to say about sources and blocks. -/
abbrev Visitor.ofHooks : Visitor σ where
  onExpr := onExpr
  onProjected := onProjected

theorem map_aliasName_rebuildColumns {columns : List Column} {new : List (Option Projected)}
    (h : columns.length = new.length) :
    ((rebuildColumns columns new).getD columns).map (·.aliasName) =
      columns.map (·.aliasName) := by
  refine map_eq_of_forall₂ (forall₂_rebuildList ?_)
  induction columns generalizing new with
  | nil =>
      cases new with
      | nil => exact .nil
      | cons first rest => simp at h
  | cons column columns ih =>
      cases new with
      | nil => simp at h
      | cons first rest =>
          refine .cons ?_ (ih (by simpa using h))
          cases first <;> rfl

theorem yields_projection (singleValue : Bool) (projection : Projection) :
    (projection.visit (.ofHooks onExpr onProjected)).Yields fun answer =>
      projection.Sound singleValue → (answer.getD projection).Sound singleValue := by
  cases projection with
  | pending mapping =>
      refine (Revising.Yields.any _).map fun new _ hsound => ?_
      rw [rebuildMapping]
      split
      · exact hsound
      · exact OrderedMap.nodup_keys_ofList _
  | frozen columns bindings =>
      have hcolumns : (visitColumns (.ofHooks onExpr onProjected) columns).Yields
          (List.Forall₂ (fun _ _ => True) columns) :=
        .all rfl (fun column _ => by cases column; rfl)
          fun column _ => .any (column.expression.visit _)
      refine hcolumns.map fun new hnew hsound => ?_
      rw [Option.getD_map]
      have haliases := map_aliasName_rebuildColumns hnew.length_eq
      have hlength := congrArg List.length haliases
      rw [List.length_map, List.length_map] at hlength
      obtain ⟨hfits, hvalue⟩ := hsound
      refine ⟨⟨?_, hfits.members, ?_⟩, ?_⟩
      · rw [haliases]
        exact hfits.aliases
      · rw [hlength]
        exact hfits.bound
      · rw [hlength]
        exact hvalue

/-- What a source may become: the alias stays, and a source without fault gives
way to one without fault. -/
structure Source.Renews (old new : Source) : Prop where
  aliasName : new.aliasName = old.aliasName
  fault : old.fault? = none → new.fault? = none

/-- What a block may become: it goes on to select a single value or rows, and a
block without fault gives way to one without fault. -/
structure Block.Renews (old new : Block) : Prop where
  singleValue : new.singleValue = old.singleValue
  fault : old.fault? = none → new.fault? = none

theorem fault?_iterate (array : Expr) (aliasName : String) :
    (Source.iterate array aliasName).fault? = none := by
  refine (Source.fault?_eq_none_iff _).mpr ⟨Block.legal_iterate array aliasName, ?_⟩
  intro block hblock
  unfold Source.iterate at hblock
  split at hblock
  · cases hblock
  · obtain rfl : Block.ofValue array = block := Option.some.inj hblock
    exact (Block.fault?_eq_none_iff _).mpr ⟨Block.Sound.ofValue array, fun _ h => nomatch h⟩

/-- A block in a source gives way to one that still fits there. -/
theorem renews_select {old new : Block} (h : old.Renews new) (aliasName : String)
    (iterated : Bool) :
    Source.Renews ⟨.select old, aliasName, iterated⟩ ⟨.select new, aliasName, iterated⟩ where
  aliasName := rfl
  fault := by
    simp only [Source.fault?_eq_none_iff]
    rintro ⟨hlegal, hfault⟩
    refine ⟨fun hiterated => h.singleValue.trans (hlegal hiterated), ?_⟩
    intro block hblock
    obtain rfl := Option.some.inj hblock
    exact h.fault (hfault old rfl)

theorem yields_source {source : Source}
    (hblock : ∀ block ∈ source.block?, (block.visit (.ofHooks onExpr onProjected)).Yields
      fun answer => block.Renews (answer.getD block)) :
    ((Visitor.ofHooks onExpr onProjected).onSource source
        (source.payload.visit (.ofHooks onExpr onProjected) source.aliasName
          source.iterated)).Yields
      fun answer => source.Renews (answer.getD source) := by
  rcases source with ⟨payload, aliasName, iterated⟩
  cases payload with
  | root entityType container => exact .pure ⟨rfl, id⟩
  | select block =>
      refine (hblock block rfl).map fun answer hanswer => ?_
      rw [Option.getD_map fun block => Source.mk (.select block) aliasName iterated]
      exact renews_select hanswer aliasName iterated
  | collection array =>
      refine (Revising.Yields.any _).map fun answer _ => ?_
      cases answer with
      | none => exact ⟨rfl, id⟩
      | some new =>
          exact ⟨Source.aliasName_iterate new aliasName, fun _ => fault?_iterate new aliasName⟩
  | raw entityType text => exact .pure ⟨rfl, id⟩

theorem yields_sources {sources : List Source}
    (hblocks : ∀ source ∈ sources, ∀ block ∈ source.block?,
      (block.visit (.ofHooks onExpr onProjected)).Yields
        fun answer => block.Renews (answer.getD block)) :
    (visitSources (.ofHooks onExpr onProjected) sources).Yields fun new =>
      List.Forall₂ Source.Renews sources ((rebuildList sources new).getD sources) := by
  have hsources : (visitSources (.ofHooks onExpr onProjected) sources).Yields
      (List.Forall₂ (fun source answer => source.Renews (answer.getD source)) sources) :=
    .all rfl (fun source _ => by cases source; rfl)
      fun source hsource => yields_source onExpr onProjected (hblocks source hsource)
  intro s new s' hnew
  exact forall₂_rebuildList (hsources s new s' hnew)

/-! ## Blocks -/

namespace Block

/-- The clauses that have no conditions may become anything. -/
theorem renews_update {block : Block} {sources : List Source} {projection : Projection}
    (hsources : List.Forall₂ Source.Renews block.sources sources)
    (hprojection : block.projection.Sound block.singleValue →
      projection.Sound block.singleValue)
    (predicate : Option Expr) (orderings : List SortKey) (limit offset : Option Expr) :
    block.Renews (block.update projection sources predicate orderings limit offset) where
  singleValue := rfl
  fault := by
    simp only [fault?_eq_none_iff_clauses]
    rintro ⟨hfault, haliases, hsound, hpointRead⟩
    refine ⟨?_, ?_, hprojection hsound, ?_⟩
    · exact forall_mem_of_forall₂ (hsources.imp fun _ _ h => h.fault) hfault
    · have hkept := map_eq_of_forall₂ (hsources.imp fun _ _ h => h.aliasName)
      rw [update, hkept]
      exact haliases
    · rw [update, ← hsources.length_eq]
      exact hpointRead

theorem yields_of_sourceBlocks {block : Block}
    (hblocks : ∀ inner ∈ block.sourceBlocks,
      (inner.visit (.ofHooks onExpr onProjected)).Yields
        fun answer => inner.Renews (answer.getD inner)) :
    (block.visit (.ofHooks onExpr onProjected)).Yields
      fun answer => block.Renews (answer.getD block) := by
  have hvisit : block.visit (.ofHooks onExpr onProjected) =
      block.visitParts (.ofHooks onExpr onProjected) := block.visit_eq _
  rw [hvisit, visitParts]
  refine (yields_projection onExpr onProjected block.singleValue block.projection).bind
    fun projection hprojection => ?_
  refine (yields_sources onExpr onProjected fun source hsource inner hinner =>
    hblocks inner (List.mem_filterMap.mpr ⟨source, hsource, hinner⟩)).bind
    fun sources hsources => ?_
  refine (Revising.Yields.any _).bind fun predicate _ => ?_
  refine (Revising.Yields.any _).bind fun orderings _ => ?_
  refine (Revising.Yields.any _).bind fun offset _ => ?_
  refine (Revising.Yields.any _).map fun limit _ => ?_
  rw [getD_rebuild]
  exact renews_update hsources hprojection _ _ _ _

theorem yields_renews (block : Block) :
    (block.visit (.ofHooks onExpr onProjected)).Yields
      fun answer => block.Renews (answer.getD block) := by
  -- over the sources alone: nothing is asked of expressions
  have houtward : PassesOutward (fun _ => True) fun block =>
      (block.visit (.ofHooks onExpr onProjected)).Yields
        fun answer => block.Renews (answer.getD block) :=
    ⟨fun _ _ _ => trivial, fun _ _ => yields_of_sourceBlocks onExpr onProjected⟩
  exact houtward.all_block block

/-- Whatever a visitor answers for expressions and for what is projected: if its
visit of a valid block succeeds, the block that it leaves is valid. Inlining
always succeeds, so it makes a valid block of every valid block. -/
theorem validate_visit {block : Block} (h : block.validate = .ok ()) :
    (∀ s answer s', block.visit (.ofHooks onExpr onProjected) s = (.ok answer, s') →
      (answer.getD block).validate = .ok ()) ∧
    ∀ values, ∃ inlined, block.inline values = .ok inlined ∧ inlined.validate = .ok () := by
  rw [validate_eq_ok_iff] at h
  constructor
  · intro s answer s' hvisit
    rw [validate_eq_ok_iff]
    exact (yields_renews onExpr onProjected block s answer s' hvisit).fault h
  · intro values
    refine ⟨_, inline_eq values block, ?_⟩
    rw [validate_eq_ok_iff]
    have hvisit := congrFun (block.visit_replacer (inlined? values)) ()
    exact (yields_renews (inliner values).applyOr (fun _ walk => walk) block () _ _ hvisit).fault h

end Block

end Revisions

/-- The first property that is visited gives way to an array that is written out,
any other one to an error: the array that was iterated over is wrapped. -/
theorem Block.validate_visit_wrapped :
    let onExpr : Expr → Revising Nat (Option Expr) → Revising Nat (Option Expr) := fun
      | .property _ _ _, _ => fun
        | 0 => (.ok (some (.inlineArray [])), 1)
        | n => (.error (.invalidPlan (.refused "property")), n)
      | _, walk => walk
    let tags := Expr.property (.objectReference "Blog" "c") "Tags" .array
    let block := overCollection tags "t" (.scalar (.scalarReference "t" .string))
    block.validate = .ok () ∧ ∃ new,
      block.visit (.ofHooks onExpr fun _ walk => walk) 0 = (.ok (some new), 1) ∧
        new.sources = [⟨.select (ofValue (.inlineArray [])), "t", true⟩] ∧
        new.validate = .ok () := by
  intro onExpr tags block
  have hvalid : block.validate = .ok () := rfl
  have hvisit : block.visit (.ofHooks onExpr fun _ walk => walk) 0 =
      (.ok (some { block with sources := [.iterate (.inlineArray []) "t"] }), 1) := rfl
  have hvalidated := (validate_visit onExpr (fun _ walk => walk) hvalid).1 0 _ 1 hvisit
  exact ⟨hvalid, _, hvisit, rfl, hvalidated⟩

end DocumentQuery
