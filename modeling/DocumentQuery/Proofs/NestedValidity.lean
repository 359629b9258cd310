import DocumentQuery.Block.Build
import DocumentQuery.Block.Edit
import DocumentQuery.Proofs.Validity
/-!
# How deep validation looks

A block stands in another one either because rows are taken from it (`Draws`) or
because an expression asks it in a subquery (`Asks`). Validation follows the
first way and not the second; it does not look at the predicate, for instance
(`validate_filter`). Everything that is nested in a valid block is valid only if
the blocks of the subqueries are validated one by one (`valid_throughout_iff`).
-/

namespace DocumentQuery

namespace Block

variable {block inner : Block}

/-- `outer` asks `inner` in a subquery of one of its expressions. -/
def Asks (outer inner : Block) : Prop :=
  ∃ expression ∈ outer.expressions, inner ∈ expression.subqueries

theorem nests_iff : block.Nests inner ↔ block.Draws inner ∨ block.Asks inner := by
  rw [Nests, nested, List.mem_append, List.mem_flatMap]
  exact Iff.rfl

theorem validate_filter (block : Block) (condition : Expr) :
    (block.filter condition).validate = block.validate := by
  cases block
  unfold filter
  split
  · rfl
  · split <;> rfl

theorem asks_filter (block : Block) (kind : SubqueryKind) (inner : Block) :
    (block.filter (.subquery kind inner)).Asks inner := by
  have hasked : ∀ condition : Expr, inner ∈ condition.subqueries →
      Asks { block with predicate := some condition } inner := by
    intro condition hcondition
    exact ⟨condition, by simp [expressions], hcondition⟩
  rw [filter, if_neg (by simp [Expr.isTrue])]
  split
  · apply hasked
    simp [Expr.subqueries]
  · apply hasked
    simp [Expr.both, Expr.apply, Expr.subqueries]

/-- A block and all that is nested in it is valid exactly if the block is valid
and every block that is asked in a subquery, wherever it stands, is valid
itself. -/
theorem valid_throughout_iff (block : Block) :
    (∀ inner, Relation.ReflTransGen Nests block inner → inner.validate = .ok ()) ↔
      block.validate = .ok () ∧
        ∀ middle inner, Relation.ReflTransGen Nests block middle → middle.Asks inner →
          inner.validate = .ok () := by
  constructor
  · intro h
    refine ⟨h block .refl, ?_⟩
    intro middle inner hmiddle hasks
    exact h inner (hmiddle.tail (nests_iff.mpr (Or.inr hasks)))
  · rintro ⟨hvalid, hasked⟩ inner hinner
    induction hinner with
    | refl => exact hvalid
    | tail hmiddle hnests ih =>
        rcases nests_iff.mp hnests with hdraws | hasks
        · exact (validate_eq_ok_iff_sound.mp ih).2 _ hdraws
        · exact hasked _ _ hmiddle hasks

/-- A valid block that asks for an item of an array in a way that the query
language does not know. -/
theorem valid_around_invalid_subquery :
    let items := { Block.empty with
      sources := [⟨.collection (.inlineArray []), "i", true⟩], singleValue := true }
    let blogs := (forEntity .default "Blog").filter (.subquery .exists items)
    blogs.validate = .ok () ∧ blogs.Nests items ∧
      items.validate = .error (.invalidPlan (.collectionNotIterable "i")) := by
  intro items blogs
  have hentity : (forEntity .default "Blog").validate = .ok () := rfl
  refine ⟨?_, nests_iff.mpr (Or.inr (asks_filter _ _ _)), rfl⟩
  rw [validate_filter, hentity]

end Block

end DocumentQuery
