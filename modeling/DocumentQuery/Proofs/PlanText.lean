import DocumentQuery.Proofs.Clauses
import DocumentQuery.Proofs.Rereading
/-!
# Plans as texts

A plan that is stored as a text is read to a block that is the same exactly if
no more arrays and objects are nested in it than a text may nest
(`Block.survives_run_iff`, provided that its numbers are legible; what is read if
they are not is said by `Block.survives_iff_of_readable`). Calls on a
block do not keep to that: each condition after the first wraps the predicate in
two further objects (`Expr.depth_and`), so the number of conditions that a
stored plan can have is bounded.
-/

namespace DocumentQuery

/-! ## How deep conditions nest -/

theorem Json.depth_lt_of_mem_object {name : String} {value : Json}
    {fields : List (String × Json)} (h : (name, value) ∈ fields) :
    value.depth < (object fields).depth :=
  Nat.lt_succ_of_le (depthOfFields_le_iff.mp (Nat.le_refl _) (name, value) h)

theorem Json.depth_variant (name : String) (content : Json) :
    (Json.variant name content).depth = content.depth + 1 := by
  simp [Json.variant, depth, Tree.ofJson, Tree.ofFields, Tree.depth, Tree.depthOfFields]

namespace Expr

theorem depth_pos (expression : Expr) : 0 < expression.toJson.depth := by
  cases expression <;> exact Json.depth_object_pos _

/-- What is joined with a further condition is two levels deeper than before. -/
theorem depth_and (left right : Expr) (type : ValueType) :
    left.toJson.depth + 2 ≤ (binary .and left right type).toJson.depth := by
  rw [toJson, Form.variant, Json.depth_variant]
  exact Nat.succ_le_succ
    (Json.depth_lt_of_mem_object (show ("left", left.toJson) ∈ _ by simp))

theorem lt_depth_of_conjunction {conditions : List Expr} {predicate : Expr}
    (h : conjunction conditions = some predicate) :
    2 * conditions.length < predicate.toJson.depth + 2 := by
  induction conditions using List.reverseRecOn generalizing predicate with
  | nil => simp [conjunction] at h
  | append_singleton conditions last ih =>
      rw [show [last] = (some last).toList from rfl, conjunction_append_toList] at h
      rw [List.length_append, List.length_singleton]
      cases hbefore : conjunction conditions with
      | none =>
          -- the last condition is the only one
          obtain rfl : conditions = [] := by
            cases conditions <;> simp [conjunction] at hbefore ⊢
          have hlast := predicate.depth_pos
          rw [List.length_nil]
          omega
      | some before =>
          rw [hbefore] at h
          obtain rfl : binary .and before last .boolean = predicate := Option.some.inj h
          have hand := depth_and before last .boolean
          have hrest := ih hbefore
          omega

end Expr

namespace Block

theorem depth_predicate_lt {block : Block} {predicate : Expr}
    (h : block.predicate = some predicate) : predicate.toJson.depth < block.toJson.depth := by
  obtain ⟨sources, projection, _, orderings, limit, offset, distinct, singleValue, keyBindings,
    pointRead⟩ := block
  subst h
  rw [toJson]
  exact Json.depth_lt_of_mem_object
    (show ("predicate", predicate.toJson) ∈ _ by simp [optionalToJson])

/-- After a run the block nests at least two levels for each condition. -/
theorem two_mul_conditions_le_depth {start : Block} (h : start.Initial) (calls : List Call) :
    2 * (calls.filterMap Call.condition?).length ≤ (start.run calls).toJson.depth := by
  have hrun := predicate_run h.allRows calls
  cases hpredicate : (start.run calls).predicate with
  | none =>
      rw [hpredicate] at hrun
      cases hconditions : calls.filterMap Call.condition? with
      | nil => simp
      | cons first rest => simp [hconditions, Expr.conjunction] at hrun
  | some predicate =>
      rw [hpredicate] at hrun
      have hconditions := Expr.lt_depth_of_conjunction hrun.symm
      have hblock := depth_predicate_lt hpredicate
      omega

/-! ## Reading back -/

theorem ofText?_run_eq_none {start : Block} (h : start.Initial) {calls : List Call}
    (hreadable : (start.run calls).toJson.Readable)
    (hconditions : 64 ≤ (calls.filterMap Call.condition?).length) :
    Block.ofText? (start.run calls).toJson.compact = none := by
  rw [Option.eq_none_iff_forall_ne_some]
  intro read hread
  have hdepth := (ofText?_eq_some_of_readable hreadable).1.mp ⟨read, hread⟩
  have hlimit : Json.nestingLimit = 127 := rfl
  have hnested := two_mul_conditions_le_depth h calls
  omega

/-- A run on a new block leaves a block that survives as a text exactly if it
nests no deeper than a text may, and so no block on which 64 conditions or more
were made. -/
theorem survives_run_iff {start : Block} (initial : start.Initial) (calls : List Call)
    (legible : (start.run calls).toJson.Legible) :
    ((start.run calls).Survives ↔ (start.run calls).toJson.depth ≤ Json.nestingLimit) ∧
      (64 ≤ (calls.filterMap Call.condition?).length →
        Block.ofText? (start.run calls).toJson.compact = none) := by
  refine ⟨?_, ofText?_run_eq_none initial legible.readable⟩
  rw [survives_iff_of_readable legible.readable]
  exact and_iff_left (same_reread_of_legible legible)

/-- A block with 63 conditions and a limit survives. -/
theorem survives_run_of_sixty_three :
    let start := forEntity .default "Blog"
    let calls := Call.applyLimit (.constant (.number (.integer 3)) .number) ::
      List.replicate 63 (Call.filter (.parameter "p" .boolean))
    start.Initial ∧ (start.run calls).toJson.Legible ∧ (start.run calls).Survives := by
  intro start calls
  have hstart : start.Initial := .forEntity .default "Blog"
  have hlegible : (start.run calls).toJson.Legible := by
    intro n hn
    have hnumbers : (start.run calls).toJson.numbers = [.integer 3] := by decide +kernel
    rw [hnumbers, List.mem_singleton] at hn
    exact hn ▸ Number.legible_integer (by decide) (by decide)
  exact ⟨hstart, hlegible, (survives_run_iff hstart calls hlegible).1.mpr (by decide +kernel)⟩

/-- A block with 64 conditions does not. -/
theorem unreadable_after_sixty_four :
    let start := forEntity .default "Blog"
    let calls := List.replicate 64 (Call.filter (.parameter "p" .boolean))
    start.Initial ∧ Block.ofText? (start.run calls).toJson.compact = none := by
  intro start calls
  have hstart : start.Initial := .forEntity .default "Blog"
  have hlegible : (start.run calls).toJson.Legible := by
    intro n hn
    have hnumbers : (start.run calls).toJson.numbers = [] := by decide +kernel
    simp [hnumbers] at hn
  exact ⟨hstart, ofText?_run_eq_none hstart hlegible.readable (Nat.le_refl 64)⟩

end Block

end DocumentQuery
