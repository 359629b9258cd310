import DocumentQuery.Block.Build
import DocumentQuery.Proofs.Alike
/-!
# The first refusal ends a revision

A revision with a rule goes through what it reaches in a block until the rule
refuses an expression, and ends there with the error of the refusal. Nothing
after it is asked for, in whatever list, clause or nested block it stands
(`Block.visitParts_ends_at_refusal`).
-/

namespace DocumentQuery

variable {rule : Rule}

/-! ## Refusals -/

namespace Rule

theorem refusal?_eq_some_iff {expression : Expr} {error : PlanError} :
    rule.refusal? expression = some error ↔ rule expression = .error error := by
  rw [refusal?]
  split <;> simp_all

theorem refusal?_eq_none_iff {expression : Expr} :
    rule.refusal? expression = none ↔ ∃ answer, rule expression = .ok answer := by
  rw [refusal?]
  split <;> simp_all

/-- What comes after a refused expression does not count. -/
theorem untilRefused_split {before after : List Expr} {refused : Expr} {error : PlanError}
    (hbefore : ∀ earlier ∈ before, rule.refusal? earlier = none)
    (hrefused : rule.refusal? refused = some error) :
    rule.untilRefused (before ++ refused :: after) = before ++ [refused] := by
  rw [untilRefused_append (List.findSome?_eq_none_iff.mpr hbefore), untilRefused, hrefused]
  rfl

theorem exists_first_refusal_iff (reached : List Expr) :
    (∃ error, reached.findSome? rule.refusal? = some error) ↔
      ∃ expression ∈ reached, ∃ error, rule expression = .error error := by
  rw [← Option.isSome_iff_exists, List.findSome?_isSome_iff]
  simp only [Option.isSome_iff_exists, refusal?_eq_some_iff]

/-- The first refusal splits what is reached. -/
theorem first_refusal_iff {reached calls : List Expr} {error : PlanError} :
    reached.findSome? rule.refusal? = some error ∧ calls = rule.untilRefused reached ↔
      ∃ before refused after, reached = before ++ refused :: after ∧
        (∀ earlier ∈ before, ∃ answer, rule earlier = .ok answer) ∧
        rule refused = .error error ∧ calls = before ++ [refused] := by
  simp only [List.findSome?_eq_some_iff, ← refusal?_eq_some_iff, ← refusal?_eq_none_iff]
  constructor
  · rintro ⟨⟨before, refused, after, rfl, hrefused, hbefore⟩, rfl⟩
    exact ⟨before, refused, after, rfl, hbefore, hrefused, untilRefused_split hbefore hrefused⟩
  · rintro ⟨before, refused, after, rfl, hbefore, hrefused, rfl⟩
    refine ⟨⟨before, refused, after, rfl, hrefused, hbefore⟩, ?_⟩
    exact (untilRefused_split hbefore hrefused).symm

end Rule

namespace Notes

variable {α : Type} {visit : Revising (List Expr) α} {reached seen calls : List Expr}

theorem eq_error_iff (h : Notes rule visit reached) {error : PlanError} :
    visit seen = (.error error, calls) ↔
      reached.findSome? rule.refusal? = some error ∧
        calls = seen ++ rule.untilRefused reached := by
  constructor
  · intro hvisit
    cases hfirst : reached.findSome? rule.refusal? with
    | some first =>
        rw [h.refused seen first hfirst] at hvisit
        obtain ⟨herror, hcalls⟩ := Prod.mk.inj hvisit
        exact ⟨congrArg some (Except.error.inj herror), hcalls.symm⟩
    | none =>
        obtain ⟨answer, hanswer⟩ := h.accepted seen hfirst
        rw [hanswer] at hvisit
        cases hvisit
  · rintro ⟨hfirst, rfl⟩
    exact h.refused seen error hfirst

theorem eq_ok (h : Notes rule visit reached) {answer : α}
    (hvisit : visit seen = (.ok answer, calls)) :
    reached.findSome? rule.refusal? = none ∧ calls = seen ++ reached := by
  cases hfirst : reached.findSome? rule.refusal? with
  | some first =>
      rw [h.refused seen first hfirst] at hvisit
      cases hvisit
  | none =>
      obtain ⟨other, hother⟩ := h.accepted seen hfirst
      rw [hother] at hvisit
      exact ⟨rfl, (Prod.mk.inj hvisit).2.symm⟩

end Notes

/-! ## Revisions -/

namespace Block

/-- A revision with a rule fails exactly if it reaches an expression that the rule
refuses. The error is that of the first one, and the visitor is asked for the
expressions before it and for itself, and for nothing else. If nothing is
refused, it is asked for all that is reached. -/
theorem visitParts_ends_at_refusal (rule : Rule) (block : Block) (σ : Type) (s : σ) :
    ((∃ error, (block.visitParts (rule.visitor : Visitor σ) s).1 = .error error) ↔
      ∃ expression ∈ block.reached rule.stops, ∃ error, rule expression = .error error) ∧
    (∀ error calls, block.visitParts rule.noting [] = (.error error, calls) ↔
      ∃ before refused after, block.reached rule.stops = before ++ refused :: after ∧
        (∀ earlier ∈ before, ∃ answer, rule earlier = .ok answer) ∧
        rule refused = .error error ∧ calls = before ++ [refused]) ∧
    (∀ answer calls, block.visitParts rule.noting [] = (.ok answer, calls) →
      calls = block.reached rule.stops) ∧
    (block.visitParts (rule.visitor : Visitor σ) s).1 = (block.visitParts rule.noting []).1 := by
  have hnotes := notes rule block
  have hanswer := block.answer_visitParts_noting rule s []
  refine ⟨?_, fun error calls => ?_, fun answer calls hvisit => (hnotes.eq_ok hvisit).2, hanswer⟩
  · rw [hanswer, ← Rule.exists_first_refusal_iff]
    rcases hvisit : block.visitParts rule.noting [] with ⟨error | answer, calls⟩
    · simp [(hnotes.eq_error_iff.mp hvisit).1]
    · simp [(hnotes.eq_ok hvisit).1]
  · rw [hnotes.eq_error_iff, List.nil_append]
    exact Rule.first_refusal_iff

/-- Of four fragments the first stands in a call that is replaced, and is not
reached. The second, in a nested source, ends the revision, and those in the
predicate and in the limit are not asked for. -/
theorem visitParts_ends_in_nested_source :
    let rule : Rule := fun
      | .fragment text => .error (.invalidPlan (.refused text))
      | .call _ _ _ => .ok (some (.constant .null .null))
      | _ => .ok none
    let call := Expr.call "f" [.fragment "inside"] .string
    let inner := { ofValue call with predicate := some (.fragment "nested") }
    let block := { projecting (.scalar (.scalarReference "n" .string)) with
      sources := [.nested inner "n"]
      predicate := some (.fragment "outer")
      limit := some (.fragment "last") }
    block.visitParts rule.noting [] =
      (.error (.invalidPlan (.refused "nested")),
        [.scalarReference "n" .string, call, .fragment "nested"]) := by
  intro rule call inner block
  have hreached : block.reached rule.stops = [.scalarReference "n" .string, call] ++
      .fragment "nested" :: [.fragment "outer", .fragment "last"] := by
    simp [block, inner, call, rule, projecting, ofValue, Block.empty, newColumn, Source.nested,
      Block.reached, Projection.reached, reachedInEntries, reachedInColumns, Projected.reached,
      reachedInSources, Payload.reached, reachedInOptional, reachedInSortKeys, Expr.reached,
      onward, Rule.stops]
  refine ((visitParts_ends_at_refusal rule block Unit ()).2.1 _ _).mpr ?_
  refine ⟨_, _, _, hreached, ?_, rfl, rfl⟩
  intro earlier hearlier
  simp only [List.mem_cons, List.not_mem_nil, or_false] at hearlier
  rcases hearlier with rfl | rfl
  · exact ⟨none, rfl⟩
  · exact ⟨some (.constant .null .null), rfl⟩

end Block

end DocumentQuery
