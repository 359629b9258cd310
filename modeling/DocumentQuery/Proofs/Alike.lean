import DocumentQuery.Proofs.VisitOrder
/-!
# Visitors that answer alike

Two visitors may carry different states and still answer every node alike, as
long as the walks that they are handed do (`Visitor.Alike`). Then they answer
alike for every block (`Block.visit_alike`): a revision shows nothing of the
states but through the answers of its visitor. So the calls of the visitor that
applies a rule may be noted without changing what comes out
(`Block.answer_visitParts_noting`), and a rule that refuses nothing never fails.
-/

namespace DocumentQuery

variable {α β σ τ : Type}

/-- Two computations give one answer, whatever states they begin in. -/
def Revising.Alike (first : Revising σ α) (second : Revising τ α) : Prop :=
  ∀ s t, (first s).1 = (second t).1

namespace Revising.Alike

theorem pure (answer : α) :
    Alike (Pure.pure answer : Revising σ α) (Pure.pure answer : Revising τ α) :=
  fun _ _ => rfl

theorem bind {first : Revising σ α} {second : Revising τ α} {next : α → Revising σ β}
    {other : α → Revising τ β} (h : first.Alike second)
    (hnext : ∀ answer, (next answer).Alike (other answer)) :
    (first >>= next).Alike (second >>= other) := by
  intro s t
  have hanswer := h s t
  rw [bind_apply, bind_apply]
  rcases hfirst : first s with ⟨answer, s'⟩
  rcases hsecond : second t with ⟨answer', t'⟩
  rw [hfirst, hsecond] at hanswer
  obtain rfl : answer = answer' := hanswer
  cases answer with
  | error error => rfl
  | ok answer => exact hnext answer s' t'

end Revising.Alike

/-- Two visitors answer a node alike whenever the walks that they are handed are
alike. -/
structure Visitor.Alike (v : Visitor σ) (w : Visitor τ) : Prop where
  onExpr : ∀ expression walk walk', Revising.Alike walk walk' →
    (v.onExpr expression walk).Alike (w.onExpr expression walk')
  onProjected : ∀ projected walk walk', Revising.Alike walk walk' →
    (v.onProjected projected walk).Alike (w.onProjected projected walk')
  onSource : ∀ source walk walk', Revising.Alike walk walk' →
    (v.onSource source walk).Alike (w.onSource source walk')
  onBlock : ∀ block walk walk', Revising.Alike walk walk' →
    (v.onBlock block walk).Alike (w.onBlock block walk')

section Visit

variable {v : Visitor σ} {w : Visitor τ}

mutual

theorem Expr.visit_alike (h : v.Alike w) :
    ∀ expression : Expr, (expression.visit v).Alike (expression.visit w)
  | .constant _ _ => h.onExpr _ _ _ (.pure none)
  | .parameter _ _ => h.onExpr _ _ _ (.pure none)
  | .binary _ left right _ =>
      h.onExpr _ _ _ <| (left.visit_alike h).bind fun _ => (right.visit_alike h).bind fun _ =>
        .pure _
  | .unary _ operand _ => h.onExpr _ _ _ <| (operand.visit_alike h).bind fun _ => .pure _
  | .property base _ _ => h.onExpr _ _ _ <| (base.visit_alike h).bind fun _ => .pure _
  | .item array index _ =>
      h.onExpr _ _ _ <| (array.visit_alike h).bind fun _ => (index.visit_alike h).bind fun _ =>
        .pure _
  | .call _ arguments _ =>
      h.onExpr _ _ _ <| (visitExprs_alike h arguments).bind fun _ => .pure _
  | .inlineArray items => h.onExpr _ _ _ <| (visitExprs_alike h items).bind fun _ => .pure _
  | .membership item values _ =>
      h.onExpr _ _ _ <| (item.visit_alike h).bind fun _ => (visitExprs_alike h values).bind
        fun _ => .pure _
  | .subquery _ block => h.onExpr _ _ _ <| (block.visit_alike h).bind fun _ => .pure _
  | .scalarReference _ _ => h.onExpr _ _ _ (.pure none)
  | .objectReference _ _ => h.onExpr _ _ _ (.pure none)
  | .fragment _ => h.onExpr _ _ _ (.pure none)

theorem visitExprs_alike (h : v.Alike w) :
    ∀ expressions : List Expr, (visitExprs v expressions).Alike (visitExprs w expressions)
  | [] => .pure []
  | expression :: rest =>
      (expression.visit_alike h).bind fun _ => (visitExprs_alike h rest).bind fun _ => .pure _

theorem visitOptional_alike (h : v.Alike w) :
    ∀ optional : Option Expr, (visitOptional v optional).Alike (visitOptional w optional)
  | none => .pure none
  | some expression => expression.visit_alike h

theorem Projected.visit_alike (h : v.Alike w) :
    ∀ projected : Projected, (projected.visit v).Alike (projected.visit w)
  | .scalar value => h.onProjected _ _ _ <| (value.visit_alike h).bind fun _ => .pure _
  | .object _ access => h.onProjected _ _ _ <| (access.visit_alike h).bind fun _ => .pure _

theorem visitEntries_alike (h : v.Alike w) :
    ∀ entries : List (Member × Projected), (visitEntries v entries).Alike (visitEntries w entries)
  | [] => .pure []
  | (_, projected) :: rest =>
      (projected.visit_alike h).bind fun _ => (visitEntries_alike h rest).bind fun _ => .pure _

theorem visitColumns_alike (h : v.Alike w) :
    ∀ columns : List Column, (visitColumns v columns).Alike (visitColumns w columns)
  | [] => .pure []
  | ⟨projected, _⟩ :: rest =>
      (projected.visit_alike h).bind fun _ => (visitColumns_alike h rest).bind fun _ => .pure _

theorem Projection.visit_alike (h : v.Alike w) :
    ∀ projection : Projection, (projection.visit v).Alike (projection.visit w)
  | .pending ⟨entries⟩ => (visitEntries_alike h entries).bind fun _ => .pure _
  | .frozen columns _ => (visitColumns_alike h columns).bind fun _ => .pure _

theorem Payload.visit_alike (h : v.Alike w) (aliasName : String) (iterated : Bool) :
    ∀ payload : Payload,
      (payload.visit v aliasName iterated).Alike (payload.visit w aliasName iterated)
  | .root _ _ => .pure none
  | .select block => (block.visit_alike h).bind fun _ => .pure _
  | .collection expression => (expression.visit_alike h).bind fun _ => .pure _
  | .raw _ _ => .pure none

theorem visitSources_alike (h : v.Alike w) :
    ∀ sources : List Source, (visitSources v sources).Alike (visitSources w sources)
  | [] => .pure []
  | ⟨payload, aliasName, iterated⟩ :: rest =>
      (h.onSource _ _ _ (payload.visit_alike h aliasName iterated)).bind fun _ =>
        (visitSources_alike h rest).bind fun _ => .pure _

theorem visitSortKeys_alike (h : v.Alike w) :
    ∀ keys : List SortKey, (visitSortKeys v keys).Alike (visitSortKeys w keys)
  | [] => .pure []
  | ⟨expression, _⟩ :: rest =>
      (expression.visit_alike h).bind fun _ => (visitSortKeys_alike h rest).bind fun _ => .pure _

/-- Visitors that answer alike make alike of every block. -/
theorem Block.visit_alike (h : v.Alike w) :
    ∀ block : Block, (block.visit v).Alike (block.visit w)
  | ⟨sources, projection, predicate, orderings, limit, offset, _, _, _, _⟩ =>
      h.onBlock _ _ _ <| (projection.visit_alike h).bind fun _ =>
        (visitSources_alike h sources).bind fun _ =>
          (visitOptional_alike h predicate).bind fun _ =>
            (visitSortKeys_alike h orderings).bind fun _ =>
              (visitOptional_alike h offset).bind fun _ =>
                (visitOptional_alike h limit).bind fun _ => .pure _

end

end Visit

/-! ## Noting calls -/

namespace Rule

/-- The visitor that notes its calls answers as the one that only applies the
rule. -/
theorem visitor_alike_noting (rule : Rule) : (rule.visitor : Visitor σ).Alike rule.noting where
  onExpr := by
    intro expression walk walk' hwalk s seen
    change (rule.applyOr expression walk s).1 =
      (rule.applyOr expression walk' (seen ++ [expression])).1
    unfold applyOr
    cases rule expression with
    | error error => rfl
    | ok answer =>
        cases answer with
        | none => exact hwalk s (seen ++ [expression])
        | some new => rfl
  onProjected := fun _ _ _ hwalk => hwalk
  onSource := fun _ _ _ hwalk => hwalk
  onBlock := fun _ _ _ hwalk => hwalk

end Rule

theorem Block.answer_visitParts_noting (rule : Rule) (block : Block) (s : σ) (seen : List Expr) :
    (block.visitParts rule.visitor s).1 = (block.visitParts rule.noting seen).1 := by
  have hvisit := block.visit_alike (rule.visitor_alike_noting (σ := σ)) s seen
  rwa [visit_eq, visit_eq] at hvisit

end DocumentQuery
