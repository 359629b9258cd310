import DocumentQuery.Revision
/-!
# Rules

The common case of a revision: a rule looks at an expression and replaces it,
refuses it, or has nothing to say, and then the parts of the expression are
visited. A replacement is not visited again.
-/

namespace DocumentQuery

/-- What a rule says about an expression: a replacement, nothing, or an error. -/
abbrev Rule := Expr → Except PlanError (Option Expr)

namespace Rule

def identity : Rule := fun _ => .ok none

def replacing (replacement : Expr → Option Expr) : Rule :=
  fun expression => .ok (replacement expression)

def renameProperty (old new : String) : Rule
  | .property base name type =>
    .ok (if name = old then some (.property base new type) else none)
  | _ => .ok none

def replaceReference (aliasName : String) (replacement : Expr) : Rule
  | .scalarReference name _ => .ok (if name = aliasName then some replacement else none)
  | .objectReference _ name => .ok (if name = aliasName then some replacement else none)
  | _ => .ok none

def replaceFragment (text : String) (replacement : Expr) : Rule
  | .fragment other => .ok (if other = text then some replacement else none)
  | _ => .ok none

def refuseFragments : Rule
  | .fragment text => .error (.invalidPlan (.refused ("fragment " ++ text)))
  | _ => .ok none

/-- Applies a rule to an expression, and goes on into the expression if the rule
says nothing. -/
def applyOr {σ : Type} (rule : Rule) (expression : Expr) (walk : Revising σ (Option Expr)) :
    Revising σ (Option Expr) :=
  match rule expression with
  | .error error => .fail error
  | .ok (some new) => pure (some new)
  | .ok none => walk

def visitor {σ : Type} (rule : Rule) : Visitor σ where
  onExpr := rule.applyOr

end Rule

inductive Visit where
  | expr (expression : Expr)
  | projected (projected : Projected)
  | source (source : Source)
  | block (block : Block)
  | left (changed : Bool)

def Visit.note (visit : Visit) : Revising (List Visit) Unit :=
  .update (· ++ [visit])

/-- The visitor that applies a rule and records its steps. It leaves sources or
nested blocks as they are if it is told to skip them. -/
def Rule.recorder (rule : Rule) (skipSources skipBlocks : Bool) : Visitor (List Visit) where
  onExpr expression walk := do
    Visit.note (.expr expression)
    rule.applyOr expression walk
  onProjected projected walk := do
    Visit.note (.projected projected)
    walk
  onSource source walk := do
    Visit.note (.source source)
    if skipSources then pure none else walk
  onBlock block walk := do
    Visit.note (.block block)
    if skipBlocks then pure none
    else do
      let new ← walk
      Visit.note (.left new.isSome)
      pure new

end DocumentQuery
