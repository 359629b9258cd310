import DocumentQuery.Member
/-!
# Errors

Why a call on a block is refused, or why a block is not valid. An error names
its cause; the wording is in `PlanError.message`.
-/

namespace DocumentQuery

inductive Limitation where
  | noSubqueryPushdown
  | reverseAfterPaging
  | projectionAlreadyApplied
  | singleValueArity
  | joinOnPointRead
deriving DecidableEq

def Limitation.description : Limitation → String
  | .noSubqueryPushdown =>
    "the document SQL dialect cannot push an ordered, paged or distinct query into a subquery"
  | .reverseAfterPaging =>
    "reversing the ordering is not supported once OFFSET or LIMIT has been applied"
  | .projectionAlreadyApplied =>
    "the projection has already been applied and can no longer be rebound"
  | .singleValueArity => "a VALUE projection must contain exactly one column"
  | .joinOnPointRead => "a point read addresses a single document and cannot be joined"

/-- What is wrong with a block that was not built by checked calls. -/
inductive PlanFault where
  | collectionNotIterable (aliasName : String)
  | iteratedWithoutValue (aliasName : String)
  | iteratedContainer (aliasName : String)
  | sourceAliasRepeated (aliasName : String)
  | memberRepeated (member : Member)
  | missingColumn (member : Member) (number : Nat)
  | columnAliasRepeated (aliasName : String)
  | joinedPointRead
  | refused (reason : String)
deriving DecidableEq

def PlanFault.description : PlanFault → String
  | .collectionNotIterable aliasName =>
    "source '" ++ aliasName ++ "' iterates a collection the dialect cannot iterate directly"
  | .iteratedWithoutValue aliasName =>
    "source '" ++ aliasName ++ "' iterates a subquery without a VALUE projection"
  | .iteratedContainer aliasName =>
    "source '" ++ aliasName ++ "' cannot iterate a container or raw query"
  | .sourceAliasRepeated aliasName => "source alias '" ++ aliasName ++ "' is used more than once"
  | .memberRepeated member => "projection member '" ++ member.text ++ "' is bound more than once"
  | .missingColumn member number =>
    "member '" ++ member.text ++ "' is bound to missing column #" ++ toString number
  | .columnAliasRepeated aliasName => "column alias '" ++ aliasName ++ "' is used more than once"
  | .joinedPointRead => "a point read cannot carry joined sources"
  | .refused reason => reason

inductive PlanError where
  /-- The part of the query with the given text meets a limitation. -/
  | structural (expression : String) (limitation : Limitation)
  | unresolvedBinding (member : Member)
  | complexProjection (member : Member)
  | invalidPlan (fault : PlanFault)
deriving DecidableEq

namespace PlanError

def message : PlanError → String
  | .structural expression limitation =>
    "Translation of '" ++ expression ++ "' failed: " ++ limitation.description
  | .unresolvedBinding member =>
    "Projection member '" ++ member.text ++ "' is not bound (internal translator error)"
  | .complexProjection member =>
    "Complex projections in subqueries are not supported: member '" ++ member.text ++
      "' of the joined query projects into an unmaterialized object"
  | .invalidPlan fault => "Invalid select plan: " ++ fault.description

end PlanError

end DocumentQuery
