import DocumentQuery.Block.Edit
import DocumentQuery.Source
/-!
# Joins

A join adds a block to another one as a correlated source. The positions of the
outer block move under the field `Outer`, those of the inner block under
`Inner`, where they refer to the alias of the new source. Only what the inner
block binds to its root can be referred to in this way.

An inner block that does nothing but put out the items of an array is not
nested: the new source iterates over the array itself.
-/

namespace DocumentQuery

/-- How the positions moved in a join, and the alias of the source that it
added. -/
structure JoinRemapping where
  aliasName : String
  outer : List (Member × Member)
  inner : List (Member × Member)

def outerStep : Step := .field "Outer"

def innerStep : Step := .field "Inner"

namespace JoinRemapping

def remapOuter (remapping : JoinRemapping) (member : Member) : Option Member :=
  OrderedMap.lookupEntry member remapping.outer

def remapInner (remapping : JoinRemapping) (member : Member) : Option Member :=
  OrderedMap.lookupEntry member remapping.inner

end JoinRemapping

def movedUnder {α : Type} (step : Step) (mapping : Mapping α) : List (Member × Member) :=
  mapping.keys.map fun member => (member, member.prepend step)

/-- What the alias of a source refers to, for what the source puts out. -/
def Projected.referTo (aliasName : String) : Projected → Projected
  | .scalar value => .scalar (.scalarReference aliasName value.valueType)
  | .object entityType _ => .object entityType (.objectReference entityType aliasName)

namespace Block

def freshSourceAlias (block : Block) (base : String) : String :=
  Alias.fresh base (block.sources.map (·.aliasName))

def onlyProjected? (block : Block) : Option Projected :=
  match block.projection with
  | .pending mapping => if mapping.size = 1 then mapping.get? .root else none
  | .frozen [column] _ => some column.expression
  | .frozen _ _ => none

def isRestricted (block : Block) : Bool :=
  block.predicate.isSome || !block.orderings.isEmpty || block.isPaged || block.distinct

/-- The array that the block puts out the items of, if it does nothing else. -/
def bareArray? (block : Block) : Option Expr :=
  if block.isRestricted || !block.singleValue then none
  else
    match block.sources, block.onlyProjected? with
    | [⟨.collection array, aliasName, true⟩], some (.scalar (.scalarReference reference _)) =>
      if Alias.collide reference aliasName then some array else none
    | _, _ => none

def joinSource (inner : Block) (aliasName : String) : Except PlanError Source :=
  match inner.bareArray?.filter Expr.isPath with
  | some array => .ok (.iterate array aliasName)
  | none =>
    match inner.applyProjection with
    | ⟨.ok (), frozen⟩ => .ok (.nested frozen.clearMapping aliasName)
    | ⟨.error error, _⟩ => .error error

def joinParts (inner : Block) (aliasName : String) (outer : Mapping Projected) :
    Except PlanError (Source × Mapping Projected × Mapping Projected) :=
  match inner.projection with
  | .frozen _ _ => .error (.structural "JOIN" .projectionAlreadyApplied)
  | .pending mapping =>
    match mapping.keys.find? fun member => !member.isRoot with
    | some member => .error (.complexProjection member)
    | none =>
      match inner.joinSource aliasName with
      | .error error => .error error
      | .ok source =>
        let moved := outer.entries.map fun entry => (entry.1.prepend outerStep, entry.2)
        let joined := mapping.entries.map fun entry =>
          (entry.1.prepend innerStep, entry.2.referTo aliasName)
        .ok (source, mapping, OrderedMap.ofList (moved ++ joined))

/-- Adds a block as a correlated source. A block that is read by its key cannot
be joined, and neither block may be frozen. -/
def addJoin (config : Config) (block inner : Block) : Outcome JoinRemapping :=
  match block.pointRead with
  | some pointRead =>
    block.reject ("JOIN on point read of " ++ pointRead.entityType) .joinOnPointRead
  | none =>
    match block.projection with
    | .frozen _ _ => block.reject "JOIN" .projectionAlreadyApplied
    | .pending outer =>
      let aliasName := block.freshSourceAlias config.joinAlias
      match inner.joinParts aliasName outer with
      | .error error => block.refuse error
      | .ok (source, mapping, merged) =>
        ⟨.ok ⟨aliasName, movedUnder outerStep outer, movedUnder innerStep mapping⟩,
          { block with
            sources := block.sources ++ [source]
            projection := .pending merged }⟩

end Block

end DocumentQuery
