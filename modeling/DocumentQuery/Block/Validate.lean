import DocumentQuery.Error
import DocumentQuery.Render
/-!
# Valid blocks

A block that was read from outside need not be one that the calls on blocks can
build. `Block.fault?` looks for the first violation of what they guarantee: in
the sources and the blocks nested in them, among the aliases of the sources, in
the projection, and in the route of a point read. Blocks that stand inside
expressions are not looked into.
-/

namespace DocumentQuery

/-- The first alias that collides with one of `seen` or with one before it. -/
def Alias.repeatedAfter (seen : List String) : List String → Option String
  | [] => none
  | aliasName :: rest =>
    if Alias.isTaken seen aliasName then some aliasName else repeatedAfter (aliasName :: seen) rest

def Alias.repeated? (aliases : List String) : Option String :=
  Alias.repeatedAfter [] aliases

def sourceAliasFault? (aliases : List String) : Option PlanError :=
  (Alias.repeated? aliases).map fun aliasName => .invalidPlan (.sourceAliasRepeated aliasName)

def memberFault? {α : Type} (mapping : Mapping α) : Option PlanError :=
  mapping.duplicate?.map fun member => .invalidPlan (.memberRepeated member)

def arityFault? (singleValue : Bool) (columns : List Column) : Option PlanError :=
  if singleValue && columns.length != 1 then
    some (.structural (columnsText columns) .singleValueArity)
  else none

def bindingFault? (columns : List Column) (bindings : Mapping Nat) : Option PlanError :=
  (bindings.entries.find? fun entry => columns.length ≤ entry.2).map fun entry =>
    .invalidPlan (.missingColumn entry.1 entry.2)

def columnAliasFault? (aliases : List String) : Option PlanError :=
  (Alias.repeated? aliases).map fun aliasName => .invalidPlan (.columnAliasRepeated aliasName)

def Projection.fault? (singleValue : Bool) : Projection → Option PlanError
  | .pending mapping => memberFault? mapping
  | .frozen columns bindings =>
    memberFault? bindings <|> arityFault? singleValue columns <|>
      bindingFault? columns bindings <|> columnAliasFault? (columns.map (·.aliasName))

def pointReadFault? (pointRead : Option PointRead) (sources : List Source) : Option PlanError :=
  if pointRead.isSome && sources.length > 1 then some (.invalidPlan .joinedPointRead) else none

mutual

/-- The first fault of what the source of an alias takes its rows from. -/
def Payload.fault? (aliasName : String) (iterated : Bool) : Payload → Option PlanError
  | .root _ _ => if iterated then some (.invalidPlan (.iteratedContainer aliasName)) else none
  | .raw _ _ => if iterated then some (.invalidPlan (.iteratedContainer aliasName)) else none
  | .collection expression =>
    if iterated && expression.isPath then none
    else some (.invalidPlan (.collectionNotIterable aliasName))
  | .select block =>
    if iterated && !block.singleValue then some (.invalidPlan (.iteratedWithoutValue aliasName))
    else block.fault?

/-- The first fault of a list of sources, each taken for itself. -/
def sourcesFault? : List Source → Option PlanError
  | [] => none
  | ⟨payload, aliasName, iterated⟩ :: rest =>
    payload.fault? aliasName iterated <|> sourcesFault? rest

def Block.fault? : Block → Option PlanError
  | ⟨sources, projection, _, _, _, _, _, singleValue, _, pointRead⟩ =>
    sourcesFault? sources <|> sourceAliasFault? (sources.map (·.aliasName)) <|>
      projection.fault? singleValue <|> pointReadFault? pointRead sources

end

def Source.fault? (source : Source) : Option PlanError :=
  source.payload.fault? source.aliasName source.iterated

def Block.validate (block : Block) : Except PlanError Unit :=
  match block.fault? with
  | none => .ok ()
  | some error => .error error

theorem Block.validate_eq_ok_iff (block : Block) :
    block.validate = .ok () ↔ block.fault? = none := by
  unfold Block.validate
  split <;> simp_all

end DocumentQuery
