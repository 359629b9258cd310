import DocumentQuery.Error
import DocumentQuery.Render
/-!
# Calls on a block

The calls that build up a block step by step. Some of them are refused in some
states of the block: a frozen projection cannot be bound again, and what is
sorted, paged or made distinct already can be sorted or paged only as far as a
single query says it. A call answers with an `Outcome`, which holds the block
that is left behind also when the call is refused.
-/

namespace DocumentQuery

/-- The answer to a call on a block, and the block after it. -/
structure Outcome (α : Type) where
  answer : Except PlanError α
  block : Block

def SortKey.reverse (key : SortKey) : SortKey :=
  { key with ascending := !key.ascending }

namespace Block

variable {α : Type}

def refuse (block : Block) (error : PlanError) : Outcome α :=
  ⟨.error error, block⟩

def reject (block : Block) (expression : String) (limitation : Limitation) : Outcome α :=
  block.refuse (.structural expression limitation)

/-! ## Projection -/

def binding (block : Block) (member : Member) : Except PlanError Projection.Binding :=
  match block.projection.binding? member with
  | some binding => .ok binding
  | none => .error (.unresolvedBinding member)

def bindMember (block : Block) (member : Member) (projected : Projected) : Outcome Unit :=
  match block.projection with
  | .pending mapping =>
    ⟨.ok (), { block with projection := .pending (mapping.insert member projected).2 }⟩
  | .frozen _ _ => block.reject member.text .projectionAlreadyApplied

def replaceMapping (block : Block) (mapping : Mapping Projected) : Outcome Unit :=
  match block.projection with
  | .pending _ => ⟨.ok (), { block with projection := .pending mapping }⟩
  | .frozen _ _ =>
    block.reject (Text.commaSeparated (mapping.keys.map Member.text)) .projectionAlreadyApplied

def clearMapping (block : Block) : Block :=
  { block with projection := block.projection.clearMapping }

def bindsNothing (block : Block) : Bool :=
  match block.projection with
  | .pending mapping => mapping.isEmpty
  | .frozen _ _ => false

/-- The columns and bindings of the block once it is frozen. A block that
selects a single value has exactly one column. -/
def settle (block : Block) : Except PlanError (List Column × Mapping Nat) :=
  match block.projection with
  | .frozen columns bindings => .ok (columns, bindings)
  | .pending mapping =>
    let (columns, bindings) := freezeFrom defaultColumnAlias [] .empty mapping.entries
    if block.singleValue && columns.length != 1 then
      .error (.structural (columnsText columns) .singleValueArity)
    else .ok (columns, bindings)

def applyProjection (block : Block) : Outcome Unit :=
  match block.settle with
  | .error error => block.refuse error
  | .ok (columns, bindings) => ⟨.ok (), { block with projection := .frozen columns bindings }⟩

/-- Adds a column to a block whose projection has the given columns, and answers
with its number. A block that selects a single value takes no second column. -/
def pushTo (block : Block) (columns : List Column) (bindings : Mapping Nat)
    (projected : Projected) (aliasName : Option String) : Outcome Nat :=
  let frozen := { block with projection := .frozen columns bindings }
  if block.singleValue && (columnOf? projected columns).isNone && !columns.isEmpty then
    frozen.reject projected.text .singleValueArity
  else
    let (number, columns) := pushColumn columns projected aliasName defaultColumnAlias
    ⟨.ok number, { block with projection := .frozen columns bindings }⟩

/-- Provides a column for an expression and answers with its number. The
projection is frozen before; one that binds nothing begins without columns. -/
def addColumn (block : Block) (projected : Projected) (aliasName : Option String) : Outcome Nat :=
  if block.bindsNothing then block.pushTo [] .empty projected aliasName
  else
    match block.settle with
    | .error error => block.refuse error
    | .ok (columns, bindings) => block.pushTo columns bindings projected aliasName

def selectingValue (block : Block) : Block :=
  { block with singleValue := true }

/-! ## Predicate and paging -/

def applyDistinct (block : Block) : Block :=
  { block with distinct := true }

/-- Demands a further condition of the rows. The constant `true` demands
nothing. -/
def filter (block : Block) (condition : Expr) : Block :=
  if condition.isTrue then block
  else
    match block.predicate with
    | none => { block with predicate := some condition }
    | some predicate => { block with predicate := some (.both predicate condition) }

def applyLimit (block : Block) (limit : Expr) : Outcome Unit :=
  if block.limit.isSome then block.reject limit.text .noSubqueryPushdown
  else ⟨.ok (), { block with limit := some limit }⟩

/-- Leaves out rows at the beginning, which is possible once and not after the
rows have been limited. -/
def applyOffset (block : Block) (offset : Expr) : Outcome Unit :=
  if block.limit.isSome || block.offset.isSome then
    block.reject offset.text .noSubqueryPushdown
  else ⟨.ok (), { block with offset := some offset }⟩

/-! ## Sort keys -/

def isPaged (block : Block) : Bool :=
  block.limit.isSome || block.offset.isSome

def applyOrdering (block : Block) (key : SortKey) : Outcome Unit :=
  if block.distinct || block.isPaged then
    block.reject (sortKeysText [key]) .noSubqueryPushdown
  else ⟨.ok (), { block with orderings := [key] }⟩

/-- Sorts rows that the keys so far leave together by a further key, unless
there is a key with the same expression. -/
def appendOrdering (block : Block) (key : SortKey) : Outcome Unit :=
  if block.distinct || block.isPaged then
    block.reject (sortKeysText [key]) .noSubqueryPushdown
  else if key.expression.occursIn (block.orderings.map (·.expression)) then ⟨.ok (), block⟩
  else ⟨.ok (), { block with orderings := block.orderings ++ [key] }⟩

def reverseOrderings (block : Block) : Outcome Unit :=
  if block.isPaged then block.reject (sortKeysText block.orderings) .reverseAfterPaging
  else if block.distinct then block.reject (sortKeysText block.orderings) .noSubqueryPushdown
  else ⟨.ok (), { block with orderings := block.orderings.map SortKey.reverse }⟩

def clearOrdering (block : Block) : Block :=
  { block with orderings := [] }

/-! ## Partition key -/

def addKeyBinding (block : Block) (property : String) (value : Expr) : Block :=
  { block with keyBindings := block.keyBindings ++ [⟨value, property⟩] }

end Block

end DocumentQuery
