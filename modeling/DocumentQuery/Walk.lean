import DocumentQuery.Expr
/-!
# Walking a query

The nodes of a query in the order in which its text is composed: the projection,
then the sources, the predicate, the sort keys, the offset and the limit. Each
node of interest is handed over with all that it holds, before what is inside it
(`Report`). The parameters that a query needs are read off the reports. A log of a
walk shows the kinds and names of the nodes alone (`Event`).
-/

namespace DocumentQuery

/-- A node that is met on a walk. -/
inductive Report where
  | property (base : Expr) (name : String) (type : ValueType)
  | parameter (name : String) (type : ValueType)
  | function (name : String) (arguments : List Expr) (type : ValueType)
  | subquery (kind : SubqueryKind) (block : Block)
  | reference (aliasName : String)
  /-- A constant or query text that is taken over as it stands. -/
  | leaf (expression : Expr)

mutual

def Expr.reports : Expr → List Report
  | .constant value type => [.leaf (.constant value type)]
  | .parameter name type => [.parameter name type]
  | .binary _ left right _ => left.reports ++ right.reports
  | .unary _ operand _ => operand.reports
  | .property base name type => .property base name type :: base.reports
  | .item array index _ => array.reports ++ index.reports
  | .call function arguments type =>
    .function function arguments type :: reportsOfExprs arguments
  | .inlineArray items => reportsOfExprs items
  | .membership item values _ => item.reports ++ reportsOfExprs values
  | .subquery kind block => .subquery kind block :: block.reports
  | .scalarReference aliasName _ => [.reference aliasName]
  | .objectReference _ aliasName => [.reference aliasName]
  | .fragment text => [.leaf (.fragment text)]

def reportsOfExprs : List Expr → List Report
  | [] => []
  | expression :: rest => expression.reports ++ reportsOfExprs rest

def reportsOfOptional : Option Expr → List Report
  | none => []
  | some expression => expression.reports

def Projected.reports : Projected → List Report
  | .scalar value => value.reports
  | .object _ access => access.reports

def reportsOfEntries : List (Member × Projected) → List Report
  | [] => []
  | (_, projected) :: rest => projected.reports ++ reportsOfEntries rest

def reportsOfColumns : List Column → List Report
  | [] => []
  | ⟨projected, _⟩ :: rest => projected.reports ++ reportsOfColumns rest

def Projection.reports : Projection → List Report
  | .pending ⟨entries⟩ => reportsOfEntries entries
  | .frozen columns _ => reportsOfColumns columns

def Payload.reports : Payload → List Report
  | .root _ _ => []
  | .select block => block.reports
  | .collection expression => expression.reports
  | .raw _ _ => []

def reportsOfSources : List Source → List Report
  | [] => []
  | ⟨payload, _, _⟩ :: rest => payload.reports ++ reportsOfSources rest

def reportsOfSortKeys : List SortKey → List Report
  | [] => []
  | ⟨expression, _⟩ :: rest => expression.reports ++ reportsOfSortKeys rest

def Block.reports : Block → List Report
  | ⟨sources, projection, predicate, orderings, limit, offset, _, _, _, _⟩ =>
    projection.reports ++ reportsOfSources sources ++ reportsOfOptional predicate ++
      reportsOfSortKeys orderings ++ reportsOfOptional offset ++ reportsOfOptional limit

end

/-! ## Parameters -/

def Report.parameterName? : Report → Option String
  | .parameter name _ => some name
  | _ => none

def reportedNames (reports : List Report) : List String :=
  reports.filterMap Report.parameterName?

/-- The names of a list in order of first occurrence, after those in `seen`. -/
def distinctAfter (seen : List String) : List String → List String
  | [] => []
  | name :: rest =>
    if name ∈ seen then distinctAfter seen rest else name :: distinctAfter (name :: seen) rest

def parameterNames (reports : List Report) : List String :=
  distinctAfter [] (reportedNames reports)

def Expr.parameterNames (expression : Expr) : List String :=
  DocumentQuery.parameterNames expression.reports

def Block.parameterNames (block : Block) : List String :=
  DocumentQuery.parameterNames block.reports

/-! ## Logs -/

/-- What a log shows of a report. -/
inductive Event where
  | property (name : String)
  | parameter (name : String)
  | function (name : String) (arguments : Nat)
  | subquery (kind : SubqueryKind)
  | reference (aliasName : String)
  | constant
  | fragment
deriving DecidableEq

def Report.event : Report → Event
  | .property _ name _ => .property name
  | .parameter name _ => .parameter name
  | .function name arguments _ => .function name arguments.length
  | .subquery kind _ => .subquery kind
  | .reference aliasName => .reference aliasName
  | .leaf (.constant _ _) => .constant
  | .leaf _ => .fragment

def Expr.walk (expression : Expr) : List Event :=
  expression.reports.map Report.event

def Block.walk (block : Block) : List Event :=
  block.reports.map Report.event

end DocumentQuery
