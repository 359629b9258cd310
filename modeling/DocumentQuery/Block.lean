import DocumentQuery.Json.Value
import DocumentQuery.Member
import DocumentQuery.Operator
/-!
# Query blocks

A `Block` is one `SELECT` of the query language: the sources that rows come
from, the projection that makes columns of them, a predicate, sort keys and
paging. Its parts are expressions, an expression may hold a block as a nested
query, and so may a source; the types are therefore defined together.

A projection begins as a table of what the positions of the result shape are
bound to (`pending`) and is frozen into a list of columns with a table of column
numbers (`frozen`).
-/

namespace DocumentQuery

/-- A document that is read directly by its key instead of by running a query:
the key properties with the parameters that hold their values. -/
structure PointRead where
  entityType : String
  keys : List (String × String)
deriving DecidableEq

mutual

inductive Expr where
  | constant (value : Json) (type : ValueType)
  | parameter (name : String) (type : ValueType)
  | binary (operator : Operator) (left right : Expr) (type : ValueType)
  | unary (operator : UnaryOperator) (operand : Expr) (type : ValueType)
  | property (base : Expr) (name : String) (type : ValueType)
  | item (array index : Expr) (type : ValueType)
  | call (function : String) (arguments : List Expr) (type : ValueType)
  | inlineArray (items : List Expr)
  | membership (item : Expr) (values : List Expr) (negated : Bool)
  | subquery (kind : SubqueryKind) (block : Block)
  /-- The value that a source binds its alias to. -/
  | scalarReference (aliasName : String) (type : ValueType)
  /-- The document that a source binds its alias to. -/
  | objectReference (entityType aliasName : String)
  /-- Query text that is taken over as it stands. -/
  | fragment (text : String)

/-- What a column shows: a value, or a whole document of some entity type. -/
inductive Projected where
  | scalar (value : Expr)
  | object (entityType : String) (access : Expr)

structure Column where
  expression : Projected
  aliasName : String

inductive Projection where
  /-- The expressions that shape positions are bound to. -/
  | pending (mapping : OrderedMap Member Projected)
  /-- The columns, and the numbers of those that shape positions are bound to. -/
  | frozen (columns : List Column) (bindings : OrderedMap Member Nat)

inductive Payload where
  | root (entityType container : String)
  | select (block : Block)
  | collection (expression : Expr)
  | raw (entityType text : String)

/-- A source of rows. An iterated source binds its alias to the items of what
its payload gives, any other to the rows. -/
structure Source where
  payload : Payload
  aliasName : String
  iterated : Bool

structure SortKey where
  expression : Expr
  ascending : Bool

structure KeyBinding where
  value : Expr
  property : String

structure Block where
  sources : List Source
  projection : Projection
  predicate : Option Expr
  orderings : List SortKey
  limit : Option Expr
  offset : Option Expr
  distinct : Bool
  singleValue : Bool
  keyBindings : List KeyBinding
  pointRead : Option PointRead

end

instance : Inhabited Expr := ⟨.fragment ""⟩

namespace Projection

def empty : Projection := .pending .empty

def isFrozen : Projection → Bool
  | .pending _ => false
  | .frozen _ _ => true

def columns : Projection → List Column
  | .pending _ => []
  | .frozen columns _ => columns

end Projection

def Block.empty : Block where
  sources := []
  projection := .empty
  predicate := none
  orderings := []
  limit := none
  offset := none
  distinct := false
  singleValue := false
  keyBindings := []
  pointRead := none

end DocumentQuery
