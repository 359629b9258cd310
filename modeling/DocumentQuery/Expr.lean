import DocumentQuery.Block
/-!
# Expressions

The forms of expressions and of what holds them, the type of an expression, the
name that it is known by without an alias, and the constructors that settle the
type of a node from its operands.
-/

namespace DocumentQuery

namespace Expr

inductive Form where
  | constant
  | parameter
  | binary
  | unary
  | property
  | item
  | call
  | inlineArray
  | membership
  | subquery
  | scalarReference
  | objectReference
  | fragment
deriving DecidableEq

def Form.all : List Form :=
  [.constant, .parameter, .binary, .unary, .property, .item, .call, .inlineArray, .membership,
    .subquery, .scalarReference, .objectReference, .fragment]

/-- The name of a form of expression in stored plans. -/
def Form.name : Form → String
  | .constant => "Constant"
  | .parameter => "Parameter"
  | .binary => "Binary"
  | .unary => "Unary"
  | .property => "PropertyAccess"
  | .item => "ArrayIndex"
  | .call => "FunctionCall"
  | .inlineArray => "InlineArray"
  | .membership => "In"
  | .subquery => "Subquery"
  | .scalarReference => "ScalarReference"
  | .objectReference => "ObjectReference"
  | .fragment => "Fragment"

def form : Expr → Form
  | .constant _ _ => .constant
  | .parameter _ _ => .parameter
  | .binary _ _ _ _ => .binary
  | .unary _ _ _ => .unary
  | .property _ _ _ => .property
  | .item _ _ _ => .item
  | .call _ _ _ => .call
  | .inlineArray _ => .inlineArray
  | .membership _ _ _ => .membership
  | .subquery _ _ => .subquery
  | .scalarReference _ _ => .scalarReference
  | .objectReference _ _ => .objectReference
  | .fragment _ => .fragment

def valueType : Expr → ValueType
  | .constant _ type => type
  | .parameter _ type => type
  | .binary _ _ _ type => type
  | .unary _ _ type => type
  | .property _ _ type => type
  | .item _ _ type => type
  | .call _ _ type => type
  | .inlineArray _ => .array
  | .membership _ _ _ => .boolean
  | .subquery .array _ => .array
  | .subquery .exists _ => .boolean
  | .subquery .scalar _ => .unknown
  | .scalarReference _ type => type
  | .objectReference _ _ => .object
  | .fragment _ => .unknown

/-- The name that an expression is known by when it has no alias: that of the
property it reads, or the alias it refers to. -/
def accessName? : Expr → Option String
  | .property _ name _ => some name
  | .scalarReference aliasName _ => some aliasName
  | .objectReference _ aliasName => some aliasName
  | _ => none

def ofJson (value : Json) : Expr :=
  .constant value value.valueType

/-- The type that an operator gives: boolean for logical operators and
comparisons, string for concatenation, and that of the left operand for the
others. -/
def resultType (operator : Operator) (left : Expr) : ValueType :=
  if operator.isBoolean then .boolean
  else if operator = .concat then .string
  else left.valueType

def apply (operator : Operator) (left right : Expr) : Expr :=
  .binary operator left right (resultType operator left)

def both (left right : Expr) : Expr :=
  apply .and left right

def not (operand : Expr) : Expr :=
  .unary .not operand .boolean

def negate (operand : Expr) : Expr :=
  .unary .negate operand operand.valueType

/-- Whether an expression is the constant `true`, of whatever type it is said
to be. -/
def isTrue : Expr → Bool
  | .constant (.bool true) _ => true
  | _ => false

/-- Whether an expression is a reference, or reached from one by properties and
items alone. The query language iterates over nothing else directly. -/
def isPath : Expr → Bool
  | .objectReference _ _ => true
  | .scalarReference _ _ => true
  | .property base _ _ => base.isPath
  | .item array _ _ => array.isPath
  | _ => false

end Expr

namespace Projected

inductive Form where
  | scalar
  | object
deriving DecidableEq

def Form.all : List Form := [.scalar, .object]

def Form.name : Form → String
  | .scalar => "Scalar"
  | .object => "Object"

def expression : Projected → Expr
  | .scalar value => value
  | .object _ access => access

def valueType : Projected → ValueType
  | .scalar value => value.valueType
  | .object _ _ => .object

def accessName? (projected : Projected) : Option String :=
  projected.expression.accessName?

end Projected

namespace Payload

inductive Form where
  | root
  | select
  | collection
  | raw
deriving DecidableEq

def Form.all : List Form := [.root, .select, .collection, .raw]

def Form.name : Form → String
  | .root => "Root"
  | .select => "Select"
  | .collection => "Collection"
  | .raw => "Raw"

def form : Payload → Form
  | .root _ _ => .root
  | .select _ => .select
  | .collection _ => .collection
  | .raw _ _ => .raw

end Payload

end DocumentQuery
