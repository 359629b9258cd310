/-!
# Operators

The operators of the query language with their symbols. Logical and comparison
operators always give a boolean; the others take their type from an operand.
-/

namespace DocumentQuery

inductive Operator where
  | and
  | or
  | equal
  | notEqual
  | lessThan
  | lessThanEqual
  | greaterThan
  | greaterThanEqual
  | addition
  | subtraction
  | multiplication
  | division
  | modulo
  | concat
  | coalesce
deriving DecidableEq

namespace Operator

def all : List Operator :=
  [.and, .or, .equal, .notEqual, .lessThan, .lessThanEqual, .greaterThan, .greaterThanEqual,
    .addition, .subtraction, .multiplication, .division, .modulo, .concat, .coalesce]

/-- The name of an operator in stored plans. -/
def name : Operator → String
  | .and => "And"
  | .or => "Or"
  | .equal => "Equal"
  | .notEqual => "NotEqual"
  | .lessThan => "LessThan"
  | .lessThanEqual => "LessThanEqual"
  | .greaterThan => "GreaterThan"
  | .greaterThanEqual => "GreaterThanEqual"
  | .addition => "Addition"
  | .subtraction => "Subtraction"
  | .multiplication => "Multiplication"
  | .division => "Division"
  | .modulo => "Modulo"
  | .concat => "Concat"
  | .coalesce => "Coalesce"

def symbol : Operator → String
  | .and => "AND"
  | .or => "OR"
  | .equal => "="
  | .notEqual => "!="
  | .lessThan => "<"
  | .lessThanEqual => "<="
  | .greaterThan => ">"
  | .greaterThanEqual => ">="
  | .addition => "+"
  | .subtraction => "-"
  | .multiplication => "*"
  | .division => "/"
  | .modulo => "%"
  | .concat => "||"
  | .coalesce => "??"

def isBoolean : Operator → Bool
  | .and | .or | .equal | .notEqual | .lessThan | .lessThanEqual | .greaterThan
  | .greaterThanEqual => true
  | _ => false

theorem mem_all (operator : Operator) : operator ∈ all := by
  cases operator <;> simp [all]

end Operator

inductive UnaryOperator where
  | not
  | negate
deriving DecidableEq

def UnaryOperator.all : List UnaryOperator := [.not, .negate]

def UnaryOperator.name : UnaryOperator → String
  | .not => "Not"
  | .negate => "Negate"

/-- What a nested query is used as: an array of its rows, the question whether
it has any, or its single value. -/
inductive SubqueryKind where
  | array
  | exists
  | scalar
deriving DecidableEq

def SubqueryKind.all : List SubqueryKind := [.array, .exists, .scalar]

def SubqueryKind.name : SubqueryKind → String
  | .array => "Array"
  | .exists => "Exists"
  | .scalar => "Scalar"

end DocumentQuery
