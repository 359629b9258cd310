import DocumentQuery.Decimal.Binary
/-!
# JSON values

The values that constants and parameters hold. A number is either a whole
number or a floating point number, and the two are never equal. The fields of
an object keep the order in which they were written.
-/

namespace DocumentQuery

inductive Number where
  | integer (value : Int)
  | float (value : Binary64)
deriving DecidableEq

inductive Json where
  | null
  | bool (value : Bool)
  | number (value : Number)
  | string (value : String)
  | array (items : List Json)
  | object (fields : List (String × Json))

instance : Inhabited Json := ⟨.null⟩

/-- The type of the value that an expression produces; `unknown` if it is not
known before the query runs. -/
inductive ValueType where
  | boolean
  | number
  | string
  | array
  | object
  | null
  | unknown
deriving DecidableEq

def ValueType.all : List ValueType :=
  [.boolean, .number, .string, .array, .object, .null, .unknown]

def ValueType.name : ValueType → String
  | .boolean => "Boolean"
  | .number => "Number"
  | .string => "String"
  | .array => "Array"
  | .object => "Object"
  | .null => "Null"
  | .unknown => "Unknown"

def Json.valueType : Json → ValueType
  | .null => .null
  | .bool _ => .boolean
  | .number _ => .number
  | .string _ => .string
  | .array _ => .array
  | .object _ => .object

end DocumentQuery
