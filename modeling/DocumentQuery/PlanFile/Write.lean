import DocumentQuery.Expr
/-!
# Writing plans

The JSON form of blocks and their parts. A structure is an object with its
fields in a fixed order. A choice is an object whose only field names the case,
or the name alone where the case has no content.
-/

namespace DocumentQuery

/-- An object with a single field, which names a case. -/
def Json.variant (name : String) (content : Json) : Json :=
  .object [(name, content)]

/-- The value of an optional part; null if it is absent. -/
def Json.optional : Option Json → Json
  | none => .null
  | some value => value

def Json.ofNat (n : Nat) : Json :=
  .number (.integer n)

def ValueType.toJson (type : ValueType) : Json :=
  .string type.name

def Step.toJson : Step → Json
  | .field name => .variant "Field" (.string name)
  | .index place => .variant "Index" (.ofNat place)

def Member.toJson (member : Member) : Json :=
  .array (member.steps.map Step.toJson)

/-- The JSON form of a table of column numbers. -/
def bindingsToJson (bindings : Mapping Nat) : Json :=
  .array (bindings.entries.map fun entry => .array [entry.1.toJson, .ofNat entry.2])

def propertyToJson (name : String) : Json :=
  .object [("name", .string name)]

def PointRead.toJson (pointRead : PointRead) : Json :=
  .object [("entity_type", .string pointRead.entityType),
    ("property_parameters",
      .array (pointRead.keys.map fun key => .array [propertyToJson key.1, .string key.2]))]

def Expr.Form.variant (form : Expr.Form) (fields : List (String × Json)) : Json :=
  .variant form.name (.object fields)

mutual

def Expr.toJson : Expr → Json
  | .constant value type => Expr.Form.constant.variant [("value", value), ("ty", type.toJson)]
  | .parameter name type =>
    Expr.Form.parameter.variant [("name", .string name), ("ty", type.toJson)]
  | .binary operator left right type =>
    Expr.Form.binary.variant [("operator", .string operator.name), ("left", left.toJson),
      ("right", right.toJson), ("ty", type.toJson)]
  | .unary operator operand type =>
    Expr.Form.unary.variant [("operator", .string operator.name), ("operand", operand.toJson),
      ("ty", type.toJson)]
  | .property base name type =>
    Expr.Form.property.variant [("base", base.toJson), ("name", .string name), ("ty", type.toJson)]
  | .item array index type =>
    Expr.Form.item.variant [("array", array.toJson), ("index", index.toJson), ("ty", type.toJson)]
  | .call function arguments type =>
    Expr.Form.call.variant [("name", .string function), ("args", .array (exprsToJson arguments)),
      ("ty", type.toJson)]
  | .inlineArray items => .variant Expr.Form.inlineArray.name (.array (exprsToJson items))
  | .membership item values negated =>
    Expr.Form.membership.variant [("item", item.toJson), ("values", .array (exprsToJson values)),
      ("negated", .bool negated)]
  | .subquery kind block =>
    Expr.Form.subquery.variant [("kind", .string kind.name), ("select", block.toJson)]
  | .scalarReference aliasName type =>
    Expr.Form.scalarReference.variant [("alias", .string aliasName), ("ty", type.toJson)]
  | .objectReference entityType aliasName =>
    Expr.Form.objectReference.variant [("entity_type", .string entityType),
      ("alias", .string aliasName)]
  | .fragment text => .variant Expr.Form.fragment.name (.string text)

def exprsToJson : List Expr → List Json
  | [] => []
  | expression :: rest => expression.toJson :: exprsToJson rest

def optionalToJson : Option Expr → Json
  | none => .null
  | some expression => expression.toJson

def Projected.toJson : Projected → Json
  | .scalar value => .variant Projected.Form.scalar.name value.toJson
  | .object entityType access =>
    .variant Projected.Form.object.name
      (.object [("entity_type", .string entityType), ("access", access.toJson)])

def entriesToJson : List (Member × Projected) → List Json
  | [] => []
  | (member, projected) :: rest =>
    .array [member.toJson, projected.toJson] :: entriesToJson rest

def columnsToJson : List Column → List Json
  | [] => []
  | ⟨projected, aliasName⟩ :: rest =>
    .object [("expression", projected.toJson), ("alias", .string aliasName)] :: columnsToJson rest

def Projection.toJson : Projection → Json
  | .pending ⟨entries⟩ => .variant "Pending" (.array (entriesToJson entries))
  | .frozen columns bindings =>
    .variant "Frozen"
      (.object [("columns", .array (columnsToJson columns)), ("bindings", bindingsToJson bindings)])

def Payload.toJson : Payload → Json
  | .root entityType container =>
    .variant Payload.Form.root.name
      (.object [("entity_type", .string entityType), ("alias", .string container)])
  | .select block => .variant Payload.Form.select.name block.toJson
  | .collection expression => .variant Payload.Form.collection.name expression.toJson
  | .raw entityType text =>
    .variant Payload.Form.raw.name
      (.object [("entity_type", .string entityType), ("sql", .string text)])

def sourcesToJson : List Source → List Json
  | [] => []
  | ⟨payload, aliasName, iterated⟩ :: rest =>
    .object [("payload", payload.toJson), ("alias", .string aliasName),
        ("with_in", .bool iterated)] ::
      sourcesToJson rest

def sortKeysToJson : List SortKey → List Json
  | [] => []
  | ⟨expression, ascending⟩ :: rest =>
    .object [("expression", expression.toJson), ("ascending", .bool ascending)] ::
      sortKeysToJson rest

def keyBindingsToJson : List KeyBinding → List Json
  | [] => []
  | ⟨value, property⟩ :: rest =>
    .object [("value", value.toJson), ("property", propertyToJson property)] ::
      keyBindingsToJson rest

def Block.toJson : Block → Json
  | ⟨sources, projection, predicate, orderings, limit, offset, distinct, singleValue, keyBindings,
      pointRead⟩ =>
    .object [("sources", .array (sourcesToJson sources)), ("projection", projection.toJson),
      ("predicate", optionalToJson predicate), ("orderings", .array (sortKeysToJson orderings)),
      ("limit", optionalToJson limit), ("offset", optionalToJson offset),
      ("distinct", .bool distinct), ("single_value_projection", .bool singleValue),
      ("partition_key_bindings", .array (keyBindingsToJson keyBindings)),
      ("read_item", .optional (pointRead.map PointRead.toJson))]

end

def Source.toJson (source : Source) : Json :=
  .object [("payload", source.payload.toJson), ("alias", .string source.aliasName),
    ("with_in", .bool source.iterated)]

end DocumentQuery
