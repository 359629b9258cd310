import DocumentQuery.Expr
import DocumentQuery.Json.Decode
import DocumentQuery.Json.Reader
/-!
# Reading plans

The reverse of writing plans, with some freedom: fields may come in any order,
fields that are not known are passed over, a structure may be written as the
array of its fields, and of a block the fields that have their default values
may be left out. The stated types are taken over and not checked.

The number of arrays and objects that may be nested decreases on the way down,
so it bounds the recursion.
-/

namespace DocumentQuery

def ValueType.read? : Nat → Tree → Option ValueType :=
  readName? ValueType.all ValueType.name

def Step.read? : Nat → Tree → Option Step
  | _ + 1, .object [(some "Field", content)] => content.string?.map .field
  | _ + 1, .object [(some "Index", content)] => content.natural?.map .index
  | _, _ => none

def Member.read? : Nat → Tree → Option Member
  | depth + 1, .array steps => (readAll? (Step.read? depth) steps).map .mk
  | _, _ => none

def readPair? {α : Type} (read : Nat → Tree → Option α) : Nat → Tree → Option (Member × α)
  | depth + 1, .array [member, value] =>
    match Member.read? depth member, read depth value with
    | some member, some value => some (member, value)
    | _, _ => none
  | _, _ => none

/-- Reads a table of what belongs to positions, with all its entries. -/
def readMapping? {α : Type} (read : Nat → Tree → Option α) : Nat → Tree → Option (Mapping α)
  | depth + 1, .array entries => (readAll? (readPair? read depth) entries).map .mk
  | _, _ => none

def readProperty? : Nat → Tree → Option String
  | _ + 1, tree =>
    match readRecord? ["name"] tree with
    | some [name] => name.string?
    | _ => none
  | 0, _ => none

def readKey? : Nat → Tree → Option (String × String)
  | depth + 1, .array [property, parameter] =>
    match readProperty? depth property, parameter.string? with
    | some property, some parameter => some (property, parameter)
    | _, _ => none
  | _, _ => none

def readKeys? : Nat → Tree → Option (List (String × String))
  | depth + 1, .array keys => readAll? (readKey? depth) keys
  | _, _ => none

def PointRead.read? : Nat → Tree → Option PointRead
  | depth + 1, tree =>
    match readRecord? ["entity_type", "property_parameters"] tree with
    | some [entityType, keys] =>
      match entityType.string?, readKeys? depth keys with
      | some entityType, some keys => some ⟨entityType, keys⟩
      | _, _ => none
    | _ => none
  | 0, _ => none

def readTexts? (first second : String) : Nat → Tree → Option (String × String)
  | _ + 1, tree =>
    match readRecord? [first, second] tree with
    | some [a, b] =>
      match a.string?, b.string? with
      | some a, some b => some (a, b)
      | _, _ => none
    | _ => none
  | 0, _ => none

section Reading

/-! `inText` says whether the plan is a text. In a text the parts of a frozen
projection may also stand in an array, as the fields of a structure may
everywhere. -/

variable (inText : Bool)

mutual

def Expr.read? : Nat → Tree → Option Expr
  | depth + 1, tree =>
    match readVariant? Expr.Form.all Expr.Form.name tree with
    | some (form, content) => Expr.readContent? form depth content
    | none => none
  | 0, _ => none

/-- Reads an expression whose form is known. -/
def Expr.readContent? (form : Expr.Form) : Nat → Tree → Option Expr
  | depth + 1, content =>
    match form with
    | .fragment => content.string?.map .fragment
    | .inlineArray =>
      match content with
      | .array items => (readAll? (Expr.read? depth) items).map .inlineArray
      | _ => none
    | .constant =>
      match readRecord? ["value", "ty"] content with
      | some [value, type] => do
        return .constant (← value.toJson? depth) (← ValueType.read? depth type)
      | _ => none
    | .parameter =>
      match readRecord? ["name", "ty"] content with
      | some [name, type] => do return .parameter (← name.string?) (← ValueType.read? depth type)
      | _ => none
    | .binary =>
      match readRecord? ["operator", "left", "right", "ty"] content with
      | some [operator, left, right, type] => do
        return .binary (← readName? Operator.all Operator.name depth operator)
          (← Expr.read? depth left) (← Expr.read? depth right) (← ValueType.read? depth type)
      | _ => none
    | .unary =>
      match readRecord? ["operator", "operand", "ty"] content with
      | some [operator, operand, type] => do
        return .unary (← readName? UnaryOperator.all UnaryOperator.name depth operator)
          (← Expr.read? depth operand) (← ValueType.read? depth type)
      | _ => none
    | .property =>
      match readRecord? ["base", "name", "ty"] content with
      | some [base, name, type] => do
        return .property (← Expr.read? depth base) (← name.string?) (← ValueType.read? depth type)
      | _ => none
    | .item =>
      match readRecord? ["array", "index", "ty"] content with
      | some [array, index, type] => do
        return .item (← Expr.read? depth array) (← Expr.read? depth index)
          (← ValueType.read? depth type)
      | _ => none
    | .call =>
      match readRecord? ["name", "args", "ty"] content with
      | some [name, arguments, type] => do
        return .call (← name.string?) (← readExprs? depth arguments) (← ValueType.read? depth type)
      | _ => none
    | .membership =>
      match readRecord? ["item", "values", "negated"] content with
      | some [item, values, negated] => do
        return .membership (← Expr.read? depth item) (← readExprs? depth values) (← negated.bool?)
      | _ => none
    | .subquery =>
      match readRecord? ["kind", "select"] content with
      | some [kind, block] => do
        return .subquery (← readName? SubqueryKind.all SubqueryKind.name depth kind)
          (← Block.read? depth block)
      | _ => none
    | .scalarReference =>
      match readRecord? ["alias", "ty"] content with
      | some [aliasName, type] => do
        return .scalarReference (← aliasName.string?) (← ValueType.read? depth type)
      | _ => none
    | .objectReference =>
      match readRecord? ["entity_type", "alias"] content with
      | some [entityType, aliasName] => do
        return .objectReference (← entityType.string?) (← aliasName.string?)
      | _ => none
  | 0, content =>
    match form with
    | .fragment => content.string?.map .fragment
    | _ => none

def readExprs? : Nat → Tree → Option (List Expr)
  | depth + 1, .array items => readAll? (Expr.read? depth) items
  | _, _ => none

def Projected.read? : Nat → Tree → Option Projected
  | depth + 1, tree =>
    match readVariant? Projected.Form.all Projected.Form.name tree with
    | some (.scalar, content) => (Expr.read? depth content).map .scalar
    | some (.object, content) => readObject? depth content
    | none => none
  | 0, _ => none

def readObject? : Nat → Tree → Option Projected
  | depth + 1, tree =>
    match readRecord? ["entity_type", "access"] tree with
    | some [entityType, access] => do
      return .object (← entityType.string?) (← Expr.read? depth access)
    | _ => none
  | 0, _ => none

def readBinding? : Nat → Tree → Option (Member × Projected)
  | depth + 1, .array [member, projected] => do
    return (← Member.read? depth member, ← Projected.read? depth projected)
  | _, _ => none

def Column.read? : Nat → Tree → Option Column
  | depth + 1, tree =>
    match readRecord? ["expression", "alias"] tree with
    | some [expression, aliasName] => do
      return ⟨← Projected.read? depth expression, ← aliasName.string?⟩
    | _ => none
  | 0, _ => none

def readColumns? : Nat → Tree → Option (List Column)
  | depth + 1, .array columns => readAll? (Column.read? depth) columns
  | _, _ => none

def readPending? : Nat → Tree → Option Projection
  | depth + 1, .array entries =>
    (readAll? (readBinding? depth) entries).map fun entries => .pending ⟨entries⟩
  | _, _ => none

/-- Reads the columns and bindings of a frozen projection, which are an object
unless the plan is a text. -/
def readFrozen? : Nat → Tree → Option Projection
  | depth + 1, tree =>
    match inText || tree.isObject, readRecord? ["columns", "bindings"] tree with
    | true, some [columns, bindings] => do
      return .frozen (← readColumns? depth columns)
        (← readMapping? (fun _ => Tree.natural?) depth bindings)
    | _, _ => none
  | 0, _ => none

def Projection.read? : Nat → Tree → Option Projection
  | depth + 1, .object [(some "Pending", content)] => readPending? depth content
  | depth + 1, .object [(some "Frozen", content)] => readFrozen? depth content
  | _, _ => none

def Payload.read? : Nat → Tree → Option Payload
  | depth + 1, tree =>
    match readVariant? Payload.Form.all Payload.Form.name tree with
    | some (.root, content) =>
      (readTexts? "entity_type" "alias" depth content).map fun texts => .root texts.1 texts.2
    | some (.select, content) => (Block.read? depth content).map .select
    | some (.collection, content) => (Expr.read? depth content).map .collection
    | some (.raw, content) =>
      (readTexts? "entity_type" "sql" depth content).map fun texts => .raw texts.1 texts.2
    | none => none
  | 0, _ => none

def Source.read? : Nat → Tree → Option Source
  | depth + 1, tree =>
    match readRecord? ["payload", "alias", "with_in"] tree with
    | some [payload, aliasName, iterated] => do
      return ⟨← Payload.read? depth payload, ← aliasName.string?, ← iterated.bool?⟩
    | _ => none
  | 0, _ => none

def readSources? : Nat → Tree → Option (List Source)
  | depth + 1, .array sources => readAll? (Source.read? depth) sources
  | _, _ => none

def SortKey.read? : Nat → Tree → Option SortKey
  | depth + 1, tree =>
    match readRecord? ["expression", "ascending"] tree with
    | some [expression, ascending] => do
      return ⟨← Expr.read? depth expression, ← ascending.bool?⟩
    | _ => none
  | 0, _ => none

def readSortKeys? : Nat → Tree → Option (List SortKey)
  | depth + 1, .array keys => readAll? (SortKey.read? depth) keys
  | _, _ => none

def KeyBinding.read? : Nat → Tree → Option KeyBinding
  | depth + 1, tree =>
    match readRecord? ["value", "property"] tree with
    | some [value, property] => do
      return ⟨← Expr.read? depth value, ← readProperty? depth property⟩
    | _ => none
  | 0, _ => none

def readKeyBindings? : Nat → Tree → Option (List KeyBinding)
  | depth + 1, .array bindings => readAll? (KeyBinding.read? depth) bindings
  | _, _ => none

def Block.read? : Nat → Tree → Option Block
  | depth + 1, tree =>
    match readSparse? ["sources", "projection", "predicate", "orderings", "limit", "offset",
        "distinct", "single_value_projection", "partition_key_bindings", "read_item"] tree with
    | some [sources, projection, predicate, orderings, limit, offset, distinct, singleValue,
        keyBindings, pointRead] => do
      return {
        sources := ← readOr? [] (readSources? depth) sources
        projection := ← readOr? .empty (Projection.read? depth) projection
        predicate := ← readOptional? (Expr.read? depth) predicate
        orderings := ← readOr? [] (readSortKeys? depth) orderings
        limit := ← readOptional? (Expr.read? depth) limit
        offset := ← readOptional? (Expr.read? depth) offset
        distinct := ← readOr? false Tree.bool? distinct
        singleValue := ← readOr? false Tree.bool? singleValue
        keyBindings := ← readOr? [] (readKeyBindings? depth) keyBindings
        pointRead := ← readOptional? (PointRead.read? depth) pointRead }
    | _ => none
  | 0, _ => none

end

end Reading

/-- Reads a plan from its JSON form, whatever its depth. -/
def Block.ofJson? (json : Json) : Option Block :=
  let tree := Tree.ofJson json
  Block.read? false tree.depth tree

def Block.ofText? (text : String) : Option Block :=
  (Tree.ofText? text).bind (Block.read? true Json.nestingLimit)

end DocumentQuery
