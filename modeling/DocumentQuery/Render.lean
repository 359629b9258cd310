import DocumentQuery.Config
import DocumentQuery.Json.Printer
import DocumentQuery.Projection.Freeze
import DocumentQuery.Text.Lines
/-!
# Query text

The text of a block: a line for what is selected, one for each source, and one
each for the predicate, the sort keys and the paging, as far as they are there.
Nested queries stand in parentheses and are indented by `width` spaces when they
take several lines.

A projection that is still pending is shown as it would be frozen. What the
positions are bound to is therefore rendered in passing, while the columns that
freezing would make are provided one after the other.
-/

namespace DocumentQuery

def propertyKey (name : String) : String :=
  "[" ++ Json.quoted name ++ "]"

/-- The text of a number with the opposite sign. A path and a parameter follow
the minus sign directly; around everything else stand parentheses, because two
minus signs would begin a comment. -/
def negated (operand : Expr) (text : String) : String :=
  match operand with
  | .parameter _ _ => "-" ++ text
  | _ => if operand.isPath then "-" ++ text else "-(" ++ text ++ ")"

def subqueryText (width : Nat) : SubqueryKind → String → String
  | .array, text => "ARRAY" ++ Text.nest width text
  | .exists, text => "EXISTS " ++ Text.nest width text
  | .scalar, text => Text.nest width text

/-- The text of a column: its expression, with an alias unless that is the name
by which the expression is known anyway. -/
def columnText (column : Column) (expression : String) : String :=
  if column.expression.accessName? = some column.aliasName then expression
  else expression ++ " AS " ++ column.aliasName

/-- The selected columns as a list of texts, the first without alias if it is
selected as the value of the row. -/
def selectText (distinct singleValue : Bool) (columns : List (Column × String)) : String :=
  let list :=
    match columns with
    | [] => "1"
    | (_, expression) :: _ =>
      if singleValue then expression
      else Text.commaSeparated (columns.map fun column => columnText column.1 column.2)
  "SELECT " ++ (if distinct then "DISTINCT " else "") ++ (if singleValue then "VALUE " else "") ++
    list

/-- The line of a source, which begins with `FROM` for the first one and with
`JOIN` for the others. -/
def sourceLines : List String → List String
  | [] => []
  | first :: rest => ("FROM " ++ first) :: rest.map ("JOIN " ++ ·)

def predicateLine : Option String → List String
  | none => []
  | some predicate => ["WHERE " ++ predicate]

def orderingLine : List String → List String
  | [] => []
  | keys => ["ORDER BY " ++ Text.commaSeparated keys]

/-- The line of the paging. A limit needs an offset before it. -/
def pagingLine (offset limit : Option String) : List String :=
  match offset, limit with
  | none, none => []
  | some offset, none => ["OFFSET " ++ offset ++ " ROWS"]
  | offset, some limit =>
    ["OFFSET " ++ offset.getD "0" ++ " ROWS FETCH NEXT " ++ limit ++ " ROWS ONLY"]

def sourceText (aliasName : String) (iterated : Bool) (payload : String) : String :=
  if iterated then aliasName ++ " IN " ++ payload else payload ++ " " ++ aliasName

def sortKeyText (ascending : Bool) (expression : String) : String :=
  if ascending then expression else expression ++ " DESC"

mutual

def Expr.render (width : Nat) : Expr → String
  | .constant value _ => value.compact
  | .parameter name _ => "@" ++ name
  | .binary operator left right _ =>
    "(" ++ left.render width ++ " " ++ operator.symbol ++ " " ++ right.render width ++ ")"
  | .unary .not operand _ => "NOT(" ++ operand.render width ++ ")"
  | .unary .negate operand _ => negated operand (operand.render width)
  | .property base name _ => base.render width ++ propertyKey name
  | .item array index _ => array.render width ++ "[" ++ index.render width ++ "]"
  | .call function arguments _ =>
    function ++ "(" ++ Text.commaSeparated (renderExprs width arguments) ++ ")"
  | .inlineArray items => "[" ++ Text.commaSeparated (renderExprs width items) ++ "]"
  | .membership item values negated =>
    item.render width ++ " " ++ (if negated then "NOT " else "") ++ "IN (" ++
      Text.commaSeparated (renderExprs width values) ++ ")"
  | .subquery kind block => subqueryText width kind (block.render width)
  | .scalarReference aliasName _ => aliasName
  | .objectReference _ aliasName => aliasName
  | .fragment text => text

def renderExprs (width : Nat) : List Expr → List String
  | [] => []
  | expression :: rest => expression.render width :: renderExprs width rest

def renderOptional (width : Nat) : Option Expr → Option String
  | none => none
  | some expression => some (expression.render width)

def Projected.render (width : Nat) : Projected → String
  | .scalar value => value.render width
  | .object _ access => access.render width

/-- The columns that freezing would add to the columns there are, with the texts
of their expressions. -/
def renderEntries (width : Nat) (columns : List Column) :
    List (Member × Projected) → List (Column × String)
  | [] => []
  | (member, projected) :: rest =>
    match columnOf? projected columns with
    | some _ => renderEntries width columns rest
    | none =>
      let column := newColumn columns projected member.lastName? defaultColumnAlias
      (column, projected.render width) :: renderEntries width (columns ++ [column]) rest

def renderColumns (width : Nat) : List Column → List (Column × String)
  | [] => []
  | ⟨projected, aliasName⟩ :: rest =>
    (⟨projected, aliasName⟩, projected.render width) :: renderColumns width rest

def Projection.render (width : Nat) : Projection → List (Column × String)
  | .pending ⟨entries⟩ => renderEntries width [] entries
  | .frozen columns _ => renderColumns width columns

def Payload.render (width : Nat) : Payload → String
  | .root _ container => container
  | .select block => Text.nest width (block.render width)
  | .collection expression => expression.render width
  | .raw _ text => "(" ++ text ++ ")"

def renderSources (width : Nat) : List Source → List String
  | [] => []
  | ⟨payload, aliasName, iterated⟩ :: rest =>
    sourceText aliasName iterated (payload.render width) :: renderSources width rest

def renderSortKeys (width : Nat) : List SortKey → List String
  | [] => []
  | ⟨expression, ascending⟩ :: rest =>
    sortKeyText ascending (expression.render width) :: renderSortKeys width rest

def Block.render (width : Nat) : Block → String
  | ⟨sources, projection, predicate, orderings, limit, offset, distinct, singleValue, _, _⟩ =>
    "\n".intercalate
      ([selectText distinct singleValue (projection.render width)] ++
        sourceLines (renderSources width sources) ++
        predicateLine (renderOptional width predicate) ++
        orderingLine (renderSortKeys width orderings) ++
        pagingLine (renderOptional width offset) (renderOptional width limit))

end

def Source.render (width : Nat) (source : Source) : String :=
  sourceText source.aliasName source.iterated (source.payload.render width)

def SortKey.render (width : Nat) (key : SortKey) : String :=
  sortKeyText key.ascending (key.expression.render width)

/-- The indentation of texts that are shown apart from any configuration. -/
def defaultWidth : Nat := Config.default.indentWidth

def Expr.text (expression : Expr) : String :=
  expression.render defaultWidth

def Projected.text (projected : Projected) : String :=
  projected.render defaultWidth

def sortKeysText (keys : List SortKey) : String :=
  Text.commaSeparated (renderSortKeys defaultWidth keys)

def columnsText (columns : List Column) : String :=
  Text.commaSeparated (columns.map fun column => column.expression.text)

def Projection.bindingLines (width : Nat) : Projection → List String
  | .pending mapping =>
    mapping.entries.map fun entry => entry.1.text ++ " -> " ++ entry.2.render width
  | .frozen _ bindings =>
    bindings.entries.map fun entry => entry.1.text ++ " -> column #" ++ toString entry.2

def Block.debugView (width : Nat) (block : Block) : String :=
  "Projection Mapping:\n" ++
    String.join ((block.projection.bindingLines width).map fun line =>
      Text.spaces width ++ line ++ "\n") ++
    block.render width

end DocumentQuery
