import DocumentQuery.Json.Value
import DocumentQuery.OrderedMap
/-!
# Syntax trees of JSON texts

A text that follows the grammar of JSON need not have a value: a number can be
out of range, and a string can hold half of a surrogate pair. A syntax tree
keeps such parts as `none`, and it keeps the fields of objects as they are
written, with repetitions. Whether that matters depends on the reader: a part
that is not asked for may well be without value.

`toJson?` takes the value of a tree whose arrays and objects are nested no
deeper than allowed. Of the fields of one name the first gives the place and the
last gives the value.
-/

namespace DocumentQuery

/-- What a JSON text says, before values are taken. -/
inductive Tree where
  | null
  | bool (value : Bool)
  | number (value : Option Number)
  | string (value : Option String)
  | array (items : List Tree)
  | object (fields : List (Option String × Tree))

namespace Tree

mutual

def depth : Tree → Nat
  | .array items => depthOfItems items + 1
  | .object fields => depthOfFields fields + 1
  | _ => 0

def depthOfItems : List Tree → Nat
  | [] => 0
  | item :: rest => max item.depth (depthOfItems rest)

def depthOfFields : List (Option String × Tree) → Nat
  | [] => 0
  | (_, value) :: rest => max value.depth (depthOfFields rest)

end

/-- Merges fields of one name: the first gives the place, the last the value. -/
def mergeFields (fields : List (String × Json)) : List (String × Json) :=
  (OrderedMap.ofList fields).entries

mutual

/-- The value of a tree in which at most `limit` arrays and objects are nested. -/
def toJson? (limit : Nat) : Tree → Option Json
  | .null => some .null
  | .bool b => some (.bool b)
  | .number n => n.map .number
  | .string s => s.map .string
  | .array items =>
    match limit with
    | 0 => none
    | limit + 1 => (itemsToJson? limit items).map .array
  | .object fields =>
    match limit with
    | 0 => none
    | limit + 1 => (fieldsToJson? limit fields).map fun fields => .object (mergeFields fields)

def itemsToJson? (limit : Nat) : List Tree → Option (List Json)
  | [] => some []
  | item :: rest =>
    match item.toJson? limit, itemsToJson? limit rest with
    | some value, some values => some (value :: values)
    | _, _ => none

def fieldsToJson? (limit : Nat) : List (Option String × Tree) → Option (List (String × Json))
  | [] => some []
  | (name, item) :: rest =>
    match name, item.toJson? limit, fieldsToJson? limit rest with
    | some name, some value, some fields => some ((name, value) :: fields)
    | _, _, _ => none

end

mutual

def ofJson : Json → Tree
  | .null => .null
  | .bool b => .bool b
  | .number n => .number (some n)
  | .string s => .string (some s)
  | .array items => .array (ofItems items)
  | .object fields => .object (ofFields fields)

def ofItems : List Json → List Tree
  | [] => []
  | item :: rest => ofJson item :: ofItems rest

def ofFields : List (String × Json) → List (Option String × Tree)
  | [] => []
  | (name, value) :: rest => (some name, ofJson value) :: ofFields rest

end

end Tree

end DocumentQuery
