import DocumentQuery.Json.Tree
/-!
# Taking syntax trees apart

Stored data is made of a few forms. A record is an object whose fields have
fixed names, or an array of the values of these fields in order; a variant is an
object with a single field that names it, and a variant without content can also
be the name alone. Fields of other names are passed over without a look at what
they hold.

A function that goes into an array or object is called with the number of levels
that may still be entered.
-/

namespace DocumentQuery

namespace Tree

def string? : Tree → Option String
  | .string value => value
  | _ => none

def bool? : Tree → Option Bool
  | .bool value => some value
  | _ => none

def integer? : Tree → Option Int
  | .number (some (.integer value)) => some value
  | _ => none

def natural? : Tree → Option Nat
  | .number (some (.integer (.ofNat value))) => some value
  | _ => none

def isObject : Tree → Bool
  | .object _ => true
  | _ => false

end Tree

def readAll? {α : Type} (read : Tree → Option α) : List Tree → Option (List α)
  | [] => some []
  | tree :: rest =>
    match read tree, readAll? read rest with
    | some value, some values => some (value :: values)
    | _, _ => none

/-- Reads something that may be absent or null. -/
def readOptional? {α : Type} (read : Tree → Option α) : Option Tree → Option (Option α)
  | none => some none
  | some .null => some none
  | some tree => (read tree).map some

def readOr? {α : Type} (default : α) (read : Tree → Option α) : Option Tree → Option α
  | none => some default
  | some tree => read tree

def named? {α : Type} (all : List α) (name : α → String) (text : String) : Option α :=
  all.find? fun variant => name variant == text

/-- Reads the name of a variant without content. The object form takes a level. -/
def readName? {α : Type} (all : List α) (name : α → String) : Nat → Tree → Option α
  | _, .string (some text) => named? all name text
  | _ + 1, .object [(some text, .null)] => named? all name text
  | _, _ => none

def readVariant? {α : Type} (all : List α) (name : α → String) : Tree → Option (α × Tree)
  | .object [(some text, content)] => (named? all name text).map (·, content)
  | _ => none

/-- The value of a field; absent if there is no field of that name, and `none`
if there are several. -/
def field? (name : String) (fields : List (Option String × Tree)) : Option (Option Tree) :=
  match fields.filter fun field => field.1 == some name with
  | [] => some none
  | [(_, value)] => some (some value)
  | _ => none

def fields? (fields : List (Option String × Tree)) : List String → Option (List (Option Tree))
  | [] => some []
  | name :: rest =>
    match field? name fields, fields? fields rest with
    | some value, some values => some (value :: values)
    | _, _ => none

/-- The values of an array of fields, followed by absent ones up to a given
number; `none` if there are more. -/
def padded? : Nat → List Tree → Option (List (Option Tree))
  | count, [] => some (List.replicate count none)
  | 0, _ :: _ => none
  | count + 1, item :: rest => (padded? count rest).map (some item :: ·)

def readSparse? (names : List String) : Tree → Option (List (Option Tree))
  | .object fields =>
    if fields.all fun field => field.1.isSome then fields? fields names else none
  | .array items => padded? names.length items
  | _ => none

def present? : List (Option Tree) → Option (List Tree)
  | [] => some []
  | none :: _ => none
  | some tree :: rest => (present? rest).map (tree :: ·)

def readRecord? (names : List String) (tree : Tree) : Option (List Tree) :=
  (readSparse? names tree).bind present?

end DocumentQuery
