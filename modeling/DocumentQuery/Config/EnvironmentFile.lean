import DocumentQuery.Config.Environment
import DocumentQuery.Text.Blank
/-!
# Environment files

A file may supply variables that the environment does not set: one variable a
line, its name and value separated by an equals sign. A value may be quoted, and
a quoted one may stretch over several lines. Between single quotes every
character stands for itself; elsewhere a backslash escapes a character, and a
dollar sign puts in the value of another variable. Comments begin with a number
sign after white space.

What the file says does not depend on the environment: reading it gives
`Assignment`s, whose values are put together afterwards. Reading ends at the
first line that is no assignment, and the assignments before it hold.
-/

namespace DocumentQuery.EnvironmentFile

/-! ## Lines -/

/-- What goes before a character of a file, as far as it decides whether the
line goes on. -/
inductive LinePlace where
  | bare
  | afterSpace
  | escaped
  | double
  | doubleEscaped
  | single
  | singleEscaped
  | comment
deriving DecidableEq

namespace LinePlace

def endsLine : LinePlace → Bool
  | .bare | .afterSpace | .escaped | .comment => true
  | _ => false

/-- What goes before the next character. Of several spaces in a row only every
other one counts as white space. -/
def next : LinePlace → Char → LinePlace
  | .escaped, _ => .bare
  | .doubleEscaped, _ => .double
  | .singleEscaped, _ => .single
  | .comment, _ => .comment
  | .double, c => if c == '\\' then .doubleEscaped else if c == '"' then .bare else .double
  | .single, c => if c == '\\' then .singleEscaped else if c == '\'' then .bare else .single
  | place, c =>
    if c == '\\' then .escaped
    else if c == '"' then .double
    else if c == '\'' then .single
    else if place == .afterSpace then if c == '#' then .comment else .bare
    else if Text.isBlank c && c != '\n' && c != '\r' then .afterSpace
    else .bare

end LinePlace

/-- Splits a file into lines, without their comments. The line so far is given
in reverse. At the end of the file nothing may be left open, not even white
space; otherwise the last line does not count. -/
def splitLines (place : LinePlace) (line : List Char) : List Char → List (List Char)
  | [] =>
    if place == .comment || (place == .bare && !line.isEmpty) then [line.reverse] else []
  | c :: rest =>
    if c == '\n' && place.endsLine then line.reverse :: splitLines .bare [] rest
    else if place == .comment || (c == '#' && line.all Text.isBlank) || place.next c == .comment
    then splitLines .comment line rest
    else splitLines (place.next c) (c :: line) rest

/-! ## Values -/

inductive Piece where
  | char (c : Char)
  | variable (name : String)

/-- What goes before a character of a value: nothing in particular, a backslash,
a single quote that opens, a dollar sign with the beginning of a name, the same
with an opening brace, or white space after the value. Where it makes a
difference, `quoted` says whether a double quote is open. -/
inductive ValuePlace where
  | bare (quoted : Bool)
  | escaped (quoted : Bool)
  | single
  | name (quoted : Bool) (name : List Char)
  | braced (quoted : Bool) (name : List Char)
  | ended

def escape? (c : Char) : Option Char :=
  if c == 'n' then some '\n'
  else if "\\'\"$ ".toList.contains c then some c
  else none

def Piece.ofName (name : List Char) : Piece :=
  .variable (String.ofList name)

def valueEnd? : ValuePlace → Option (List Piece)
  | .bare false | .escaped false | .ended => some []
  | .name false name => some [.ofName name]
  | _ => none

/-- Reads a value. The name of a variable without braces consists of ASCII
letters and digits, and the character after it stands for itself. -/
def value? : ValuePlace → List Char → Option (List Piece)
  | place, [] => valueEnd? place
  | .ended, c :: rest =>
    if c == '#' then some []
    else if c == ' ' || c == '\t' then value? .ended rest
    else none
  | .escaped quoted, c :: rest =>
    match escape? c with
    | some c => (value? (.bare quoted) rest).map (.char c :: ·)
    | none => none
  | .single, c :: rest =>
    if c == '\'' then value? (.bare false) rest
    else (value? .single rest).map (.char c :: ·)
  | .name quoted name, c :: rest =>
    if c.isAlphanum then value? (.name quoted (name ++ [c])) rest
    else if c == '\x7b' && name.isEmpty then value? (.braced quoted []) rest
    else if c == '$' then (value? (.name quoted []) rest).map (.ofName name :: ·)
    else (value? (.bare quoted) rest).map fun pieces => .ofName name :: .char c :: pieces
  | .braced quoted name, c :: rest =>
    if c == '\x7d' then (value? (.bare quoted) rest).map (.ofName name :: ·)
    else value? (.braced quoted (name ++ [c])) rest
  | .bare quoted, c :: rest =>
    if c == '$' then value? (.name quoted []) rest
    else if c == '\\' then value? (.escaped quoted) rest
    else if c == '"' then value? (.bare !quoted) rest
    else if c == '\'' && !quoted then value? .single rest
    else if (c == ' ' || c == '\t') && !quoted then value? .ended rest
    else (value? (.bare quoted) rest).map (.char c :: ·)

/-! ## Assignments -/

structure Assignment where
  name : String
  value : List Piece

def name? : List Char → Option (List Char × List Char)
  | [] => none
  | c :: rest =>
    let belongs := fun c : Char => c.isAlphanum || c == '_' || c == '.'
    if c.isAlpha || c == '_' then
      some (c :: rest.takeWhile belongs, (rest.dropWhile belongs).dropWhile Text.isBlank)
    else none

/-- The name of a variable before an equals sign, and the text after the sign.
The word `export` may go before the name. -/
def target? (text : List Char) : Option (List Char × List Char) :=
  match name? text with
  | some (name, '=' :: rest) => some (name, rest)
  | some (['e', 'x', 'p', 'o', 'r', 't'], rest) =>
    match name? rest with
    | some (name, '=' :: rest) => some (name, rest)
    | _ => none
  | _ => none

def assignment? (line : List Char) : Option (Option Assignment) :=
  match Text.trimBlank line with
  | [] => some none
  | text => do
    let (name, rest) ← target? text
    let pieces ←
      match rest.dropWhile Text.isBlank with
      | [] | '#' :: _ => some []
      | value => value? (.bare false) value
    return some ⟨String.ofList name, pieces⟩

def ofLines : List (List Char) → List Assignment
  | [] => []
  | line :: rest =>
    match assignment? line with
    | none => []
    | some assignment => assignment.toList ++ ofLines rest

/-- The assignments of a file. A byte order mark before them is passed over. -/
def assignments (text : String) : List Assignment :=
  let text := match text.toList with
    | c :: rest => if c.toNat == 0xFEFF then rest else c :: rest
    | [] => []
  ofLines (splitLines .bare [] text)

def Assignment.variableNames (assignment : Assignment) : List String :=
  assignment.name :: assignment.value.filterMap fun
    | .char _ => none
    | .variable name => some name

end DocumentQuery.EnvironmentFile

namespace DocumentQuery.Environment

open EnvironmentFile

def expand (environment : Environment) (pieces : List Piece) : String :=
  String.ofList <| pieces.flatMap fun
    | .char c => [c]
    | .variable name => ((environment name).getD "").toList

/-- Carries out assignments in their order. A variable that is set stays as it
is. -/
def assign (environment : Environment) : List Assignment → Environment
  | [] => environment
  | assignment :: rest =>
    let value := environment.expand assignment.value
    assign (environment.orElse (ofList [(assignment.name, value)])) rest

def withFile (environment : Environment) (file : Option String) : Environment :=
  match file with
  | none => environment
  | some text => environment.assign (assignments text)

@[simp] theorem assign_nil (environment : Environment) : environment.assign [] = environment := rfl

theorem assign_of_isSome {environment : Environment} {name value : String}
    (isSet : environment name = some value) (assignments : List Assignment) :
    environment.assign assignments name = some value := by
  induction assignments generalizing environment with
  | nil => exact isSet
  | cons assignment rest ih =>
    apply ih
    simp [orElse, isSet]

end DocumentQuery.Environment
