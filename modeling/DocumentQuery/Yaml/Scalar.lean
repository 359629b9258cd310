import DocumentQuery.Json.Token
import DocumentQuery.Yaml.Glyph
/-!
# Plain and quoted scalars

A scalar may stretch over several lines. The white space at the ends of its
lines does not count, a single line break between two words is a space, and of
several line breaks in a row the first one is left out. This holds for plain
scalars and for both kinds of quoted ones; they differ in where they end and in
what a backslash does.
-/

namespace DocumentQuery.Yaml

inductive Style where
  | plain
  | quoted
  | literal
  | folded
deriving DecidableEq

structure Scalar where
  text : List Char
  style : Style
  tag : Option (List Char)

def Scalar.absent : Scalar := ⟨[], .plain, none⟩

/-- What stands between two words of a scalar: white space within a line, or
line breaks, the first of them apart. An escaped line break leaves no first
one. -/
inductive Gap where
  | within (spaces : List Char)
  | broken (first : Option Char) (more : List Char)

namespace Gap

def empty : Gap := .within []

def isEmpty : Gap → Bool
  | .within spaces => spaces.isEmpty
  | .broken _ _ => false

def isBroken : Gap → Bool
  | .within _ => false
  | .broken _ _ => true

def addSpace (c : Char) : Gap → Gap
  | .within spaces => .within (spaces ++ [c])
  | .broken first more => .broken first more

def addBreak (c : Char) : Gap → Gap
  | .within _ => .broken (some c) []
  | .broken first more => .broken first (more ++ [c])

def text : Gap → List Char
  | .within spaces => spaces
  | .broken none more => more
  | .broken (some first) more =>
    if first != '\n' then first :: more
    else if more.isEmpty then [' ']
    else more

@[simp] theorem text_empty : empty.text = [] := rfl

theorem text_addBreak (spaces : List Char) :
    ((within spaces).addBreak '\n').text = [' '] := by
  simp [addBreak, text]

end Gap

/-- Reads a single-quoted scalar after a gap, and returns the text after its
closing quote. Two quotes in it stand for one. -/
def singleQuoted? : Gap → List Glyph → Option (List Char × List Glyph)
  | _, [] => none
  | gap, glyph :: rest =>
    if atDocumentMarker (glyph :: rest) then none
    else if glyph.isSpace then singleQuoted? (gap.addSpace glyph.char) rest
    else if glyph.isBreak then singleQuoted? (gap.addBreak glyph.char) rest
    else if glyph.char != '\'' then
      (singleQuoted? .empty rest).map fun parts => (gap.text ++ glyph.char :: parts.1, parts.2)
    else
      match rest with
      | [] => some (gap.text, [])
      | next :: more =>
        if next.char == '\'' then
          (singleQuoted? .empty more).map fun parts => (gap.text ++ '\'' :: parts.1, parts.2)
        else some (gap.text, next :: more)

def escape? : Char → Option Char
  | '0' => some (Char.ofNat 0)
  | 'a' => some (Char.ofNat 7)
  | 'b' => some (Char.ofNat 8)
  | 't' => some '\t'
  | '\t' => some '\t'
  | 'n' => some '\n'
  | 'v' => some (Char.ofNat 11)
  | 'f' => some (Char.ofNat 12)
  | 'r' => some '\r'
  | 'e' => some (Char.ofNat 27)
  | ' ' => some ' '
  | '"' => some '"'
  | '/' => some '/'
  | '\\' => some '\\'
  | 'N' => some (Char.ofNat 0x85)
  | '_' => some (Char.ofNat 0xA0)
  | 'L' => some (Char.ofNat 0x2028)
  | 'P' => some (Char.ofNat 0x2029)
  | _ => none

def codeLength? : Char → Option Nat
  | 'x' => some 2
  | 'u' => some 4
  | 'U' => some 8
  | _ => none

def charOfCode? (code : Nat) : Option Char :=
  if code.isValidChar then some (Char.ofNat code) else none

/-- What goes before in a double-quoted scalar: nothing in particular, a
backslash, or the beginning of a code point of which further digits follow. -/
inductive Escape where
  | none
  | started
  | code (digits value : Nat)

def doubleQuoted? : Escape → Gap → List Glyph → Option (List Char × List Glyph)
  | _, _, [] => none
  | .none, gap, glyph :: rest =>
    if atDocumentMarker (glyph :: rest) then none
    else if glyph.isSpace then doubleQuoted? .none (gap.addSpace glyph.char) rest
    else if glyph.isBreak then doubleQuoted? .none (gap.addBreak glyph.char) rest
    else if glyph.char == '"' then some (gap.text, rest)
    else if glyph.char == '\\' then
      (doubleQuoted? .started .empty rest).map fun parts => (gap.text ++ parts.1, parts.2)
    else
      (doubleQuoted? .none .empty rest).map fun parts =>
        (gap.text ++ glyph.char :: parts.1, parts.2)
  | .started, gap, glyph :: rest =>
    if glyph.isBreak then doubleQuoted? .none (.broken none []) rest
    else
      match codeLength? glyph.char, escape? glyph.char with
      | some digits, _ => doubleQuoted? (.code digits 0) gap rest
      | none, some c =>
        (doubleQuoted? .none gap rest).map fun parts => (c :: parts.1, parts.2)
      | none, none => none
  | .code digits value, gap, glyph :: rest =>
    match Json.hexValue? glyph.char with
    | none => none
    | some digit =>
      if 1 < digits then doubleQuoted? (.code (digits - 1) (value * 16 + digit)) gap rest
      else
        match charOfCode? (value * 16 + digit), doubleQuoted? .none gap rest with
        | some c, some parts => some (c :: parts.1, parts.2)
        | _, _ => none

/-- Whether a plain scalar ends before a word: at a comment, at a document
marker, or on a line that is not indented enough. -/
def endsBefore (inFlow : Bool) (least : Nat) (word : List Glyph) : Bool :=
  nextIs (· == '#') word || atDocumentMarker word ||
    match word with
    | [] => true
    | glyph :: _ => !inFlow && glyph.column < least

/-- Whether a plain scalar ends at a character within a word: at a colon that
ends the word or, between brackets, at a character with a meaning there. -/
def endsAt (inFlow : Bool) (glyph : Glyph) (rest : List Glyph) : Bool :=
  (glyph.char == ':' && atWordEnd rest) || (inFlow && isFlowIndicator glyph.char)

/-- Whether a colon stands where it neither ends a word nor belongs to one:
between brackets before a character with a meaning there. -/
def isStrayColon (inFlow : Bool) (glyph : Glyph) (rest : List Glyph) : Bool :=
  inFlow && glyph.char == ':' && nextIs (fun c => isFlowIndicator c || c == '?') rest

/-- Reads a plain scalar after a gap. It returns the text after it and whether
line breaks go before that. A line of it begins at the column `least` or after
it, and a tab cannot make up for missing spaces. -/
def plain? (inFlow : Bool) (least : Nat) :
    Gap → List Glyph → Option (List Char × Bool × List Glyph)
  | gap, [] => some ([], gap.isBroken, [])
  | gap, glyph :: rest =>
    if glyph.isSpace then
      if gap.isBroken && glyph.column < least && glyph.char == '\t' then none
      else plain? inFlow least (gap.addSpace glyph.char) rest
    else if glyph.isBreak then plain? inFlow least (gap.addBreak glyph.char) rest
    else if !gap.isEmpty && endsBefore inFlow least (glyph :: rest) then
      some ([], gap.isBroken, glyph :: rest)
    else if isStrayColon inFlow glyph rest then none
    else if endsAt inFlow glyph rest then some ([], gap.isBroken, glyph :: rest)
    else
      (plain? inFlow least .empty rest).map fun parts =>
        (gap.text ++ glyph.char :: parts.1, parts.2)

end DocumentQuery.Yaml
