import DocumentQuery.Json.Token
import DocumentQuery.Yaml.Glyph
/-!
# Anchors, tags and directives

A node may have an anchor, by which a later node refers to it, and a tag. A tag
consists of a handle between exclamation marks, which stands for the beginning
of the tag, and of the rest of it. Directives before a document say what further
handles stand for.
-/

namespace DocumentQuery.Yaml

def isNameChar (c : Char) : Bool :=
  c.isAlphanum || c == '-' || c == '_'

def spanName (glyphs : List Glyph) : List Char × List Glyph :=
  ((glyphs.takeWhile (isNameChar ·.char)).map Glyph.char,
    glyphs.dropWhile (isNameChar ·.char))

def mayFollowAnchor (c : Char) : Bool :=
  "?:,]%@".toList.contains c || c == '\x7d' || c == Char.ofNat 96

def anchorName? (glyphs : List Glyph) : Option (List Char × List Glyph) :=
  let (name, rest) := spanName glyphs
  if !name.isEmpty && (atWordEnd rest || nextIs mayFollowAnchor rest) then some (name, rest)
  else none

/-- Whether a tag may hold the character. A tag in angle brackets may also hold
commas and square brackets. -/
def isTagChar (verbatim : Bool) (c : Char) : Bool :=
  isNameChar c || ";/?:@&=+$.!~*'()".toList.contains c ||
    (verbatim && (c == ',' || c == '[' || c == ']'))

/-- The number of octets that still belong to a character after the given one,
where `left` octets were expected with it. -/
def octetsLeft? (left octet : Nat) : Option Nat :=
  if left != 0 then if octet / 64 == 2 then some (left - 1) else none
  else if octet < 0x80 then some 0
  else if octet / 32 == 6 then some 1
  else if octet / 16 == 14 then some 2
  else if octet / 8 == 30 then some 3
  else none

def octet? (high low : Glyph) : Option Nat := do
  return (← Json.hexValue? high.char) * 16 + (← Json.hexValue? low.char)

/-- Reads the rest of a tag, and returns the text after it. A percent sign and
two digits stand for an octet, and octets have to make up whole characters. -/
def tagText? (verbatim : Bool) : (left : Nat) → List Glyph → Option (List Char × List Glyph)
  | left, [] => if left == 0 then some ([], []) else none
  | left, glyph :: rest =>
    if glyph.char == '%' then
      match rest with
      | high :: low :: rest =>
        match octet? high low with
        | none => none
        | some octet =>
          match octetsLeft? left octet with
          | none => none
          | some left =>
            (tagText? verbatim left rest).map fun parts => (Char.ofNat octet :: parts.1, parts.2)
      | _ => none
    else if left != 0 then none
    else if isTagChar verbatim glyph.char then
      (tagText? verbatim 0 rest).map fun parts => (glyph.char :: parts.1, parts.2)
    else some ([], glyph :: rest)

def tagRest? (verbatim : Bool) (glyphs : List Glyph) : Option (List Char × List Glyph) :=
  (tagText? verbatim 0 glyphs).filter fun parts => !parts.1.isEmpty

/-- A tag as it is written: a handle, which is empty for a whole tag in angle
brackets, and the rest. -/
structure Tag where
  handle : List Char
  rest : List Char

def primaryHandle : List Char := ['!']

def spanTag? (glyphs : List Glyph) : Option (Tag × List Glyph) :=
  if nextIs (· == '<') glyphs then
    match tagRest? true (glyphs.drop 1) with
    | some (text, left) => if nextIs (· == '>') left then some (⟨[], text⟩, left.drop 1) else none
    | none => none
  else
    let (name, left) := spanName glyphs
    if nextIs (· == '!') left then
      (tagRest? false (left.drop 1)).map fun parts => (⟨'!' :: name ++ ['!'], parts.1⟩, parts.2)
    else
      (tagText? false 0 left).map fun parts =>
        let text := name ++ parts.1
        (if text.isEmpty then ⟨[], primaryHandle⟩ else ⟨primaryHandle, text⟩, parts.2)

/-- Reads a tag as a word of its own. Between brackets a comma may follow it
directly. -/
def tag? (inFlow : Bool) (glyphs : List Glyph) : Option (Tag × List Glyph) :=
  (spanTag? glyphs).filter fun parts =>
    atWordEnd parts.2 || (inFlow && nextIs (· == ',') parts.2)

inductive Directive where
  | version (major minor : Nat)
  | handle (handle meaning : List Char)

/-- A part of a version, of at most nine digits, and the text after it. -/
def versionPart? (glyphs : List Glyph) : Option (Nat × List Glyph) :=
  let digits := (glyphs.takeWhile (·.char.isDigit)).map Glyph.char
  if digits.isEmpty || 9 < digits.length then none
  else some (Json.digitsValue digits, glyphs.dropWhile (·.char.isDigit))

def version? (glyphs : List Glyph) : Option (Directive × List Glyph) := do
  let (major, glyphs) ← versionPart? glyphs
  if nextIs (· == '.') glyphs then
    let (minor, glyphs) ← versionPart? (glyphs.drop 1)
    return (.version major minor, glyphs)
  else none

def handle? (glyphs : List Glyph) : Option (Directive × List Glyph) := do
  let (name, left) := spanName (glyphs.drop 1)
  let closed := nextIs (· == '!') left
  let handle := if closed then '!' :: name ++ ['!'] else '!' :: name
  let left := if closed then left.drop 1 else left
  if nextIs (· == '!') glyphs && (closed || name.isEmpty) && nextIs isSpace left then
    let (meaning, left) ← tagRest? true (left.dropWhile Glyph.isSpace)
    if atWordEnd left then return (.handle handle meaning, left) else none
  else none

def directive? (glyphs : List Glyph) : Option (Directive × List Glyph) := do
  let (name, left) := spanName glyphs
  let content := left.dropWhile Glyph.isSpace
  let (directive, left) ←
    if !atWordEnd left then none
    else if name == "YAML".toList then version? content
    else if name == "TAG".toList then handle? content
    else none
  return (directive, ← afterLine? left)

end DocumentQuery.Yaml
