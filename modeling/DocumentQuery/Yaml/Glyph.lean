/-!
# Characters of a YAML text and their places

In a YAML text it matters where a character stands. A `Glyph` is a character
together with its place, which is settled once for the whole text, so that no
reader has to count lines and columns itself. A carriage return and a line feed
are one line break, and all line breaks but the two separators of Unicode are
written as line feeds.
-/

namespace DocumentQuery.Yaml

/-- A character and its place: its line, its column and the number of bytes
before it in its line. -/
structure Glyph where
  char : Char
  line : Nat
  column : Nat
  offset : Nat

def isPrintable (c : Char) : Bool :=
  c == '\t' || c == '\n' || c == '\r' || c.toNat == 0x85 || (0x20 ≤ c.toNat && c.toNat ≤ 0x7E) ||
    (0xA0 ≤ c.toNat && c.toNat ≤ 0xFFFD) || 0x10000 ≤ c.toNat

def isSpace (c : Char) : Bool :=
  c == ' ' || c == '\t'

def isBreak (c : Char) : Bool :=
  c == '\n' || c == '\r' || c.toNat == 0x85 || c.toNat == 0x2028 || c.toNat == 0x2029

def foldBreak (c : Char) : Char :=
  if c == '\r' || c.toNat == 0x85 then '\n' else c

def isFlowIndicator (c : Char) : Bool :=
  c == ',' || c == '[' || c == ']' || c == '\x7b' || c == '\x7d'

def glyphsFrom (line column offset : Nat) : List Char → List Glyph
  | [] => []
  | '\r' :: '\n' :: rest => ⟨'\n', line, column, offset⟩ :: glyphsFrom (line + 1) 0 0 rest
  | c :: rest =>
    if isBreak c then ⟨foldBreak c, line, column, offset⟩ :: glyphsFrom (line + 1) 0 0 rest
    else ⟨c, line, column, offset⟩ :: glyphsFrom line (column + 1) (offset + c.utf8Size) rest

def glyphs? (text : List Char) : Option (List Glyph) :=
  if text.all isPrintable then some (glyphsFrom 0 0 0 text) else none

namespace Glyph

def isSpace (glyph : Glyph) : Bool :=
  Yaml.isSpace glyph.char

def isBreak (glyph : Glyph) : Bool :=
  Yaml.isBreak glyph.char

end Glyph

def nextIs (condition : Char → Bool) : List Glyph → Bool
  | [] => false
  | glyph :: _ => condition glyph.char

/-- Whether a word ends here: the text ends, or white space or a line break
follows. -/
def atWordEnd : List Glyph → Bool
  | [] => true
  | glyph :: _ => glyph.isSpace || glyph.isBreak

/-- Whether a document marker stands here: a character three times at the
beginning of a line, as a word of its own. -/
def isMarker (mark : Char) : List Glyph → Bool
  | first :: second :: third :: rest =>
    first.column == 0 && first.char == mark && second.char == mark && third.char == mark &&
      atWordEnd rest
  | _ => false

def atDocumentMarker (glyphs : List Glyph) : Bool :=
  isMarker '-' glyphs || isMarker '.' glyphs

/-- The text after the end of the line, if there is nothing but white space and
a comment before. -/
def afterLine? (glyphs : List Glyph) : Option (List Glyph) :=
  let glyphs := glyphs.dropWhile Glyph.isSpace
  let glyphs := if nextIs (· == '#') glyphs then glyphs.dropWhile (!·.isBreak) else glyphs
  match glyphs with
  | [] => some []
  | glyph :: rest => if glyph.isBreak then some rest else none

@[simp] theorem glyphsFrom_nil (line column offset : Nat) : glyphsFrom line column offset [] = [] :=
  rfl

theorem isBreak_foldBreak {c : Char} (ends : isBreak c) : isBreak (foldBreak c) := by
  unfold foldBreak
  split
  · rfl
  · exact ends

end DocumentQuery.Yaml
