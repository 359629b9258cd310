import DocumentQuery.Yaml.Scalar
/-!
# Block scalars

A block scalar takes whole lines: those after its header that are indented by
at least as much as its first line, or as much as the header says. A literal
one keeps its line breaks; in a folded one a single line break between two lines
that do not begin with white space is a space. The header also says what happens
to the line breaks at the end.
-/

namespace DocumentQuery.Yaml

/-- What happens to the line breaks at the end of a block scalar: one is kept,
none or all of them. -/
inductive Chomping where
  | clip
  | strip
  | keep
deriving DecidableEq

def chomping? : Char → Option Chomping
  | '-' => some .strip
  | '+' => some .keep
  | _ => none

def indentationDigit? : List Glyph → Option (Option Nat × List Glyph)
  | [] => some (none, [])
  | glyph :: rest =>
    if !glyph.char.isDigit then some (none, glyph :: rest)
    else if glyph.char == '0' then none
    else some (some (Json.digitValue glyph.char), rest)

def takeChomping : List Glyph → Option Chomping × List Glyph
  | [] => (none, [])
  | glyph :: rest =>
    match chomping? glyph.char with
    | some chomping => (some chomping, rest)
    | none => (none, glyph :: rest)

def blockHeader? (glyphs : List Glyph) : Option (Chomping × Option Nat × List Glyph) := do
  let (before, glyphs) := takeChomping glyphs
  let (digit, glyphs) ← indentationDigit? glyphs
  let (after, glyphs) :=
    if before.isNone && digit.isSome then takeChomping glyphs else (none, glyphs)
  let glyphs ← afterLine? glyphs
  return ((before <|> after).getD .clip, digit, glyphs)

/-- Passes over empty lines and over the indentation of the line after them, up
to the column `limit` if there is one, and returns the line breaks. There must
be no tab in the indentation. -/
def emptyLines? (limit : Option Nat) : List Glyph → Option (List Char × List Glyph)
  | [] => some ([], [])
  | glyph :: rest =>
    let indents := limit.all (glyph.column < ·)
    if indents && glyph.char == ' ' then emptyLines? limit rest
    else if indents && glyph.char == '\t' then none
    else if glyph.isBreak then
      (emptyLines? limit rest).map fun parts => (glyph.char :: parts.1, parts.2)
    else some ([], glyph :: rest)

def greatestIndentation (greatest : Nat) : List Glyph → Nat
  | [] => greatest
  | glyph :: rest =>
    if glyph.char == ' ' then greatestIndentation greatest rest
    else if glyph.isBreak then greatestIndentation (max greatest glyph.column) rest
    else max greatest glyph.column

/-- The line breaks between two lines of a block scalar: the first one, the
others, and whether the line before begins with white space. -/
structure Breaks where
  first : List Char
  more : List Char
  afterSpace : Bool

def Breaks.text (breaks : Breaks) (folded beforeSpace : Bool) : List Char :=
  if folded && breaks.first == ['\n'] && !breaks.afterSpace && !beforeSpace then
    if breaks.more.isEmpty then [' '] else breaks.more
  else breaks.first ++ breaks.more

def Breaks.chomp (breaks : Breaks) : Chomping → List Char
  | .strip => []
  | .clip => breaks.first
  | .keep => breaks.first ++ breaks.more

/-- Reads the lines of a block scalar after line breaks. Each takes at least one
character, so `fuel` may be the length of the text. -/
def blockLines? (folded : Bool) (indentation : Nat) (chomping : Chomping) :
    (fuel : Nat) → Breaks → List Glyph → Option (List Char × List Glyph)
  | 0, breaks, glyphs => some (breaks.chomp chomping, glyphs)
  | _ + 1, breaks, [] => some (breaks.chomp chomping, [])
  | fuel + 1, breaks, glyph :: rest =>
    if glyph.column != indentation then some (breaks.chomp chomping, glyph :: rest)
    else
      let line := (glyph :: rest).takeWhile (!·.isBreak)
      let after := (glyph :: rest).dropWhile (!·.isBreak)
      let first := (after.take 1).map Glyph.char
      match emptyLines? (some indentation) (after.drop 1) with
      | none => none
      | some (more, left) =>
        (blockLines? folded indentation chomping fuel ⟨first, more, glyph.isSpace⟩ left).map
          fun parts =>
            (breaks.text folded glyph.isSpace ++ line.map Glyph.char ++ parts.1, parts.2)

def blockScalar? (folded : Bool) (around : Option Nat) (glyphs : List Glyph) :
    Option (List Char × List Glyph) := do
  let (chomping, digit, glyphs) ← blockHeader? glyphs
  let given := digit.map (around.getD 0 + ·)
  let (breaks, left) ← emptyLines? given glyphs
  let least := max 1 ((around.map (· + 1)).getD 0)
  let indentation := given.getD (max least (greatestIndentation 0 glyphs))
  blockLines? folded indentation chomping left.length ⟨[], breaks, false⟩ left

end DocumentQuery.Yaml
