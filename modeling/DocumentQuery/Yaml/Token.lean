import DocumentQuery.Yaml.BlockScalar
import DocumentQuery.Yaml.Property
/-!
# Tokens of YAML texts

The words of a YAML text, and those marks of its form that are written as
indentation only: where a block begins and ends, and that something is a key.
That something is a key shows only at the colon after it, so the scan remembers
where the last key may have begun and puts the mark there afterwards. Such a key
has to be on a single line with its colon, at most 1024 bytes before it.
-/

namespace DocumentQuery.Yaml

inductive Token where
  | directive (directive : Directive)
  | documentStart
  | documentEnd
  | blockSequenceStart
  | blockMappingStart
  | blockEnd
  | flowSequenceStart
  | flowSequenceEnd
  | flowMappingStart
  | flowMappingEnd
  | item
  | comma
  | key
  | value
  | reference (name : List Char)
  | anchor (name : List Char)
  | tag (tag : Tag)
  | scalar (text : List Char) (style : Style)

/-- A place where a key may have begun: the number of tokens before it, its
first character, and whether it has to be a key, because it stands where each
line of a block begins. -/
structure KeyStart where
  before : Nat
  glyph : Glyph
  required : Bool

/-- What is known in the middle of a text: the tokens so far, the last one
first; the columns of the open blocks, the innermost first; where the last key
may have begun, and the same for each pair of brackets around; and whether a key
may begin here. -/
structure Scan where
  tokens : List Token
  blocks : List Nat
  keyStart : Option KeyStart
  around : List (Option KeyStart)
  mayBeginKey : Bool

namespace Scan

def start : Scan := ⟨[], [], none, [], true⟩

def inFlow (scan : Scan) : Bool :=
  !scan.around.isEmpty

def least (scan : Scan) : Nat :=
  match scan.blocks with
  | [] => 0
  | column :: _ => column + 1

def push (scan : Scan) (token : Token) : Scan :=
  { scan with tokens := token :: scan.tokens }

def allowKey (scan : Scan) (allowed : Bool) : Scan :=
  { scan with mayBeginKey := allowed }

/-- Ends the innermost blocks as long as their columns satisfy a condition.
Between brackets no block ends. -/
def endBlocks (scan : Scan) (ends : Nat → Bool) : Scan :=
  if scan.inFlow then scan
  else
    { scan with
      tokens := (scan.blocks.takeWhile ends).map (fun _ => .blockEnd) ++ scan.tokens
      blocks := scan.blocks.dropWhile ends }

def dropKey? (scan : Scan) : Option Scan :=
  if scan.keyStart.any (·.required) then none else some { scan with keyStart := none }

/-- The place where a key may have begun, if it still can be one at the given
character; `none` if it cannot be one but has to. -/
def stillKey? (glyph : Glyph) : Option KeyStart → Option (Option KeyStart)
  | none => some none
  | some start =>
    if start.glyph.line == glyph.line && glyph.offset ≤ start.glyph.offset + 1024 then
      some (some start)
    else if start.required then none
    else some none

def dropFarKeys? (scan : Scan) (glyph : Glyph) : Option Scan := do
  return { scan with
    keyStart := ← stillKey? glyph scan.keyStart
    around := ← scan.around.mapM (stillKey? glyph) }

def markKey? (scan : Scan) (glyph : Glyph) : Option Scan :=
  if scan.mayBeginKey then do
    let required := !scan.inFlow && scan.blocks.head? == some glyph.column
    return { ← scan.dropKey? with keyStart := some ⟨scan.tokens.length, glyph, required⟩ }
  else some scan

def beginBlock (scan : Scan) (column : Nat) (token : Token) : Scan :=
  if scan.inFlow || column < scan.least then scan
  else { scan.push token with blocks := column :: scan.blocks }

/-- Puts the mark of a key before the token where it began, and the beginning of
a block if it begins one. -/
def insertKey (scan : Scan) (start : KeyStart) : Scan :=
  let later := scan.tokens.length - start.before
  let earlier := { scan with tokens := scan.tokens.drop later }
  let marked := (earlier.beginBlock start.glyph.column .blockMappingStart).push .key
  { marked with tokens := scan.tokens.take later ++ marked.tokens }

def beginEntry? (scan : Scan) (column : Nat) (block entry : Token) : Option Scan := do
  if !scan.inFlow && !scan.mayBeginKey then none
  else return (← (scan.beginBlock column block).dropKey?).push entry

def item? (scan : Scan) (column : Nat) : Option Scan := do
  return (← scan.beginEntry? column .blockSequenceStart .item).allowKey true

def key? (scan : Scan) (column : Nat) : Option Scan := do
  return (← scan.beginEntry? column .blockMappingStart .key).allowKey !scan.inFlow

def value? (scan : Scan) (column : Nat) : Option Scan :=
  match scan.keyStart with
  | some start => some (({ scan.insertKey start with keyStart := none }.push .value).allowKey false)
  | none => do
    return (← scan.beginEntry? column .blockMappingStart .value).allowKey !scan.inFlow

def openFlow? (scan : Scan) (glyph : Glyph) (token : Token) : Option Scan := do
  let scan ← scan.markKey? glyph
  return { scan.push token with
    keyStart := none, around := scan.keyStart :: scan.around, mayBeginKey := true }

def closeFlow? (scan : Scan) (token : Token) : Option Scan := do
  let scan ← scan.dropKey?
  match scan.around with
  | [] => none
  | keyStart :: around =>
    return { scan.push token with
      keyStart := keyStart, around := around, mayBeginKey := false }

def outside? (scan : Scan) (token : Token) : Option Scan := do
  return ((← (scan.endBlocks fun _ => true).dropKey?).push token).allowKey false

def word? (scan : Scan) (glyph : Glyph) (token : Token) : Option Scan := do
  return ((← scan.markKey? glyph).push token).allowKey false

/-- Passes over white space, comments and line breaks. In a block a key may
begin on a new line, and no tab goes before it. -/
def toNextWord (inComment : Bool) (scan : Scan) : List Glyph → Scan × List Glyph
  | [] => (scan, [])
  | glyph :: rest =>
    if glyph.isBreak then toNextWord false (scan.allowKey (scan.mayBeginKey || !scan.inFlow)) rest
    else if inComment || glyph.char == '#' then toNextWord true scan rest
    else if glyph.char == ' ' || (glyph.char == '\t' && (scan.inFlow || !scan.mayBeginKey)) ||
        (glyph.char.toNat == 0xFEFF && glyph.column == 0) then
      toNextWord false scan rest
    else (scan, glyph :: rest)

/-- Whether a plain scalar begins with the given character. A hyphen, and in a
block a question mark or a colon, begins one if no white space follows. -/
def beginsPlain (scan : Scan) (glyph : Glyph) (rest : List Glyph) : Bool :=
  if glyph.char == '-' then !nextIs isSpace rest
  else if glyph.char == '?' || glyph.char == ':' then !scan.inFlow && !atWordEnd rest
  else
    !isSpace glyph.char && !isFlowIndicator glyph.char &&
      !"#&*!|>'\"%@".toList.contains glyph.char && glyph.char != Char.ofNat 96

def readWord? (scan : Scan) (glyph : Glyph) (rest : List Glyph) : Option (Scan × List Glyph) :=
  let entry := scan.inFlow || atWordEnd rest
  if glyph.column == 0 && glyph.char == '%' then do
    let (directive, left) ← directive? rest
    return (← scan.outside? (.directive directive), left)
  else if isMarker '-' (glyph :: rest) then do
    return (← scan.outside? .documentStart, rest.drop 2)
  else if isMarker '.' (glyph :: rest) then do
    return (← scan.outside? .documentEnd, rest.drop 2)
  else if glyph.char == '[' then do return (← scan.openFlow? glyph .flowSequenceStart, rest)
  else if glyph.char == '\x7b' then do return (← scan.openFlow? glyph .flowMappingStart, rest)
  else if glyph.char == ']' then do return (← scan.closeFlow? .flowSequenceEnd, rest)
  else if glyph.char == '\x7d' then do return (← scan.closeFlow? .flowMappingEnd, rest)
  else if glyph.char == ',' then do
    return (((← scan.dropKey?).push .comma).allowKey true, rest)
  else if glyph.char == '-' && atWordEnd rest then do
    return (← scan.item? glyph.column, rest)
  else if glyph.char == '?' && entry then do return (← scan.key? glyph.column, rest)
  else if glyph.char == ':' && entry then do return (← scan.value? glyph.column, rest)
  else if glyph.char == '*' then do
    let (name, left) ← anchorName? rest
    return (← scan.word? glyph (.reference name), left)
  else if glyph.char == '&' then do
    let (name, left) ← anchorName? rest
    return (← scan.word? glyph (.anchor name), left)
  else if glyph.char == '!' then do
    let (tag, left) ← tag? scan.inFlow rest
    return (← scan.word? glyph (.tag tag), left)
  else if (glyph.char == '|' || glyph.char == '>') && !scan.inFlow then do
    let folded := glyph.char == '>'
    let (text, left) ← blockScalar? folded scan.blocks.head? rest
    let token := Token.scalar text (if folded then .folded else .literal)
    return (((← scan.dropKey?).push token).allowKey true, left)
  else if glyph.char == '\'' then do
    let (text, left) ← singleQuoted? .empty rest
    return (← scan.word? glyph (.scalar text .quoted), left)
  else if glyph.char == '"' then do
    let (text, left) ← doubleQuoted? .none .empty rest
    return (← scan.word? glyph (.scalar text .quoted), left)
  else if scan.beginsPlain glyph rest then do
    let (text, newLine, left) ← plain? scan.inFlow scan.least .empty (glyph :: rest)
    return ((← scan.word? glyph (.scalar text .plain)).allowKey newLine, left)
  else none

/-- Reads the rest of a text. Each word takes at least one character, so `fuel`
may be one more than the length of the text. -/
def readAll? : (fuel : Nat) → Scan → List Glyph → Option (List Token)
  | 0, _, _ => none
  | fuel + 1, scan, glyphs =>
    match scan.toNextWord false glyphs with
    | (scan, []) => ((scan.endBlocks fun _ => true).dropKey?).map (·.tokens.reverse)
    | (scan, glyph :: rest) => do
      let scan ← scan.dropFarKeys? glyph
      let (scan, left) ← (scan.endBlocks (glyph.column < ·)).readWord? glyph rest
      readAll? fuel scan left

end Scan

def tokens? (text : List Char) : Option (List Token) := do
  let glyphs ← glyphs? text
  Scan.start.readAll? (glyphs.length + 1) glyphs

end DocumentQuery.Yaml
