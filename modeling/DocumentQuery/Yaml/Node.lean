import DocumentQuery.Yaml.Anchors
import DocumentQuery.Yaml.Token
/-!
# Documents

The tokens of a text are put together to nodes. What a collection within another
one holds is checked for its form only; the entries of the mapping that makes up
the whole document are kept. Once all anchors are known, they are given with the
nodes that references stand for.
-/

namespace DocumentQuery.Yaml

abbrev WrittenEntries := List (Written × Written)

abbrev Entries := List (Node × Node)

def Anchors.resolveEntries? (anchors : Anchors) (entries : WrittenEntries) : Option Entries :=
  entries.mapM fun entry => do
    return (← anchors.resolve? entry.1, ← anchors.resolve? entry.2)

/-- What is left to read of a document, the tokens, and what is known of it: the
anchors so far, and what the handles of tags stand for. -/
structure Unread where
  tokens : List Token
  anchors : Anchors
  handles : List (List Char × List Char)

namespace Unread

def skip (unread : Unread) : Unread :=
  { unread with tokens := unread.tokens.drop 1 }

def next (unread : Unread) (condition : Token → Bool) : Bool :=
  unread.tokens.head?.any condition

def addAnchor (unread : Unread) (name : Option (List Char)) (node : Node) : Unread :=
  match name with
  | none => unread
  | some name => { unread with anchors := unread.anchors.add name node }

def wholeTag? (unread : Unread) (tag : Tag) : Option (List Char) :=
  if tag.handle.isEmpty then some tag.rest
  else (unread.handles.lookup tag.handle).map (· ++ tag.rest)

end Unread

structure Properties where
  anchor : Option (List Char)
  tag : Option (List Char)

def properties? (unread : Unread) : Option (Properties × Unread) :=
  match unread.tokens with
  | .anchor name :: .tag tag :: rest =>
    (unread.wholeTag? tag).map fun tag => (⟨some name, some tag⟩, { unread with tokens := rest })
  | .tag tag :: .anchor name :: rest =>
    (unread.wholeTag? tag).map fun tag => (⟨some name, some tag⟩, { unread with tokens := rest })
  | .anchor name :: rest => some (⟨some name, none⟩, { unread with tokens := rest })
  | .tag tag :: rest =>
    (unread.wholeTag? tag).map fun tag => (⟨none, some tag⟩, { unread with tokens := rest })
  | _ => some (⟨none, none⟩, unread)

def Token.endsItem : Token → Bool
  | .item | .blockEnd => true
  | _ => false

def Token.endsBareItem : Token → Bool
  | .item | .key | .value | .blockEnd => true
  | _ => false

def Token.endsBlockPart : Token → Bool
  | .key | .value | .blockEnd => true
  | _ => false

def Token.endsFlowItem : Token → Bool
  | .comma | .flowSequenceEnd => true
  | _ => false

def Token.endsFlowValue : Token → Bool
  | .comma | .flowMappingEnd => true
  | _ => false

def Token.isValue : Token → Bool
  | .value => true
  | _ => false

/-- What is left after the comma that separates entries between brackets; the
first entry has none before it. -/
def afterComma? (first : Bool) (unread : Unread) : Option Unread :=
  if first then some unread
  else
    match unread.tokens with
    | .comma :: _ => some unread.skip
    | _ => none

/-! Each of the following readers uses up a token in at most three calls, so
four times the number of tokens is enough `fuel`. -/

mutual

/-- Reads a node, or a reference to one. A block may begin only `inBlock`, and a
sequence that is not indented only as a key or value of a block mapping. -/
def node? : (fuel : Nat) → (inBlock inMapping : Bool) → Unread → Option (Written × Unread)
  | 0, _, _, _ => none
  | fuel + 1, inBlock, inMapping, unread =>
    match unread.tokens with
    | .reference name :: _ =>
      (unread.anchors.reference? name).map fun reference => (reference, unread.skip)
    | _ => do
      let (properties, unread) ← properties? unread
      let opened := unread.addAnchor properties.anchor .collection
      match unread.tokens with
      | .scalar text style :: _ =>
        let node := Node.scalar ⟨text, style, properties.tag⟩
        return (.node node, (unread.addAnchor properties.anchor node).skip)
      | .flowSequenceStart :: _ => return (.node .collection, ← flowItems? fuel true opened.skip)
      | .flowMappingStart :: _ =>
        return (.node .collection, (← flowEntries? fuel true opened.skip).2)
      | tokens =>
        match inBlock, inMapping, tokens with
        | _, true, .item :: _ => return (.node .collection, ← bareItems? fuel opened)
        | true, _, .blockSequenceStart :: _ => return (.node .collection, ← items? fuel opened.skip)
        | true, _, .blockMappingStart :: _ =>
          return (.node .collection, (← entries? fuel opened.skip).2)
        | _, _, _ =>
          if properties.anchor.isSome || properties.tag.isSome then
            let node := Node.scalar ⟨[], .plain, properties.tag⟩
            return (.node node, unread.addAnchor properties.anchor node)
          else none

def nodeUnless? : (fuel : Nat) → (ends : Token → Bool) → (inBlock inMapping : Bool) → Unread →
    Option (Written × Unread)
  | 0, _, _, _, _ => none
  | fuel + 1, ends, inBlock, inMapping, unread =>
    if unread.next ends then some (.absent, unread) else node? fuel inBlock inMapping unread

def items? : (fuel : Nat) → Unread → Option Unread
  | 0, _ => none
  | fuel + 1, unread =>
    match unread.tokens with
    | .item :: _ => do
      let (_, unread) ← nodeUnless? fuel Token.endsItem true false unread.skip
      items? fuel unread
    | .blockEnd :: _ => some unread.skip
    | _ => none

/-- Reads the items of a sequence that is not indented. It ends where no item
follows. -/
def bareItems? : (fuel : Nat) → Unread → Option Unread
  | 0, _ => none
  | fuel + 1, unread =>
    match unread.tokens with
    | .item :: _ => do
      let (_, unread) ← nodeUnless? fuel Token.endsBareItem true false unread.skip
      bareItems? fuel unread
    | _ => some unread

def entries? : (fuel : Nat) → Unread → Option (WrittenEntries × Unread)
  | 0, _ => none
  | fuel + 1, unread =>
    match unread.tokens with
    | .key :: _ => do
      let (key, unread) ← nodeUnless? fuel Token.endsBlockPart true true unread.skip
      let (value, unread) ←
        if unread.next Token.isValue then
          nodeUnless? fuel Token.endsBlockPart true true unread.skip
        else some (.absent, unread)
      let (entries, unread) ← entries? fuel unread
      return ((key, value) :: entries, unread)
    | .blockEnd :: _ => some ([], unread.skip)
    | _ => none

/-- Reads the items between square brackets. An item may be a single entry of a
mapping; where its key is missing, the token in its place is passed over. -/
def flowItems? : (fuel : Nat) → (first : Bool) → Unread → Option Unread
  | 0, _, _ => none
  | fuel + 1, first, unread =>
    match unread.tokens with
    | .flowSequenceEnd :: _ => some unread.skip
    | _ => do
      let unread ← afterComma? first unread
      match unread.tokens with
      | .flowSequenceEnd :: _ => return unread.skip
      | .key :: _ =>
        let unread := unread.skip
        let unread ←
          if unread.next (fun token => token.isValue || token.endsFlowItem) then
            some unread.skip
          else (node? fuel false false unread).map Prod.snd
        let (_, unread) ←
          if unread.next Token.isValue then
            nodeUnless? fuel Token.endsFlowItem false false unread.skip
          else some (.absent, unread)
        flowItems? fuel false unread
      | _ =>
        let (_, unread) ← node? fuel false false unread
        flowItems? fuel false unread

/-- Reads the entries between braces. A key without a question mark or a colon
has no value. -/
def flowEntries? : (fuel : Nat) → (first : Bool) → Unread → Option (WrittenEntries × Unread)
  | 0, _, _ => none
  | fuel + 1, first, unread =>
    match unread.tokens with
    | .flowMappingEnd :: _ => some ([], unread.skip)
    | _ => do
      let unread ← afterComma? first unread
      match unread.tokens with
      | .flowMappingEnd :: _ => return ([], unread.skip)
      | .key :: _ =>
        let ends := fun token : Token => token.isValue || token.endsFlowValue
        let (key, unread) ← nodeUnless? fuel ends false false unread.skip
        let (value, unread) ←
          if unread.next Token.isValue then
            nodeUnless? fuel Token.endsFlowValue false false unread.skip
          else some (.absent, unread)
        let (entries, unread) ← flowEntries? fuel false unread
        return ((key, value) :: entries, unread)
      | _ =>
        let (key, unread) ← node? fuel false false unread
        let (entries, unread) ← flowEntries? fuel false unread
        return ((key, .absent) :: entries, unread)

end

/-! ## Documents -/

/-- The handles that need no directive. -/
def knownHandles : List (List Char × List Char) :=
  [(primaryHandle, primaryHandle), (['!', '!'], "tag:yaml.org,2002:".toList)]

structure Prologue where
  hasVersion : Bool
  handles : List (List Char × List Char)

def Prologue.empty : Prologue := ⟨false, []⟩

def Prologue.isEmpty (prologue : Prologue) : Bool :=
  !prologue.hasVersion && prologue.handles.isEmpty

/-- Adds a directive. There is at most one about the version, and one about each
handle. -/
def Prologue.add? (prologue : Prologue) : Directive → Option Prologue
  | .version major minor =>
    if prologue.hasVersion || major != 1 || (minor != 1 && minor != 2) then none
    else some { prologue with hasVersion := true }
  | .handle handle meaning =>
    if (prologue.handles.lookup handle).isSome then none
    else some { prologue with handles := prologue.handles ++ [(handle, meaning)] }

def prologue? (prologue : Prologue) : List Token → Option (Prologue × List Token)
  | .directive directive :: rest => do prologue? (← prologue.add? directive) rest
  | tokens => some (prologue, tokens)

def Token.isOutside : Token → Bool
  | .directive _ | .documentStart | .documentEnd => true
  | _ => false

/-- Reads the node that a document consists of, and the entries that it has. The
absent node has none. -/
def content? (unread : Unread) : Option (WrittenEntries × Unread) := do
  let fuel := 4 * (unread.tokens.length + 1)
  if unread.tokens.head?.all Token.isOutside then return ([], unread)
  else
    let (properties, inner) ← properties? unread
    let opened := (inner.addAnchor properties.anchor .collection).skip
    match inner.tokens with
    | .blockMappingStart :: _ => entries? fuel opened
    | .flowMappingStart :: _ => flowEntries? fuel true opened
    | _ =>
      match ← node? fuel true false unread with
      | (.node (.scalar ⟨[], .plain, _⟩), unread) => return ([], unread)
      | _ => none

def Token.isDocumentEnd : Token → Bool
  | .documentEnd => true
  | _ => false

/-- The entries of the mapping that a text consists of. An empty text has none,
directives need the marker of a document after them, and there must not be a
second document. -/
def document? (text : List Char) : Option Entries := do
  let (prologue, tokens) ← prologue? .empty (← tokens? text)
  let tokens ←
    match tokens with
    | .documentStart :: rest => some rest
    | .documentEnd :: _ => none
    | tokens => if prologue.isEmpty then some tokens else none
  let (entries, left) ← content? ⟨tokens, .empty, prologue.handles ++ knownHandles⟩
  if left.tokens.all Token.isDocumentEnd then left.anchors.resolveEntries? entries else none

end DocumentQuery.Yaml
