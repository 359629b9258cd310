import DocumentQuery.Text.LetterCase.Ranges
/-!
# Lower case

Two aliases collide when they agree in lower case, whatever the script they are
written in. `lowercase` replaces each capital letter by its small letter. Two
letters are special. The dotted capital I becomes a small i with a separate dot
above it, and the Greek capital sigma has two small forms: the final one at the
end of a word of more than one letter, the ordinary one elsewhere.
-/

namespace DocumentQuery.Text

def inRanges (ranges : List (Nat × Nat)) (code : Nat) : Bool :=
  ranges.any fun range => range.1 ≤ code && code ≤ range.2

def CapitalRange.covers (range : CapitalRange) (code : Nat) : Bool :=
  range.first ≤ code && code ≤ range.last && (code - range.first) % range.stride == 0

def lowerChar (c : Char) : Char :=
  if c.toNat < 128 then c.toLower
  else
    match capitalRanges.find? (·.covers c.toNat) with
    | some range => Char.ofNat (Int.toNat (c.toNat + range.offset))
    | none => c

def isCased (c : Char) : Bool :=
  inRanges casedRanges c.toNat

/-- Whether a character is passed over between letters. -/
def isCaseIgnorable (c : Char) : Bool :=
  inRanges ignorableRanges c.toNat

def meetsCased (text : List Char) : Bool :=
  match text.dropWhile isCaseIgnorable with
  | [] => false
  | c :: _ => isCased c

/-- The small sigma between two stretches of text, the first of them given in
reverse: the final form if a letter goes before it and none follows. -/
def lowerSigma (before after : List Char) : Char :=
  if meetsCased before && !meetsCased after then 'ς' else 'σ'

/-- The lower case of a text that follows the reversed text `before`. -/
def lowerAfter (before : List Char) : List Char → List Char
  | [] => []
  | c :: rest =>
    if c == 'İ' then 'i' :: Char.ofNat 0x307 :: lowerAfter (c :: before) rest
    else if c == 'Σ' then lowerSigma before rest :: lowerAfter (c :: before) rest
    else lowerChar c :: lowerAfter (c :: before) rest

def lowercase (text : String) : String :=
  String.ofList (lowerAfter [] text.toList)

@[simp] theorem lowerAfter_nil (before : List Char) : lowerAfter before [] = [] := rfl

theorem lowerChar_of_ascii {c : Char} (ascii : c.toNat < 128) : lowerChar c = c.toLower := by
  simp [lowerChar, ascii]

end DocumentQuery.Text
