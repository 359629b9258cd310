import DocumentQuery.Json.Value
/-!
# Tokens of JSON texts

The words of a JSON text: brackets, commas, colons, numbers, strings and the
three names. The text is scanned character by character. What the scan
remembers between two characters is a `Scan`, so the scan is a recursion on the
list of characters.
-/

namespace DocumentQuery.Json

/-- A word of a JSON text. Numbers out of range and strings with half of a
surrogate pair are words without a value. -/
inductive Token where
  | openArray
  | closeArray
  | openObject
  | closeObject
  | comma
  | colon
  | null
  | bool (value : Bool)
  | number (value : Option Number)
  | string (value : Option String)

def wordLimit : Nat := Nat.pow 2 64

def digitValue (c : Char) : Nat :=
  c.toNat - 48

/-- Takes digits as long as the whole number that they make fits into 64 bits;
the digits that are left are returned with it. -/
def takeDigits (whole : Nat) : List Char → Nat × List Char
  | [] => (whole, [])
  | c :: rest =>
    if whole * 10 + digitValue c < wordLimit then takeDigits (whole * 10 + digitValue c) rest
    else (whole, c :: rest)

def digitsValue (digits : List Char) : Nat :=
  digits.foldl (fun n c => n * 10 + digitValue c) 0

structure Numeral where
  negative : Bool
  whole : List Char
  fraction : Option (List Char)
  exponent : Option Int

def spanDigits (text : List Char) : List Char × List Char :=
  (text.takeWhile Char.isDigit, text.dropWhile Char.isDigit)

def fraction? : List Char → Option (Option (List Char) × List Char)
  | '.' :: rest =>
    match spanDigits rest with
    | ([], _) => none
    | (digits, rest) => some (some digits, rest)
  | text => some (none, text)

def exponentDigits? (negative : Bool) (text : List Char) : Option (Option Int) :=
  match spanDigits text with
  | (digit :: digits, []) =>
    let value : Int := digitsValue (digit :: digits)
    some (some (if negative then -value else value))
  | _ => none

def exponent? : List Char → Option (Option Int)
  | [] => some none
  | c :: rest =>
    if c = 'e' ∨ c = 'E' then
      match rest with
      | '+' :: digits => exponentDigits? false digits
      | '-' :: digits => exponentDigits? true digits
      | digits => exponentDigits? false digits
    else none

def numeral? (text : List Char) : Option Numeral :=
  let (negative, text) :=
    match text with
    | '-' :: rest => (true, rest)
    | _ => (false, text)
  match spanDigits text with
  | ([], _) => none
  | ('0' :: _ :: _, _) => none
  | (whole, rest) =>
    match fraction? rest with
    | none => none
    | some (fraction, rest) =>
      (exponent? rest).map fun exponent => ⟨negative, whole, fraction, exponent⟩

/-- The floating point number of a numeral. The digits that fit into 64 bits
count; a digit of the whole part that does not fit is replaced by a power of
ten, and one of the fraction is dropped. -/
def Numeral.float? (numeral : Numeral) : Option Number :=
  let (significand, left) := takeDigits 0 numeral.whole
  let fraction := numeral.fraction.getD []
  let (significand, dropped) := takeDigits significand fraction
  let exponent : Int := left.length - (fraction.length - dropped.length : Nat)
  (Binary64.ofDecimal? numeral.negative significand (exponent + numeral.exponent.getD 0)).map
    Number.float

/-- The value of a numeral. Digits alone are a whole number if it fits into 64
bits, with a sign or without; everything else is a floating point number, and so
is zero with a minus sign. -/
def Numeral.value? (numeral : Numeral) : Option Number :=
  match numeral.fraction, numeral.exponent with
  | none, none =>
    let n := digitsValue numeral.whole
    if numeral.negative then
      if 0 < n ∧ n ≤ wordLimit / 2 then some (.integer (-n)) else numeral.float?
    else if n < wordLimit then some (.integer n)
    else numeral.float?
  | _, _ => numeral.float?

/-- A part of a string: a character, or one of the 16-bit units that an escape
with four hexadecimal digits stands for. -/
inductive Piece where
  | char (c : Char)
  | unit (code : Nat)

def isLeading (code : Nat) : Bool :=
  0xD800 ≤ code && code < 0xDC00

def isTrailing (code : Nat) : Bool :=
  0xDC00 ≤ code && code < 0xE000

/-- The characters that the parts of a string stand for. Two units of a
surrogate pair that follow each other directly are one character, and one of
them alone is none. -/
def joinPieces? : List Piece → Option (List Char)
  | [] => some []
  | .char c :: rest => (joinPieces? rest).map (c :: ·)
  | .unit a :: .unit b :: rest =>
    if isLeading a then
      if isTrailing b then
        (joinPieces? rest).map (Char.ofNat (0x10000 + (a - 0xD800) * 0x400 + (b - 0xDC00)) :: ·)
      else none
    else if isTrailing a then none
    else (joinPieces? (.unit b :: rest)).map (Char.ofNat a :: ·)
  | .unit a :: rest =>
    if isLeading a || isTrailing a then none
    else (joinPieces? rest).map (Char.ofNat a :: ·)

def hexValue? (c : Char) : Option Nat :=
  if '0' ≤ c ∧ c ≤ '9' then some (c.toNat - 48)
  else if 'a' ≤ c ∧ c ≤ 'f' then some (c.toNat - 87)
  else if 'A' ≤ c ∧ c ≤ 'F' then some (c.toNat - 55)
  else none

def simpleEscape? : Char → Option Char
  | '"' => some '"'
  | '\\' => some '\\'
  | '/' => some '/'
  | 'b' => some (Char.ofNat 8)
  | 'f' => some (Char.ofNat 12)
  | 'n' => some '\n'
  | 'r' => some '\r'
  | 't' => some '\t'
  | _ => none

/-- What a scan remembers between two characters. Parts already seen are kept in
reverse. -/
inductive Scan where
  | between
  | number (seen : List Char)
  | word (seen : List Char)
  | text (seen : List Piece)
  | backslash (seen : List Piece)
  | unit (seen : List Piece) (digits : Nat) (code : Nat)

def isNumberChar (c : Char) : Bool :=
  c.isDigit || c == '-' || c == '+' || c == '.' || c == 'e' || c == 'E'

def wordToken? (word : List Char) : Option Token :=
  if word = "null".toList then some .null
  else if word = "true".toList then some (.bool true)
  else if word = "false".toList then some (.bool false)
  else none

def numberToken? (text : List Char) : Option Token :=
  (numeral? text).map fun numeral => .number numeral.value?

def stringToken (pieces : List Piece) : Token :=
  .string ((joinPieces? pieces).map String.ofList)

def begin? (c : Char) : Option (List Token × Scan) :=
  if c = ' ' ∨ c = '\n' ∨ c = '\t' ∨ c = '\r' then some ([], .between)
  else if c = '[' then some ([.openArray], .between)
  else if c = ']' then some ([.closeArray], .between)
  else if c = '\x7b' then some ([.openObject], .between)
  else if c = '\x7d' then some ([.closeObject], .between)
  else if c = ',' then some ([.comma], .between)
  else if c = ':' then some ([.colon], .between)
  else if c = '"' then some ([], .text [])
  else if c.isDigit || c == '-' then some ([], .number [c])
  else if c.isLower then some ([], .word [c])
  else none

/-- Reads one character: the tokens that it completes, and how the scan goes on.
A control character cannot stand in a string. -/
def step? : Scan → Char → Option (List Token × Scan)
  | .between, c => begin? c
  | .number seen, c =>
    if isNumberChar c then some ([], .number (c :: seen))
    else
      match numberToken? seen.reverse, begin? c with
      | some token, some (tokens, next) => some (token :: tokens, next)
      | _, _ => none
  | .word seen, c =>
    if c.isLower then some ([], .word (c :: seen))
    else
      match wordToken? seen.reverse, begin? c with
      | some token, some (tokens, next) => some (token :: tokens, next)
      | _, _ => none
  | .text seen, c =>
    if c = '"' then some ([stringToken seen.reverse], .between)
    else if c = '\\' then some ([], .backslash seen)
    else if c.toNat < 32 then none
    else some ([], .text (.char c :: seen))
  | .backslash seen, c =>
    if c = 'u' then some ([], .unit seen 0 0)
    else (simpleEscape? c).map fun c => ([], .text (.char c :: seen))
  | .unit seen digits code, c =>
    (hexValue? c).map fun value =>
      if digits = 3 then ([], .text (.unit (code * 16 + value) :: seen))
      else ([], .unit seen (digits + 1) (code * 16 + value))

def finish? : Scan → Option (List Token)
  | .between => some []
  | .number seen => (numberToken? seen.reverse).map ([·])
  | .word seen => (wordToken? seen.reverse).map ([·])
  | _ => none

def tokensFrom? (found : List Token) (scan : Scan) : List Char → Option (List Token)
  | [] => (finish? scan).map fun tokens => found.reverse ++ tokens
  | c :: rest =>
    match step? scan c with
    | none => none
    | some (tokens, next) => tokensFrom? (tokens.reverse ++ found) next rest

def tokens? (text : String) : Option (List Token) :=
  tokensFrom? [] .between text.toList

end DocumentQuery.Json
