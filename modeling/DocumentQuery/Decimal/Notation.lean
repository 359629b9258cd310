import DocumentQuery.Decimal.Shortest
/-!
# Notation of numbers

How a number is written: whole numbers with all their digits, floating point
numbers with the fewest digits that read back as the same number. A floating
point number always shows a point or an exponent, so it is never taken for a
whole number.
-/

namespace DocumentQuery.Decimal

/-- The layout of floating point numbers: from which power of the first digit to
which they are written without an exponent. -/
structure Layout where
  leastPositional : Int
  greatestPositional : Int

def layout : Layout := ⟨-5, 15⟩

def zeros (count : Nat) : List Char :=
  List.replicate count '0'

def positional (digits : List Char) (exponent : Int) : List Char :=
  if 0 ≤ exponent then digits ++ zeros exponent.toNat ++ ['.', '0']
  else
    let places := (-exponent).toNat
    if places < digits.length then
      digits.take (digits.length - places) ++ '.' :: digits.drop (digits.length - places)
    else '0' :: '.' :: zeros (places - digits.length) ++ digits

/-- A decimal with an exponent: one digit before the point, and no point if no
digit follows it. -/
def withExponent (digits : List Char) (power : Int) : List Char :=
  let mantissa :=
    match digits with
    | first :: second :: rest => first :: '.' :: second :: rest
    | _ => digits
  let sign := if power < 0 then '-' else '+'
  mantissa ++ 'e' :: sign :: Nat.toDigits 10 power.natAbs

def write (layout : Layout) (decimal : Scientific) : List Char :=
  let digits := Nat.toDigits 10 decimal.digits
  let power := decimal.exponent + digits.length - 1
  if layout.leastPositional ≤ power ∧ power ≤ layout.greatestPositional then
    positional digits decimal.exponent
  else withExponent digits power

def floatText (x : Binary64) : String :=
  let magnitude := if x.units = 0 then ['0', '.', '0'] else write layout (shortest x.units)
  String.ofList (if x.negative then '-' :: magnitude else magnitude)

end DocumentQuery.Decimal
