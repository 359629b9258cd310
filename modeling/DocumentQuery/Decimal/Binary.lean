/-!
# Binary floating point numbers

A finite 64-bit floating point number is a sign and a whole number of units of
2⁻¹⁰⁷⁴, the least positive number of the format. Counting in these units makes
every operation a question about natural numbers: a quotient is rounded to the
nearest multiple of the spacing that the format has at its size, and of two
neighbours at the same distance the one with the even multiple is taken.

`ofDecimal?` reads a decimal. The digits come as one whole number and a power of
ten; both are rounded to the format before they are multiplied or divided, so
the last place of a number of many digits can differ from that of the nearest
one.
-/

namespace DocumentQuery

/-- A finite number of the 64-bit binary format: `units` times 2⁻¹⁰⁷⁴, with a
sign that zero has too. -/
structure Binary64 where
  negative : Bool
  units : Nat
deriving DecidableEq

namespace Binary64

def one : Nat := Nat.pow 2 1074

/-- The first number of units that is out of the range of the format. -/
def overflow : Nat := Nat.pow 2 2098

/-- The spacing of the format at a number of units: 53 binary digits are kept. -/
def spacing (units : Nat) : Nat :=
  Nat.pow 2 (units.log2 + 1 - 53)

/-- The whole number nearest to `numerator / denominator`, the even one of two. -/
def nearestEven (numerator denominator : Nat) : Nat :=
  let quotient := numerator / denominator
  let twice := 2 * (numerator % denominator)
  if twice < denominator then quotient
  else if twice > denominator then quotient + 1
  else if quotient % 2 == 0 then quotient
  else quotient + 1

def round (numerator denominator : Nat) : Nat :=
  let step := spacing (numerator / denominator)
  nearestEven numerator (denominator * step) * step

def ofNat (n : Nat) : Nat :=
  round (n * one) 1

def powerOfTen (exponent : Nat) : Nat :=
  ofNat (Nat.pow 10 exponent)

def greatestExponent : Nat := 308

def scaleUp (units exponent : Nat) : Option Nat :=
  if units = 0 then some 0
  else if exponent ≤ greatestExponent then
    let product := round (units * powerOfTen exponent) one
    if product < overflow then some product else none
  else none

/-- Divides by a power of ten, in steps of the greatest one. -/
def scaleDown (units exponent : Nat) : Nat :=
  if exponent ≤ greatestExponent then round (units * one) (powerOfTen exponent)
  else if units = 0 then 0
  else scaleDown (round (units * one) (powerOfTen greatestExponent)) (exponent - greatestExponent)
termination_by exponent
decreasing_by simp only [greatestExponent] at *; omega

def ofDecimal? (negative : Bool) (significand : Nat) (exponent : Int) : Option Binary64 :=
  let units := ofNat significand
  if 0 ≤ exponent then (scaleUp units exponent.toNat).map (⟨negative, ·⟩)
  else some ⟨negative, scaleDown units (-exponent).toNat⟩

def unsignedZero (x : Binary64) : Binary64 :=
  if x.units = 0 then ⟨false, 0⟩ else x

end Binary64

end DocumentQuery
