import DocumentQuery.Decimal.Binary
/-!
# Shortest decimals

Many decimals are read as the same floating point number: all those in the
interval that reaches halfway to its neighbours. `shortest` chooses among them one
with the fewest digits, and of these the one nearest to the number. All
comparisons are made by cross-multiplying natural numbers.
-/

namespace DocumentQuery.Decimal

structure Scientific where
  digits : Nat
  exponent : Int
deriving DecidableEq

def digitCount (n : Nat) : Nat :=
  (Nat.toDigits 10 n).length

/-- Whether the neighbour below is only half as far as the neighbour above:
the number is a power of two at which the spacing changes. -/
def narrowBelow (units : Nat) : Bool :=
  Binary64.spacing units > 1 && units == Nat.pow 2 units.log2

/-- The lower end of the interval of a number, in quarters of a unit. -/
def lowerEnd (units : Nat) : Nat :=
  4 * units - (if narrowBelow units then 1 else 2) * Binary64.spacing units

def upperEnd (units : Nat) : Nat :=
  4 * units + 2 * Binary64.spacing units

/-- Whether a decimal is read as the number. The ends of the interval belong to
it when the multiple of the spacing is even. -/
def readsAs (units : Nat) (decimal : Scientific) : Bool :=
  let place := Nat.pow 10 (-decimal.exponent).toNat
  let value := 4 * decimal.digits * Nat.pow 10 decimal.exponent.toNat * Binary64.one
  let low := lowerEnd units * place
  let high := upperEnd units * place
  if units / Binary64.spacing units % 2 == 0 then low ≤ value && value ≤ high
  else low < value && value < high

/-- The least power of ten that is greater than the number. -/
def scale (units : Nat) : Int :=
  if Binary64.one ≤ units then digitCount (units / Binary64.one)
  else 1 - digitCount ((Binary64.one - 1) / units)

def floorAt (units : Nat) (exponent : Int) : Nat :=
  units * Nat.pow 10 (-exponent).toNat / (Binary64.one * Nat.pow 10 exponent.toNat)

/-- Of a multiple of a power of ten and the next one, that which is nearer to
the number, or the even one. -/
def nearerAt (units : Nat) (exponent : Int) (below : Nat) : Nat :=
  let twice := 2 * units * Nat.pow 10 (-exponent).toNat
  let middle := (2 * below + 1) * Binary64.one * Nat.pow 10 exponent.toNat
  if twice < middle then below
  else if twice > middle then below + 1
  else if below % 2 == 0 then below
  else below + 1

def onGrid? (units : Nat) (exponent : Int) : Option Scientific :=
  let below := floorAt units exponent
  match readsAs units ⟨below, exponent⟩, readsAs units ⟨below + 1, exponent⟩ with
  | true, true => some ⟨nearerAt units exponent below, exponent⟩
  | true, false => some ⟨below, exponent⟩
  | false, true => some ⟨below + 1, exponent⟩
  | false, false => none

/-- The decimal on the coarsest of `count` grids, from the given exponent
downwards, that is read as the number; the exact value if there is none. -/
def search (units : Nat) : (count : Nat) → (exponent : Int) → Scientific
  | 0, _ => ⟨units * Nat.pow 5 1074, -1074⟩
  | count + 1, exponent =>
    match onGrid? units exponent with
    | some decimal => decimal
    | none => search units count (exponent - 1)

def stripZeros (digits : Nat) (exponent : Int) : Scientific :=
  if digits ≠ 0 ∧ digits % 10 = 0 then stripZeros (digits / 10) (exponent + 1)
  else ⟨digits, exponent⟩
termination_by digits
decreasing_by omega

def shortest (units : Nat) : Scientific :=
  let decimal := search units 17 (scale units - 1)
  stripZeros decimal.digits decimal.exponent

end DocumentQuery.Decimal
