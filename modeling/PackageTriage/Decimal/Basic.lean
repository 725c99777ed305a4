/-!
# Decimal numbers

A positive number in decimal: its significant digits and the power of ten of the first one. A
positive rational is given by numerator and denominator, a binary float by mantissa and exponent.
-/

namespace PackageTriage

/-- The number `d.ddd… × 10 ^ exponent`, where the digits are `d`, `d`, `d`, … -/
structure Decimal where
  digits : List Nat
  exponent : Int
  deriving DecidableEq, Repr

namespace Decimal

/-- How many decimal digits a number has; zero has none. -/
def width (n : Nat) : Nat := if n = 0 then 0 else (Nat.toDigits 10 n).length

/-- The decimal digits of a number, first one first. -/
def digitsOf (n : Nat) : List Nat := (Nat.toDigits 10 n).map fun c => c.toNat - '0'.toNat

/-- The exponent `k` with `10 ^ k ≤ num / den < 10 ^ (k + 1)`, for positive `num` and `den`. -/
def leadingExponent (num den : Nat) : Int :=
  if den ≤ num then (width (num / den) : Int) - 1
  else -(width ((den + num - 1) / num - 1) : Int)

def dropTrailingZeros (ds : List Nat) : List Nat := (ds.reverse.dropWhile (· == 0)).reverse

def ofScaled (n : Nat) (unit : Int) : Decimal :=
  let ds := digitsOf n
  ⟨ds, unit + ds.length - 1⟩

/-- The two integers whose quotient is `m × 2 ^ e`. -/
def binaryRatio (m : Nat) (e : Int) : Nat × Nat :=
  (m * Nat.pow 2 e.toNat, Nat.pow 2 (-e).toNat)

/-- The quotient `num / den` counted in units of `10 ^ unit`, again as a quotient. -/
def inUnits (num den : Nat) (unit : Int) : Nat × Nat :=
  (num * Nat.pow 10 (-unit).toNat, den * Nat.pow 10 unit.toNat)

/-- What becomes of a number that lies exactly between two neighbours of a grid. -/
inductive Tie where
  | up
  | even
  deriving DecidableEq, Repr

/-- The nearer of `n / d`'s two integer neighbours. -/
def roundQuotient (tie : Tie) (n d : Nat) : Nat :=
  let q := n / d
  let r := n % d
  if 2 * r < d then q
  else if d < 2 * r then q + 1
  else match tie with
    | .up => q + 1
    | .even => q + q % 2

/-- The decimal with `count` digits nearest to `m × 2 ^ e`, for positive `m` and `count`. A half goes to the even
neighbour. -/
def rounded (count : Nat) (m : Nat) (e : Int) : Decimal :=
  let (num, den) := binaryRatio m e
  let unit := leadingExponent num den - count + 1
  let (n, d) := inUnits num den unit
  let r := ofScaled (roundQuotient .even n d) unit
  { r with digits := r.digits.take count }

end Decimal

end PackageTriage
