import PackageTriage.Decimal.Basic

/-!
# The fewest digits that read back

A binary float stands for every real that rounds to it: the reals between the midpoints to its two
neighbours, the midpoints included exactly when its mantissa is even. Of the decimals in that
interval `shortest` gives one with the fewest digits, and of those the nearest.

For each number of digits only the two grid points around the float need a look: when a grid point
lies in the interval, so does one of these two.
-/

namespace PackageTriage.Decimal

/-- The reals that round to `m × 2 ^ e`, as quotients over one denominator. -/
structure Interval where
  low : Nat
  mid : Nat
  high : Nat
  den : Nat
  closed : Bool

/-- Below a power of two the neighbour is half as far away, except at the smallest exponent. -/
def Interval.ofBinary (m : Nat) (e : Int) : Interval :=
  let below := if m = Nat.pow 2 52 ∧ -1074 < e then 1 else 2
  let (num, den) := binaryRatio 1 e
  ⟨(4 * m - below) * num, 4 * m * num, (4 * m + 2) * num, 4 * den, m % 2 = 0⟩

def Interval.inUnits (i : Interval) (unit : Int) : Interval :=
  let s := Nat.pow 10 (-unit).toNat
  ⟨i.low * s, i.mid * s, i.high * s, i.den * Nat.pow 10 unit.toNat, i.closed⟩

def Interval.holds (i : Interval) (c : Nat) : Bool :=
  if i.closed then i.low ≤ c * i.den && c * i.den ≤ i.high
  else i.low < c * i.den && c * i.den < i.high

/-- The neighbour of the middle that lies in the interval; of two the nearer. -/
def Interval.integer? (tie : Tie) (i : Interval) : Option Nat :=
  let below := i.mid / i.den
  match i.holds below, i.holds (below + 1) with
  | true, true => some (roundQuotient tie i.mid i.den)
  | true, false => some below
  | false, true => some (below + 1)
  | false, false => none

/-- Try grids of `count` digits, then of one more, and so on; `steps` bounds the trials. -/
def shortestFrom (tie : Tie) (i : Interval) (leading : Int) : (steps count : Nat) → Decimal
  | 0, count =>
    let unit := leading - count + 1
    ofScaled (roundQuotient tie (i.inUnits unit).mid (i.inUnits unit).den) unit
  | steps + 1, count =>
    let unit := leading - count + 1
    match (i.inUnits unit).integer? tie with
    | some c => ofScaled c unit
    | none => shortestFrom tie i leading steps (count + 1)

/-- The shortest decimal that reads back as `m × 2 ^ e`; seventeen digits always suffice. -/
def shortest (tie : Tie) (m : Nat) (e : Int) : Decimal :=
  let (num, den) := binaryRatio m e
  let d := shortestFrom tie (.ofBinary m e) (leadingExponent num den) 16 1
  { d with digits := dropTrailingZeros d.digits }

end PackageTriage.Decimal
