/-!
# Reading numbers

The texts that stand for a float: an optional sign, then digits with at most one point among them
and an optional power of ten, or one of the words `inf`, `infinity` and `nan` in any case. The value
is the float nearest to the decimal, a tie going to the even mantissa; too large a number is
infinite and too small a one is zero.
-/

namespace PackageTriage.Decimal

/-- The number that a digit sequence stands for, continuing `n`. -/
def digitsToNat (ds : List Char) (n : Nat) : Nat :=
  ds.foldl (fun n c => 10 * n + (c.toNat - '0'.toNat)) n

/-- The natural number of 64 bits that a text stands for: digits, perhaps behind a plus sign. -/
def readNatural? (s : String) : Option Nat :=
  let ds := match s.toList with
    | '+' :: ds => ds
    | ds => ds
  if ds.isEmpty || !ds.all Char.isDigit then none
  else
    let n := digitsToNat ds 0
    if n < Nat.pow 2 64 then some n else none

/-- The nearest float to `m × 10 ^ e`. -/
def nearest (m : Nat) (e : Int) : Float :=
  Float.ofScientific m (e < 0) e.natAbs

def spanDigits (cs : List Char) : List Char × List Char := cs.span Char.isDigit

/-- The power of ten that ends a number: nothing, or `e`, an optional sign and digits. -/
def readExponent : List Char → Option Int
  | [] => some 0
  | c :: cs =>
    if c = 'e' ∨ c = 'E' then
      let (negative, ds) := match cs with
        | '-' :: rest => (true, rest)
        | '+' :: rest => (false, rest)
        | rest => (false, rest)
      if ds.isEmpty || !ds.all Char.isDigit then none
      else
        let n : Int := digitsToNat ds 0
        some (if negative then -n else n)
    else none

def readMagnitude (cs : List Char) : Option Float :=
  let word := String.ofList (cs.map Char.toLower)
  if word = "inf" ∨ word = "infinity" then some (1.0 / 0.0)
  else if word = "nan" then some (0.0 / 0.0)
  else
    let (whole, rest) := spanDigits cs
    let (fraction, rest) := match rest with
      | '.' :: rest => spanDigits rest
      | rest => ([], rest)
    if whole.isEmpty && fraction.isEmpty then none
    else (readExponent rest).map fun e =>
      nearest (digitsToNat fraction (digitsToNat whole 0)) (e - fraction.length)

/-- The float that a text stands for, if it is written as a number. -/
def readFloat? (s : String) : Option Float :=
  match s.toList with
  | '-' :: cs => (readMagnitude cs).map (- ·)
  | '+' :: cs => readMagnitude cs
  | cs => readMagnitude cs

end PackageTriage.Decimal
