import PackageTriage.Decimal.Reading

/-!
# Numbers in JSON

Which float a number in a text stands for is up to the reader of numbers. The one that runs is quick and not always
exact: it collects digits in a word of 64 bits, takes the word for a float, and multiplies or divides that by a power
of ten. Every step rounds, and so the float need not be the nearest to what is written.
-/

namespace PackageTriage.Json

/-- How the characters of a number are turned into a float, if there is one for them. -/
class NumberReader where
  read : String → Option Float

/-- Digits behind a number, collected as long as it fits into 64 bits, and the digits left over. -/
def collect (n : Nat) : List Char → Nat × List Char
  | [] => (n, [])
  | d :: ds =>
    let longer := 10 * n + (d.toNat - '0'.toNat)
    if longer < Nat.pow 2 64 then collect longer ds else (n, d :: ds)

/-- The greatest power of ten below which all are floats. -/
def greatestPower : Nat := 308

def power (e : Nat) : Float := Decimal.nearest 1 e

/-- Divide by the greatest power of ten a number of times, as long as anything is left. -/
def lower (f : Float) : Nat → Float
  | 0 => f
  | times + 1 => if f == 0 then f else lower (f / power greatestPower) times

/-- Multiply a float by `10 ^ e`. For too large a power there is none, and too small a power is divided by in steps. -/
def scale (f : Float) : (e : Int) → Option Float
  | .ofNat e =>
    if e ≤ greatestPower then some (f * power e) else if f == 0 then some f else none
  | .negSucc e => some (lower f (e / greatestPower) / power (e % greatestPower + 1))

/-- A number without its sign. A digit left over in front of the point counts as a power of ten, one behind it as
nothing. -/
def readMagnitude (cs : List Char) : Option Float :=
  let (whole, rest) := Decimal.spanDigits cs
  let (fraction, rest) := match rest with
    | '.' :: rest => Decimal.spanDigits rest
    | rest => ([], rest)
  let (n, beyond) := collect 0 whole
  let (m, cut) := collect n fraction
  (Decimal.readExponent rest).bind fun e =>
    scale (Decimal.nearest m 0) (e + beyond.length - (fraction.length - cut.length))

def readQuickly (w : String) : Option Float :=
  match w.toList with
  | '-' :: cs => (readMagnitude cs).map (- ·)
  | cs => readMagnitude cs

instance : NumberReader := ⟨readQuickly⟩

end PackageTriage.Json
