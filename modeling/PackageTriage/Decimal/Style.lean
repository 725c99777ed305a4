import PackageTriage.Decimal.Shortest

/-!
# Written numbers

How a float is written where the program writes one: positionally or with a power of ten, with or
without a mark that tells a whole float from an integer. Zeros keep their sign.
-/

namespace PackageTriage

open Float.Model (UnpackedFloat)

namespace Decimal

def digitChars (ds : List Nat) : List Char := ds.map Nat.digitChar

/-- The first digit, a point if more follow, and the power of ten after an `e`. -/
def scientific (d : Decimal) (plus : Bool) : String :=
  let mark := if plus ∧ 0 ≤ d.exponent then "+" else ""
  let tail := match d.digits.drop 1 with
    | [] => ""
    | rest => "." ++ String.ofList (digitChars rest)
  String.ofList (digitChars (d.digits.take 1)) ++ tail ++ "e" ++ mark ++ toString d.exponent

/-- Every digit at its place; `whole` is written after a number without a fraction. -/
def positional (d : Decimal) (whole : String) : String :=
  if d.exponent < 0 then
    let zeros := List.replicate ((-d.exponent).toNat - 1) '0'
    "0." ++ String.ofList (zeros ++ digitChars d.digits)
  else
    let count := d.exponent.toNat + 1
    let ds := digitChars d.digits
    if ds.length ≤ count then
      String.ofList (ds ++ List.replicate (count - ds.length) '0') ++ whole
    else String.ofList (ds.take count) ++ "." ++ String.ofList (ds.drop count)

end Decimal

/-- How floats with the fewest digits are written in one kind of text. -/
structure NumberStyle where
  /-- The powers of ten of the first digit that are written positionally. -/
  isPositional : Int → Bool
  /-- What follows a whole number. -/
  whole : String
  /-- Whether a power of ten that is not negative gets a plus sign. -/
  plus : Bool
  tie : Decimal.Tie

namespace NumberStyle

/-- Reports, labels and messages: never a power of ten. -/
def plain : NumberStyle := ⟨fun _ => true, "", false, .up⟩

/-- Lists of allowed values in messages: a whole float ends in `.0`, very large and very small ones
have a power of ten. -/
def listed : NumberStyle := ⟨fun e => -4 ≤ e && e < 16, ".0", false, .up⟩

def settings : NumberStyle := ⟨fun e => -5 ≤ e && e < 16, ".0", true, .even⟩

/-- Exact exchange: always a power of ten. -/
def exact : NumberStyle := ⟨fun _ => false, "", false, .up⟩

def signed (s : UnpackedFloat.Sign) (text : String) : String :=
  match s with
  | .negative => "-" ++ text
  | .positive => text

def render (style : NumberStyle) (x : Float) : String :=
  let write (d : Decimal) : String :=
    if style.isPositional d.exponent then d.positional style.whole else d.scientific style.plus
  match x.toModel.unpack with
  | .notANumber => "NaN"
  | .infinity s => signed s "inf"
  | .zero s => signed s (write ⟨[0], 0⟩)
  | .finite s m e _ => signed s (write (Decimal.shortest style.tie m e))

/-- The text of a float with a fixed number of significant digits and a power of ten. -/
def renderRounded (count : Nat) (x : Float) : String :=
  match x.toModel.unpack with
  | .notANumber => "NaN"
  | .infinity s => signed s "inf"
  | .zero s => signed s (Decimal.scientific ⟨List.replicate count 0, 0⟩ false)
  | .finite s m e _ => signed s ((Decimal.rounded count m e).scientific false)

end NumberStyle

end PackageTriage
