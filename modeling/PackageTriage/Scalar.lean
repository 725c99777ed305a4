import PackageTriage.Decimal.Style

/-!
# Scalars

The arithmetic that the classifiers, scalers and scores are written over. Running, a scalar is a
binary float; a statement in exact arithmetic reads the same definitions over a field.

Comparisons are Boolean: a float that is not a number is neither below, nor above, nor the same as
any scalar, itself included. `rank` is the total order that sorts scalars, negative zero before
zero and what is not a number last.
-/

namespace PackageTriage

class Scalar (α : Type) extends Zero α, One α, Add α, Sub α, Mul α, Div α, Neg α, NatCast α where
  /-- The scalar `m / 10 ^ e`. -/
  decimal (m e : Nat) : α
  infinity : α
  /-- The smallest positive scalar of full precision. -/
  leastNormal : α
  less : α → α → Bool
  atMost : α → α → Bool
  same : α → α → Bool
  rank : α → α → Bool
  isNumber : α → Bool
  isFinite : α → Bool
  abs : α → α
  sqrt : α → α
  exp : α → α
  log : α → α
  tanh : α → α
  /-- `fma a b c` is `a * b + c`, rounded once. -/
  fma : α → α → α → α
  /-- The nearest integer, a half going away from zero, kept within 64 bits. -/
  round : α → Int
  /-- The largest natural number that is not above the scalar, zero for a negative one. -/
  floor : α → Nat
  /-- How the scalar is written in reports, labels and messages. -/
  text : α → String
  /-- How a message shows the scalar in a list of values. -/
  shown : α → String

namespace Scalar

variable {α : Type} [Scalar α]

/-- The lesser of two scalars, the second if neither is less. What is not a number is passed over. -/
def min (a b : α) : α := if less a b || !isNumber b then a else b

/-- The greater of two scalars, the second if neither is greater. What is not a number is passed
over. -/
def max (a b : α) : α := if less b a || !isNumber b then a else b

def clamp (x low high : α) : α := if less x low then low else if less high x then high else x

def half : α := decimal 5 1

def two : α := ((2 : Nat) : α)

def sq (x : α) : α := x * x

/-- The power, by repeated squaring. The product of the squares taken so far is `acc`. -/
def powAcc (acc base : α) (n : Nat) : α :=
  if h : n = 0 then acc
  else
    let acc := if n % 2 = 1 then acc * base else acc
    if n / 2 = 0 then acc else powAcc acc (base * base) (n / 2)
termination_by n

def pow (base : α) (n : Nat) : α := powAcc 1 base n

def sum (xs : List α) : α := xs.foldl (· + ·) 0

def dot (xs ys : List α) : α := sum (List.zipWith (· * ·) xs ys)

end Scalar

namespace Binary

open Float.Model UnpackedFloat

/-- The float nearest to `m × 2 ^ e`, a tie going to the even mantissa. -/
def nearest (m e : Int) : Float := .ofModel (.pack (normalize Format.binary64 m e .positive))

/-- The bits in an order that rises with the float. -/
def orderKey (x : Float) : UInt64 :=
  let b := x.toBits
  if b >>> 63 = 1 then ~~~b else b ^^^ 0x8000000000000000

def parts? (x : Float) : Option (Int × Int) :=
  match x.toModel.unpack with
  | .zero _ => some (0, 0)
  | .finite s m e _ => some (s.apply m, e)
  | _ => none

/-- `a * b + c` of finite floats is computed exactly and rounded once; an exact zero has the sign
that product and addend agree on. -/
def fma (a b c : Float) : Float :=
  match parts? a, parts? b, parts? c with
  | some (ma, ea), some (mb, eb), some (mc, ec) =>
    if (ma = 0 ∨ mb = 0) ∧ mc = 0 then a * b + c
    else
      let e := Min.min (ea + eb) ec
      nearest (ma * mb * Nat.pow 2 (ea + eb - e).toNat + mc * Nat.pow 2 (ec - e).toNat) e
  | _, _, none => if a.isFinite && b.isFinite then c else a * b + c
  | _, _, _ => a * b + c

/-- The nearest integer, a half going away from zero; beyond 64 bits the nearest end of their range. -/
def round (x : Float) : Int :=
  match x.toModel.unpack with
  | .notANumber => 0
  | .zero _ => 0
  | .infinity s => s.apply (Nat.pow 2 63) |> Min.min (Nat.pow 2 63 - 1)
  | .finite s m e _ =>
    let (num, den) := Decimal.binaryRatio m e
    let n := (2 * num + den) / (2 * den)
    s.apply (Min.min n (Nat.pow 2 63) : Nat) |> Min.min (Nat.pow 2 63 - 1)

end Binary

instance : Scalar Float where
  zero := 0.0
  one := 1.0
  natCast n := Float.ofNat n
  decimal m e := Float.ofScientific m true e
  infinity := 1.0 / 0.0
  leastNormal := Float.ofBits 0x0010000000000000
  less a b := a < b
  atMost a b := a ≤ b
  same a b := a == b
  rank a b := Binary.orderKey a ≤ Binary.orderKey b
  isNumber x := !x.isNaN
  isFinite := Float.isFinite
  abs := Float.abs
  sqrt := Float.sqrt
  exp := Float.exp
  log := Float.log
  tanh := Float.tanh
  fma := Binary.fma
  round := Binary.round
  floor x := x.toUInt64.toNat
  text := NumberStyle.plain.render
  shown := NumberStyle.listed.render

end PackageTriage
