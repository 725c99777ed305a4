import PackageTriage.Proofs.Scalar.Reals

/-!
# Arithmetic that notices division by zero

In the reals as scalars a quotient by zero is zero. Here it is undefined, and so is all that is computed from it; no
comparison holds of it. What comes out as a value was found without dividing by zero.
-/

namespace PackageTriage

/-- A real number, or what comes of dividing by zero. -/
inductive Checked where
  | value (x : ℝ)
  | undefined

namespace Checked

noncomputable def map (f : ℝ → ℝ) : Checked → Checked
  | value a => value (f a)
  | undefined => undefined

noncomputable def map₂ (f : ℝ → ℝ → ℝ) : Checked → Checked → Checked
  | value a, value b => value (f a b)
  | _, _ => undefined

open Classical in
/-- The quotient by anything but zero. -/
noncomputable def quotient : Checked → Checked → Checked
  | value a, value b => if b = 0 then undefined else value (a / b)
  | _, _ => undefined

noncomputable def compare (holds : ℝ → ℝ → Bool) : Checked → Checked → Bool
  | value a, value b => holds a b
  | _, _ => false

/-- What a real that is given is turned into, or what stands for nothing. -/
def ask {β : Type} (f : ℝ → β) (nothing : β) : Checked → β
  | value a => f a
  | undefined => nothing

end Checked

open Checked in
noncomputable instance : Scalar Checked where
  zero := value 0
  one := value 1
  add := map₂ (· + ·)
  sub := map₂ (· - ·)
  mul := map₂ (· * ·)
  div := quotient
  neg := map (- ·)
  natCast n := value n
  decimal m e := value (Scalar.decimal m e)
  infinity := value Scalar.infinity
  leastNormal := value Scalar.leastNormal
  less := compare Scalar.less
  atMost := compare Scalar.atMost
  same := compare Scalar.same
  rank := compare Scalar.rank
  isNumber := ask Scalar.isNumber false
  isFinite := ask Scalar.isFinite false
  abs := map Scalar.abs
  sqrt := map Scalar.sqrt
  exp := map Scalar.exp
  log := map Scalar.log
  tanh := map Scalar.tanh
  fma a b c := map₂ (· + ·) (map₂ (· * ·) a b) c
  round := ask Scalar.round 0
  floor := ask Scalar.floor 0
  text := ask Scalar.text "undefined"
  shown := ask Scalar.shown "undefined"

namespace Checked

variable (a b : ℝ)

@[simp] theorem natCast_eq (n : Nat) : (n : Checked) = value n := rfl

@[simp] theorem value_add : value a + value b = value (a + b) := rfl

@[simp] theorem value_sub : value a - value b = value (a - b) := rfl

@[simp] theorem value_div {b : ℝ} (hb : b ≠ 0) : value a / value b = value (a / b) := if_neg hb

/-- Dividing by zero is noticed. -/
theorem div_zero_eq : value a / value 0 = undefined := if_pos rfl

@[simp] theorem sqrt_value : Scalar.sqrt (value a) = value (Scalar.sqrt a) := rfl

end Checked

end PackageTriage
