import PackageTriage.Scalar
import Mathlib

/-!
# Exact arithmetic

The reals as scalars: nothing is rounded, every scalar is a finite number, and the order that sorts is the
order itself. There is no infinite real, and no text gives a real back; zero and a word stand in for them,
and no statement over the reals rests on either.
-/

namespace PackageTriage

-- Division is that of the field, for which there are lemmas, whichever way it is looked for.
noncomputable instance divReal : Div ℝ := DivInvMonoid.toDiv

open Classical in
noncomputable instance : Scalar ℝ where
  decimal m e := m / 10 ^ e
  infinity := 0
  leastNormal := 2 ^ (-1022 : ℤ)
  less a b := decide (a < b)
  atMost a b := decide (a ≤ b)
  same a b := decide (a = b)
  rank a b := decide (a ≤ b)
  isNumber _ := true
  isFinite _ := true
  abs x := |x|
  sqrt := Real.sqrt
  exp := Real.exp
  log := Real.log
  tanh := Real.tanh
  fma a b c := a * b + c
  round x := Max.max (-2 ^ 63) (Min.min (2 ^ 63 - 1) (if 0 ≤ x then ⌊x + 1 / 2⌋ else ⌈x - 1 / 2⌉))
  floor x := ⌊x⌋₊
  text _ := "real"
  shown _ := "real"

namespace Scalar

variable (a b : ℝ)

@[simp] theorem less_real : less a b = decide (a < b) := rfl

@[simp] theorem atMost_real : atMost a b = decide (a ≤ b) := rfl

@[simp] theorem same_real : same a b = decide (a = b) := rfl

@[simp] theorem rank_real : rank a b = decide (a ≤ b) := rfl

@[simp] theorem isNumber_real : isNumber a = true := rfl

@[simp] theorem two_real : (two : ℝ) = 2 := by
  rw [two]
  norm_num

theorem min_real : Scalar.min a b = Min.min a b := by
  simp only [Scalar.min, less_real, isNumber_real, Bool.not_true, Bool.or_false, decide_eq_true_eq]
  split
  · next h => exact (min_eq_left h.le).symm
  · next h => exact (min_eq_right (not_lt.1 h)).symm

theorem max_real : Scalar.max a b = Max.max a b := by
  simp only [Scalar.max, less_real, isNumber_real, Bool.not_true, Bool.or_false, decide_eq_true_eq]
  split
  · next h => exact (max_eq_left h.le).symm
  · next h => exact (max_eq_right (not_lt.1 h)).symm

/-- Between ends that stand in their order, the nearest real is found from either of them. -/
theorem clamp_real {low high : ℝ} (h : low ≤ high) (x : ℝ) :
    Scalar.clamp x low high = Max.max low (Min.min high x) := by
  simp only [Scalar.clamp, less_real, decide_eq_true_eq]
  split
  · next hlow => rw [min_eq_right (hlow.le.trans h), max_eq_left hlow.le]
  · next hlow =>
    split
    · next hhigh => rw [min_eq_left hhigh.le, max_eq_right h]
    · next hhigh => rw [min_eq_right (not_lt.1 hhigh), max_eq_right (not_lt.1 hlow)]

theorem sum_real (xs : List ℝ) : Scalar.sum xs = xs.sum := List.sum_eq_foldl.symm

end Scalar

end PackageTriage
