import PackageTriage.Statistics
import PackageTriage.Proofs.Scalar.Reals

/-!
# Extremes in exact arithmetic

The least number of a sequence that has any is one of them, and none is below it. The greatest is one of them, and
none is above it.
-/

namespace PackageTriage.Statistics

variable {xs : List ℝ}

theorem isLeast_foldl_min (a : ℝ) (xs : List ℝ) : IsLeast {v | v ∈ a :: xs} (xs.foldl Scalar.min a) := by
  have hmin : (Scalar.min : ℝ → ℝ → ℝ) = Min.min := funext₂ Scalar.min_real
  have hfold : (a :: xs).min? = some (xs.foldl Min.min a) := List.min?_cons'
  have hleast := List.min?_eq_some_iff.1 hfold
  rw [hmin]
  exact ⟨hleast.1, hleast.2⟩

theorem isGreatest_foldl_max (a : ℝ) (xs : List ℝ) : IsGreatest {v | v ∈ a :: xs} (xs.foldl Scalar.max a) := by
  have hmax : (Scalar.max : ℝ → ℝ → ℝ) = Max.max := funext₂ Scalar.max_real
  have hfold : (a :: xs).max? = some (xs.foldl Max.max a) := List.max?_cons'
  have hgreatest := List.max?_eq_some_iff.1 hfold
  rw [hmax]
  exact ⟨hgreatest.1, hgreatest.2⟩

/-- Every real is a number. -/
theorem filter_isNumber (xs : List ℝ) : xs.filter Scalar.isNumber = xs :=
  List.filter_eq_self.2 fun v _ => Scalar.isNumber_real v

theorem isLeast_least (h : xs ≠ []) : IsLeast {v | v ∈ xs} (least xs) := by
  rw [least, filter_isNumber]
  match xs, h with
  | x :: xs, _ => exact isLeast_foldl_min x xs

theorem isGreatest_greatest (h : xs ≠ []) : IsGreatest {v | v ∈ xs} (greatest xs) := by
  rw [greatest, filter_isNumber]
  match xs, h with
  | x :: xs, _ => exact isGreatest_foldl_max x xs

theorem least_le_greatest (h : xs ≠ []) : least xs ≤ greatest xs :=
  (isLeast_least h).2 (isGreatest_greatest h).1

end PackageTriage.Statistics
