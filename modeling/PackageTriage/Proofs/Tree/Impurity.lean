import PackageTriage.Proofs.Statistics.Sums
import PackageTriage.Proofs.Tree.Exhaustive

/-!
# What a split gains

In exact arithmetic a split gains, up to a positive factor, the squared differences of the shares that the classes
have on its two sides, added up over the classes. So it gains nothing exactly if every class has one share on both
sides, and a node is not worth splitting exactly if that is so at all of its boundaries.
-/

namespace PackageTriage

namespace ClassCounts

def join (left right : ClassCounts) : ClassCounts := List.zipWith (· + ·) left right

/-- Every class has the same share of `leftSize` samples as it has of `rightSize`. -/
def SameShares (left right : ClassCounts) (leftSize rightSize : ℕ) : Prop :=
  List.Forall₂ (fun a b : ℕ => (a : ℚ) / leftSize = b / rightSize) left right

/-- How far the shares of the classes are apart. -/
noncomputable def contrast (left right : ClassCounts) (leftSize rightSize : ℕ) : ℝ :=
  (List.zipWith (fun a b : ℕ => ((a : ℝ) / leftSize - b / rightSize) ^ 2) left right).sum

variable {left right : ClassCounts} {leftSize rightSize : ℕ}

theorem contrast_nonneg (left right : ClassCounts) (leftSize rightSize : ℕ) :
    0 ≤ contrast left right leftSize rightSize := by
  refine List.sum_nonneg fun d hd => ?_
  rw [← List.map_uncurry_zip_eq_zipWith] at hd
  obtain ⟨⟨a, b⟩, -, rfl⟩ := List.mem_map.1 hd
  exact sq_nonneg _

theorem contrast_eq_zero_iff (hlength : left.length = right.length) :
    contrast left right leftSize rightSize = 0 ↔ SameShares left right leftSize rightSize := by
  induction left generalizing right with
  | nil =>
    obtain rfl := List.length_eq_zero_iff.1 hlength.symm
    exact iff_of_true rfl .nil
  | cons a left ih =>
    obtain ⟨b, right, rfl⟩ := List.exists_cons_of_length_eq_add_one hlength.symm
    have hrest := ih (Nat.succ.inj hlength)
    have hcons : contrast (a :: left) (b :: right) leftSize rightSize =
        ((a : ℝ) / leftSize - b / rightSize) ^ 2 + contrast left right leftSize rightSize := List.sum_cons
    have hshare : (a : ℝ) / leftSize = b / rightSize ↔ (a : ℚ) / leftSize = b / rightSize := by
      rw [← Rat.cast_inj (α := ℝ)]
      push_cast
      rfl
    rw [hcons, add_eq_zero_iff_of_nonneg (sq_nonneg _) (contrast_nonneg _ _ _ _), sq_eq_zero_iff, sub_eq_zero, hshare,
      hrest, SameShares, SameShares, List.forall₂_cons]

theorem sum_join (hlength : left.length = right.length) : (join left right).sum = left.sum + right.sum := by
  induction left generalizing right with
  | nil =>
    obtain rfl := List.length_eq_zero_iff.1 hlength.symm
    rfl
  | cons a left ih =>
    obtain ⟨b, right, rfl⟩ := List.exists_cons_of_length_eq_add_one hlength.symm
    have hrest := ih (Nat.succ.inj hlength)
    simp only [join, List.zipWith_cons_cons, List.sum_cons] at hrest ⊢
    rw [hrest]
    exact add_add_add_comm a b left.sum right.sum

end ClassCounts

open ClassCounts

theorem gini_real (counts : ClassCounts) {n : ℕ} (hn : 0 < n) :
    gini ℝ counts n = 1 - (counts.map fun c : ℕ => ((c : ℝ) / n) ^ 2).sum := by
  rw [gini, if_neg hn.ne', Scalar.sum_real]
  simp only [Scalar.sq, sq]

/-- On average over the two sides the squares of the shares are greater than those of all samples, by the contrast. -/
theorem mean_squares_sub {left right : ClassCounts} (hlength : left.length = right.length) {leftSize rightSize : ℕ}
    (hleft : 0 < leftSize) (hright : 0 < rightSize) :
    (leftSize * (left.map fun c : ℕ => ((c : ℝ) / leftSize) ^ 2).sum +
        rightSize * (right.map fun c : ℕ => ((c : ℝ) / rightSize) ^ 2).sum) / ((leftSize : ℝ) + rightSize) -
      ((join left right).map fun c : ℕ => ((c : ℝ) / ((leftSize : ℝ) + rightSize)) ^ 2).sum =
        leftSize * rightSize / ((leftSize : ℝ) + rightSize) ^ 2 * contrast left right leftSize rightSize := by
  have hl : (0 : ℝ) < leftSize := Nat.cast_pos.2 hleft
  have hr : (0 : ℝ) < rightSize := Nat.cast_pos.2 hright
  induction left generalizing right with
  | nil =>
    obtain rfl := List.length_eq_zero_iff.1 hlength.symm
    simp [join, contrast]
  | cons a left ih =>
    obtain ⟨b, right, rfl⟩ := List.exists_cons_of_length_eq_add_one hlength.symm
    have hrest := ih (Nat.succ.inj hlength)
    simp only [join, contrast, List.map_cons, List.zipWith_cons_cons, List.sum_cons] at hrest ⊢
    -- The first class on its own; the others are the induction hypothesis.
    have hclass : (leftSize * ((a : ℝ) / leftSize) ^ 2 + rightSize * ((b : ℝ) / rightSize) ^ 2) /
          ((leftSize : ℝ) + rightSize) - (((a + b : ℕ) : ℝ) / ((leftSize : ℝ) + rightSize)) ^ 2 =
        leftSize * rightSize / ((leftSize : ℝ) + rightSize) ^ 2 * ((a : ℝ) / leftSize - b / rightSize) ^ 2 := by
      push_cast
      field_simp
      ring
    linear_combination hclass + hrest

/-- A split gains by the contrast of its sides, weighted by their sizes. -/
theorem gain_real {left right : ClassCounts} (hlength : left.length = right.length) {leftSize rightSize : ℕ}
    (hleft : 0 < leftSize) (hright : 0 < rightSize) :
    gain (gini ℝ (join left right) (leftSize + rightSize)) left right leftSize rightSize =
      leftSize * rightSize / ((leftSize : ℝ) + rightSize) ^ 2 * contrast left right leftSize rightSize := by
  have hl : (0 : ℝ) < leftSize := Nat.cast_pos.2 hleft
  have hr : (0 : ℝ) < rightSize := Nat.cast_pos.2 hright
  rw [gain, gini_real _ (Nat.add_pos_left hleft _), gini_real _ hleft, gini_real _ hright,
    ← mean_squares_sub hlength hleft hright]
  push_cast
  field_simp
  ring

/-- No split loses purity. -/
theorem gain_nonneg {left right : ClassCounts} (hlength : left.length = right.length) {leftSize rightSize : ℕ}
    (hleft : 0 < leftSize) (hright : 0 < rightSize) :
    (0 : ℝ) ≤ gain (gini ℝ (join left right) (leftSize + rightSize)) left right leftSize rightSize := by
  rw [gain_real hlength hleft hright]
  exact mul_nonneg (by positivity) (contrast_nonneg _ _ _ _)

/-- A split gains nothing exactly where both sides have the shares of the whole. -/
theorem gain_eq_zero_iff {left right : ClassCounts} (hlength : left.length = right.length) {leftSize rightSize : ℕ}
    (hleft : 0 < leftSize) (hright : 0 < rightSize) :
    gain (gini ℝ (join left right) (leftSize + rightSize)) left right leftSize rightSize = 0 ↔
      SameShares left right leftSize rightSize := by
  have hl : (0 : ℝ) < leftSize := Nat.cast_pos.2 hleft
  have hr : (0 : ℝ) < rightSize := Nat.cast_pos.2 hright
  have hfactor : leftSize * rightSize / ((leftSize : ℝ) + rightSize) ^ 2 ≠ 0 := by positivity
  rw [gain_real hlength hleft hright, mul_eq_zero, or_iff_right hfactor, contrast_eq_zero_iff hlength]

end PackageTriage
