import PackageTriage.Proofs.Network.Entries

/-!
# Slopes of activations and of the loss

The slope of an activation is its derivative, in terms of the unit's output. The softmax does not depend on the score
that is taken off first. The logarithm of one of its probabilities moves by the difference of what its own score and
the mean score move by, as long as the probability counts as itself.
-/

namespace PackageTriage

open Finset

theorem hasDerivAt_tanh (v : ℝ) : HasDerivAt Real.tanh (1 - Real.tanh v * Real.tanh v) v := by
  have hcosh : Real.cosh v ≠ 0 := (Real.cosh_pos v).ne'
  have hquotient : HasDerivAt (fun v => Real.sinh v / Real.cosh v) (1 - Real.tanh v * Real.tanh v) v := by
    refine ((Real.hasDerivAt_sinh v).div (Real.hasDerivAt_cosh v) hcosh).congr_deriv ?_
    rw [Real.tanh_eq_sinh_div_cosh]
    field_simp
  simpa only [← Real.tanh_eq_sinh_div_cosh] using hquotient

/-- The slope of the rectifier, away from its kink. -/
theorem hasDerivAt_relu {v : ℝ} (hv : v ≠ 0) :
    HasDerivAt (fun v => max v 0) (if 0 < max v 0 then 1 else 0) v := by
  rcases hv.lt_or_gt with hneg | hpos
  · rw [max_eq_right hneg.le, if_neg (lt_irrefl 0)]
    refine (hasDerivAt_const v 0).congr_of_eventuallyEq ?_
    filter_upwards [gt_mem_nhds hneg] with u hu using max_eq_right hu.le
  · rw [max_eq_left hpos.le, if_pos hpos]
    refine (hasDerivAt_id v).congr_of_eventuallyEq ?_
    filter_upwards [lt_mem_nhds hpos] with u hu using max_eq_left hu.le

/-- The slope is the derivative; only the cut off at zero has none there. -/
theorem Activation.hasDerivAt_apply {act : Activation} {v : ℝ} (hv : act = .relu → v ≠ 0) :
    HasDerivAt (act.apply : ℝ → ℝ) (act.slope (act.apply v)) v := by
  cases act with
  | identity => exact hasDerivAt_id v
  | logistic =>
    have happly : (Activation.apply .logistic : ℝ → ℝ) = Real.sigmoid := funext fun v => one_div (1 + Real.exp (-v))
    rw [happly]
    exact Real.hasDerivAt_sigmoid v
  | tanh => exact hasDerivAt_tanh v
  | relu =>
    have hslope : Activation.slope .relu (Activation.apply .relu v) = if 0 < max v 0 then (1 : ℝ) else 0 := by
      simp [slope, apply, Scalar.max_real]
    have happly : (Activation.apply .relu : ℝ → ℝ) = fun v => max v 0 := funext fun v => Scalar.max_real v 0
    rw [hslope, happly]
    exact hasDerivAt_relu (hv rfl)

/-- Taking the greatest score off all of them changes no proportion. -/
theorem getD_softmax {scores : List ℝ} {j : ℕ} (hj : j < scores.length) :
    (softmax scores).getD j 0 =
      Real.exp (scores.getD j 0) / ∑ k ∈ range scores.length, Real.exp (scores.getD k 0) := by
  have hexp (v : ℝ) : Scalar.exp (v - Statistics.greatest scores) =
      Real.exp v / Real.exp (Statistics.greatest scores) := Real.exp_sub ..
  have hlt : j < (scores.map fun v => Scalar.exp (v - Statistics.greatest scores)).length := by simpa using hj
  rw [softmax, getD_map_of_lt _ hlt 0, getD_map_of_lt _ hj 0, Statistics.laneSum_eq,
    sum_map_eq_sum_getD _ scores 0]
  simp only [hexp, ← Finset.sum_div]
  exact div_div_div_cancel_right₀ (Real.exp_ne_zero _) _ _

theorem sum_exp_pos {scores : List ℝ} {j : ℕ} (hj : j < scores.length) :
    0 < ∑ k ∈ range scores.length, Real.exp (scores.getD k 0) :=
  Finset.sum_pos (fun _ _ => Real.exp_pos _) ⟨j, mem_range.2 hj⟩

section

variable {scores : ℝ → List ℝ} {n : ℕ} {moves : ℕ → ℝ} {t : ℝ}

/-- The logarithm of a probability moves by the distance of its score from the mean score. -/
theorem hasDerivAt_log_softmax (hlength : ∀ s, (scores s).length = n)
    (hscores : ∀ k < n, HasDerivAt (fun s => (scores s).getD k 0) (moves k) t) {j : ℕ} (hj : j < n) :
    HasDerivAt (fun s => Real.log ((softmax (scores s)).getD j 0))
      (moves j - ∑ k ∈ range n, (softmax (scores t)).getD k 0 * moves k) t := by
  have htotal : HasDerivAt (fun s => ∑ k ∈ range n, Real.exp ((scores s).getD k 0))
      (∑ k ∈ range n, Real.exp ((scores t).getD k 0) * moves k) t :=
    HasDerivAt.fun_sum fun k hk => (hscores k (mem_range.1 hk)).exp
  have hpos (s : ℝ) : 0 < ∑ k ∈ range n, Real.exp ((scores s).getD k 0) := by
    have hsum := sum_exp_pos ((hlength s).symm ▸ hj)
    rwa [hlength] at hsum
  have hlog (s : ℝ) : Real.log ((softmax (scores s)).getD j 0) =
      (scores s).getD j 0 - Real.log (∑ k ∈ range n, Real.exp ((scores s).getD k 0)) := by
    rw [getD_softmax ((hlength s).symm ▸ hj), hlength, Real.log_div (Real.exp_ne_zero _) (hpos s).ne', Real.log_exp]
  simp only [hlog]
  refine ((hscores j hj).sub (htotal.log (hpos t).ne')).congr_deriv ?_
  rw [Finset.sum_div]
  refine congrArg (moves j - ·) (Finset.sum_congr rfl fun k hk => ?_)
  rw [getD_softmax ((hlength t).symm ▸ mem_range.1 hk), hlength, div_mul_eq_mul_div]

/-- The shares of a softmax vary continuously with the scores. -/
theorem continuousAt_softmax (hlength : ∀ s, (scores s).length = n)
    (hscores : ∀ k < n, HasDerivAt (fun s => (scores s).getD k 0) (moves k) t) {j : ℕ} (hj : j < n) :
    ContinuousAt (fun s => (softmax (scores s)).getD j 0) t := by
  have hexp {k : ℕ} (hk : k < n) : ContinuousAt (fun s => Real.exp ((scores s).getD k 0)) t :=
    (hscores k hk).exp.continuousAt
  have hpos : ∑ k ∈ range n, Real.exp ((scores t).getD k 0) ≠ 0 := by
    have hsum := sum_exp_pos ((hlength t).symm ▸ hj)
    rw [hlength] at hsum
    exact hsum.ne'
  have hsoftmax (s : ℝ) := getD_softmax ((hlength s).symm ▸ hj : j < (scores s).length)
  simp only [hsoftmax, hlength]
  exact (hexp hj).div (tendsto_finsetSum _ fun k hk => hexp (mem_range.1 hk)) hpos

/-- So it does where it counts as itself in the loss. -/
theorem hasDerivAt_log_max_softmax (hlength : ∀ s, (scores s).length = n)
    (hscores : ∀ k < n, HasDerivAt (fun s => (scores s).getD k 0) (moves k) t) {j : ℕ} (hj : j < n) {least : ℝ}
    (hleast : least < (softmax (scores t)).getD j 0) :
    HasDerivAt (fun s => Scalar.log (Scalar.max ((softmax (scores s)).getD j 0) least))
      (moves j - ∑ k ∈ range n, (softmax (scores t)).getD k 0 * moves k) t := by
  refine (hasDerivAt_log_softmax hlength hscores hj).congr_of_eventuallyEq ?_
  filter_upwards [(continuousAt_softmax hlength hscores hj).eventually (lt_mem_nhds hleast)] with s hs
  rw [Scalar.max_real, max_eq_left hs.le]
  rfl

end

namespace Network

theorem crossEntropy_eq {targets output : Matrix ℝ} (hheight : output.height = targets.height)
    (hwidth : output.width = targets.width) (n : ℝ) :
    crossEntropy targets output n = -(∑ i ∈ range targets.height, ∑ j ∈ range targets.width,
      targets.entry i j * Scalar.log (Scalar.max (output.entry i j) leastProbability)) / n := by
  rw [crossEntropy, Statistics.laneSum_eq, Matrix.sum_entries,
    Matrix.height_zip _ ((Matrix.height_map ..).trans hheight), Matrix.width_zip _ ((Matrix.width_map ..).trans hwidth)]
  refine congrArg (fun total => -total / n) (Finset.sum_congr rfl fun i hi => Finset.sum_congr rfl fun j hj => ?_)
  rw [mem_range] at hi hj
  rw [Matrix.entry_zip _ hi (by simpa [hheight] using hi) hj (hwidth.symm ▸ hj),
    Matrix.entry_map _ (hheight.symm ▸ hi) (hwidth.symm ▸ hj)]

end Network

end PackageTriage
