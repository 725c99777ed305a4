import PackageTriage.Metrics.Scores
import PackageTriage.Proofs.Scalar.Checked

/-!
# Laws of the scores

In exact arithmetic accuracy, precision, sensitivity and their harmonic mean are shares, and the harmonic mean is the
share of the true positives among all that is positive by label or by prediction, those that are both counted twice.
The correlation lies between minus one and one. It is one exactly if both classes occur and every prediction is right,
minus one exactly if both occur and every prediction is wrong, and zero where a class is never given or never
predicted. No score divides by zero.
-/

namespace PackageTriage

def Scores.map {α β : Type} (f : α → β) (s : Scores α) : Scores β :=
  ⟨f s.accuracy, f s.precision, f s.sensitivity, f s.f1, f s.mcc⟩

theorem ratio_mem {part whole : Nat} (h : part ≤ whole) : (ratio part whole : ℝ) ∈ Set.Icc 0 1 := by
  rw [ratio]
  split
  · exact ⟨le_rfl, zero_le_one⟩
  · have hcast : (part : ℝ) ≤ whole := Nat.cast_le.2 h
    exact ⟨div_nonneg part.cast_nonneg whole.cast_nonneg, div_le_one_of_le₀ hcast whole.cast_nonneg⟩

/-- The quotient of two counts is that of the field, where a quotient by zero is zero as well. -/
theorem ratio_eq_div (part whole : Nat) : (ratio part whole : ℝ) = part / whole := by
  rw [ratio]
  split
  · next h => rw [h, Nat.cast_zero, div_zero]
  · rfl

namespace Confusion

variable (c : Confusion)

/-- The harmonic mean of precision and sensitivity in terms of the counts. -/
theorem f1_eq : (c.f1 : ℝ) = if c.truePositive = 0 then 0 else
    2 * (c.truePositive : ℝ) / (2 * c.truePositive + c.falsePositive + c.falseNegative) := by
  rw [f1, precision, sensitivity, ratio_eq_div, ratio_eq_div, Scalar.two_real]
  simp only [Scalar.same_real, decide_eq_true_eq]
  push_cast
  by_cases htp : c.truePositive = 0
  · simp [htp]
  · have hpos : (0 : ℝ) < c.truePositive := Nat.cast_pos.2 (Nat.pos_of_ne_zero htp)
    have hfp : (0 : ℝ) ≤ c.falsePositive := Nat.cast_nonneg _
    have hfn : (0 : ℝ) ≤ c.falseNegative := Nat.cast_nonneg _
    rw [if_neg htp, if_neg (by positivity)]
    field_simp
    ring

/-- The harmonic mean stays within zero and one. -/
theorem f1_mem : (c.f1 : ℝ) ∈ Set.Icc 0 1 := by
  rw [f1_eq]
  split
  · exact ⟨le_rfl, zero_le_one⟩
  · have hfp : (0 : ℝ) ≤ c.falsePositive := Nat.cast_nonneg _
    have hfn : (0 : ℝ) ≤ c.falseNegative := Nat.cast_nonneg _
    exact ⟨by positivity, div_le_one_of_le₀ (by linarith) (by positivity)⟩

/-- The product of the four sums that the correlation is scaled by: what is predicted positive, what is positive, what
is negative and what is predicted negative. -/
def margins : ℝ :=
  (c.truePositive + c.falsePositive) * (c.truePositive + c.falseNegative) *
    (c.trueNegative + c.falsePositive) * (c.trueNegative + c.falseNegative)

/-- What the product of the right predictions has over that of the wrong ones. -/
def advantage : ℝ := c.truePositive * c.trueNegative - c.falsePositive * c.falseNegative

/-- What the margins have over the square of the advantage, as a sum of products of counts. -/
def excess : ℝ :=
  4 * (c.truePositive * c.falsePositive * c.falseNegative * c.trueNegative) +
    (c.truePositive * c.trueNegative + c.falsePositive * c.falseNegative) *
      (c.truePositive * c.falseNegative + c.falsePositive * c.trueNegative +
        (c.truePositive * c.falsePositive + c.falseNegative * c.trueNegative)) +
    (c.truePositive * c.falseNegative + c.falsePositive * c.trueNegative) *
      (c.truePositive * c.falsePositive + c.falseNegative * c.trueNegative)

/-- The coefficient as an advantage over the root of its margins. -/
theorem mcc_eq : (c.mcc : ℝ) = c.advantage / √c.margins := by
  show (if Scalar.same (√c.margins) 0 then 0 else c.advantage / √c.margins) = _
  rw [Scalar.same_real]
  split
  · next h => rw [of_decide_eq_true h, div_zero]
  · rfl

/-- The margins exceed the square of the advantage by a sum of products of counts. -/
theorem margins_eq : c.margins = c.advantage ^ 2 + c.excess := by
  rw [margins, advantage, excess]
  ring

theorem excess_nonneg : 0 ≤ c.excess := by
  rw [excess]
  positivity

/-- With right predictions of both classes, any wrong one shows in the excess. -/
theorem excess_pos (htp : 0 < c.truePositive) (htn : 0 < c.trueNegative)
    (hwrong : 0 < c.falsePositive ∨ 0 < c.falseNegative) : 0 < c.excess := by
  have htp : (0 : ℝ) < c.truePositive := Nat.cast_pos.2 htp
  have htn : (0 : ℝ) < c.trueNegative := Nat.cast_pos.2 htn
  rw [excess]
  rcases hwrong with hfp | hfn
  · have hfp : (0 : ℝ) < c.falsePositive := Nat.cast_pos.2 hfp
    positivity
  · have hfn : (0 : ℝ) < c.falseNegative := Nat.cast_pos.2 hfn
    positivity

theorem abs_advantage_le : |c.advantage| ≤ √c.margins := by
  refine Real.abs_le_sqrt ?_
  rw [margins_eq]
  exact le_add_of_nonneg_right c.excess_nonneg

/-- The coefficient stays within minus one and one. -/
theorem mcc_mem : (c.mcc : ℝ) ∈ Set.Icc (-1) 1 := by
  rw [Set.mem_Icc, mcc_eq, ← abs_le, abs_div, abs_of_nonneg (Real.sqrt_nonneg _)]
  exact div_le_one_of_le₀ c.abs_advantage_le (Real.sqrt_nonneg _)

def contrary : Confusion := ⟨c.falseNegative, c.trueNegative, c.falsePositive, c.truePositive⟩

/-- Exchanging the predicted classes negates the coefficient. -/
theorem mcc_contrary : (c.contrary.mcc : ℝ) = -c.mcc := by
  have hadvantage : c.contrary.advantage = -c.advantage := by
    simp only [advantage, contrary]
    ring
  have hmargins : c.contrary.margins = c.margins := by
    simp only [margins, contrary]
    ring
  rw [mcc_eq, mcc_eq, hadvantage, hmargins, neg_div]

/-- A correlation of one leaves no excess, for that is what keeps the advantage below the root. -/
theorem excess_of_mcc_eq_one (h : (c.mcc : ℝ) = 1) : 0 < c.advantage ∧ c.excess = 0 := by
  rw [mcc_eq] at h
  have hroot : √c.margins ≠ 0 := fun hzero => by simp [hzero] at h
  have hadvantage : c.advantage = √c.margins := (div_eq_one_iff_eq hroot).1 h
  have hnonneg : 0 ≤ c.margins := by
    rw [margins]
    positivity
  have hsquare : c.advantage ^ 2 = c.margins := by rw [hadvantage, Real.sq_sqrt hnonneg]
  constructor
  · rw [hadvantage]
    exact lt_of_le_of_ne (Real.sqrt_nonneg _) (Ne.symm hroot)
  · linarith [c.margins_eq]

/-- Without a mistake the coefficient is one, as long as both classes occur. -/
theorem mcc_of_right (hfp : c.falsePositive = 0) (hfn : c.falseNegative = 0) (htp : 0 < c.truePositive)
    (htn : 0 < c.trueNegative) : (c.mcc : ℝ) = 1 := by
  have htp : (0 : ℝ) < c.truePositive := Nat.cast_pos.2 htp
  have htn : (0 : ℝ) < c.trueNegative := Nat.cast_pos.2 htn
  have hmargins : c.margins = (c.truePositive * c.trueNegative) ^ 2 := by
    rw [margins, hfp, hfn]
    push_cast
    ring
  have hadvantage : c.advantage = c.truePositive * c.trueNegative := by simp [advantage, hfp]
  rw [mcc_eq, hmargins, hadvantage, Real.sqrt_sq (by positivity), div_self (by positivity)]

/-- The correlation is one exactly if both classes occur and every prediction is right. -/
theorem mcc_eq_one_iff : (c.mcc : ℝ) = 1 ↔
    c.falsePositive = 0 ∧ c.falseNegative = 0 ∧ 0 < c.truePositive ∧ 0 < c.trueNegative := by
  constructor
  · intro hone
    obtain ⟨hadvantage, hexcess⟩ := c.excess_of_mcc_eq_one hone
    have hwrong : (0 : ℝ) ≤ c.falsePositive * c.falseNegative := by positivity
    have hproduct : (0 : ℝ) < c.truePositive * c.trueNegative := by
      rw [advantage] at hadvantage
      linarith
    have htp : 0 < c.truePositive := Nat.pos_of_ne_zero fun h => by simp [h] at hproduct
    have htn : 0 < c.trueNegative := Nat.pos_of_ne_zero fun h => by simp [h] at hproduct
    have hnone : ¬(0 < c.falsePositive ∨ 0 < c.falseNegative) := fun hwrong =>
      (c.excess_pos htp htn hwrong).ne' hexcess
    omega
  · rintro ⟨hfp, hfn, htp, htn⟩
    exact c.mcc_of_right hfp hfn htp htn

/-- It is minus one exactly if both classes occur and every prediction is wrong. -/
theorem mcc_eq_neg_one_iff : (c.mcc : ℝ) = -1 ↔
    c.truePositive = 0 ∧ c.trueNegative = 0 ∧ 0 < c.falsePositive ∧ 0 < c.falseNegative := by
  have hone := c.contrary.mcc_eq_one_iff
  rw [mcc_contrary, neg_eq_iff_eq_neg] at hone
  rw [hone]
  exact ⟨fun ⟨htn, htp, hfn, hfp⟩ => ⟨htp, htn, hfp, hfn⟩, fun ⟨htp, htn, hfp, hfn⟩ => ⟨htn, htp, hfn, hfp⟩⟩

/-- A class is never given or never predicted. -/
def LacksMargin : Prop :=
  c.truePositive + c.falsePositive = 0 ∨ c.truePositive + c.falseNegative = 0 ∨
    c.trueNegative + c.falsePositive = 0 ∨ c.trueNegative + c.falseNegative = 0

/-- Where a class never occurs or is never predicted, the coefficient is zero. -/
theorem mcc_of_lacksMargin (h : c.LacksMargin) : (c.mcc : ℝ) = 0 := by
  have hsum {m n : Nat} (h : m + n = 0) : (m : ℝ) + n = 0 := by rw [← Nat.cast_add, h, Nat.cast_zero]
  have hmargins : c.margins = 0 := by
    rw [margins]
    rcases h with h | h | h | h
    · rw [hsum h, zero_mul, zero_mul, zero_mul]
    · rw [hsum h, mul_zero, zero_mul, zero_mul]
    · rw [hsum h, mul_zero, zero_mul]
    · rw [hsum h, mul_zero]
  rw [mcc_eq, hmargins, Real.sqrt_zero, div_zero]

theorem ratio_checked (part whole : Nat) : (ratio part whole : Checked) = .value (ratio part whole) := by
  rw [ratio, ratio]
  split
  · rfl
  · next h => exact Checked.value_div _ (Nat.cast_ne_zero.2 h)

theorem f1_checked : (c.f1 : Checked) = .value c.f1 := by
  have hp : (c.precision : Checked) = .value c.precision := ratio_checked _ _
  have hr : (c.sensitivity : Checked) = .value c.sensitivity := ratio_checked _ _
  rw [f1, f1, hp, hr]
  by_cases h : Scalar.same (c.precision + c.sensitivity : ℝ) 0 = true
  · rw [if_pos h]
    exact if_pos h
  · rw [if_neg h]
    exact (if_neg h).trans (Checked.value_div _ (by simpa using h))

/-- No division by zero happens on the way. -/
theorem mcc_checked : (c.mcc : Checked) = .value c.mcc := by
  show (if Scalar.same (√c.margins) 0 then .value 0 else .value c.advantage / .value (√c.margins)) =
    Checked.value (if Scalar.same (√c.margins) 0 then 0 else c.advantage / √c.margins)
  by_cases h : Scalar.same (√c.margins) 0 = true
  · rw [if_pos h, if_pos h]
  · rw [if_neg h, if_neg h]
    exact Checked.value_div _ (by simpa using h)

/-- The scores are the same where a division by zero is noticed. -/
theorem scores_checked : (c.scores : Scores Checked) = (c.scores : Scores ℝ).map .value := by
  rw [scores, f1_checked, mcc_checked]
  have haccuracy : (c.accuracy : Checked) = .value c.accuracy := ratio_checked _ _
  have hprecision : (c.precision : Checked) = .value c.precision := ratio_checked _ _
  have hsensitivity : (c.sensitivity : Checked) = .value c.sensitivity := ratio_checked _ _
  rw [haccuracy, hprecision, hsensitivity]
  rfl

/-- What holds of the scores of some counts. -/
structure Scored (c : Confusion) (s : Scores ℝ) : Prop where
  accuracy_mem : s.accuracy ∈ Set.Icc 0 1
  precision_mem : s.precision ∈ Set.Icc 0 1
  sensitivity_mem : s.sensitivity ∈ Set.Icc 0 1
  f1_mem : s.f1 ∈ Set.Icc 0 1
  f1_eq : s.f1 = if c.truePositive = 0 then 0 else
    2 * (c.truePositive : ℝ) / (2 * c.truePositive + c.falsePositive + c.falseNegative)
  mcc_mem : s.mcc ∈ Set.Icc (-1) 1
  mcc_eq_one_iff : s.mcc = 1 ↔
    c.falsePositive = 0 ∧ c.falseNegative = 0 ∧ 0 < c.truePositive ∧ 0 < c.trueNegative
  mcc_eq_neg_one_iff : s.mcc = -1 ↔
    c.truePositive = 0 ∧ c.trueNegative = 0 ∧ 0 < c.falsePositive ∧ 0 < c.falseNegative
  mcc_of_lacksMargin : c.LacksMargin → s.mcc = 0
  checked : (c.scores : Scores Checked) = s.map .value

/-- The scores of any counts are bounded, have the harmonic mean and the correlation of these counts, and are found
without dividing by zero. -/
theorem scored_scores : c.Scored c.scores where
  accuracy_mem := ratio_mem (by rw [total]; omega)
  precision_mem := ratio_mem (Nat.le_add_right _ _)
  sensitivity_mem := ratio_mem (Nat.le_add_right _ _)
  f1_mem := c.f1_mem
  f1_eq := c.f1_eq
  mcc_mem := c.mcc_mem
  mcc_eq_one_iff := c.mcc_eq_one_iff
  mcc_eq_neg_one_iff := c.mcc_eq_neg_one_iff
  mcc_of_lacksMargin := c.mcc_of_lacksMargin
  checked := c.scores_checked

end Confusion

end PackageTriage
