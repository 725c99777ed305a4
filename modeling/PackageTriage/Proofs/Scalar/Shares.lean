import PackageTriage.Proofs.Decimal.Nearest
import PackageTriage.Proofs.Scalar.Midpoints

/-!
# Shares of a whole

Up to `2⁵³` a natural number is a float. Two shares of as many parts differ by a part at least, which is more
than rounding moves them, or else all shares are floats themselves: so shares are ordered as their numbers of
parts are.
-/

namespace PackageTriage.Binary

open Float.Model UnpackedFloat

/-- Every count up to two to the 53 has a canonical form. -/
theorem exists_canonical {n : ℕ} (hpos : 0 < n) (hle : n ≤ 2 ^ 53) :
    ∃ (m : ℕ) (e : ℤ), Canonical m e ∧ (m : ℚ) * 2 ^ e = n := by
  rcases hle.lt_or_eq with hlt | rfl
  · obtain ⟨m, e, hm, hunpacked, -, hvalue⟩ := isWhole_toFloat hpos hlt
    exact ⟨m, e, canonical_of_unpacked hunpacked, hvalue⟩
  · refine ⟨2 ^ 52, 1, ⟨by norm_num, by norm_num, by norm_num, by norm_num, .inr le_rfl⟩, ?_⟩
    norm_num

theorem value_natCast {n : ℕ} (hle : n ≤ 2 ^ 53) : (n : Float).isFinite = true ∧ value (n : Float) = n := by
  have hread : (n : Float) = Decimal.nearest n 0 := rfl
  rcases Nat.eq_zero_or_pos n with rfl | hpos
  · rw [hread, Decimal.nearest_zero, isFinite_eq, value, unpacked_packed_zero]
    exact ⟨rfl, Nat.cast_zero.symm⟩
  · obtain ⟨m, e, hc, hvalue⟩ := exists_canonical hpos hle
    have hsurrounds : Surrounds m e (n * 10 ^ (0 : ℤ) / 2 ^ e) := by
      rw [zpow_zero, mul_one, ← hvalue]
      exact surrounds_self m e
    rw [hread, Decimal.nearest_eq hc hpos hsurrounds, isFinite_eq, value, unpacked_packed_finite _ hc]
    exact ⟨rfl, hvalue⟩

/-- Whole numbers of the last place below one are on the grid. -/
theorem onGrid_parts {j : ℤ} (hj : |j| ≤ 2 ^ 53) : OnGrid (j / 2 ^ 53) :=
  ⟨j, -53, hj, by norm_num, by rw [zpow_neg, div_eq_mul_inv]; norm_cast⟩

/-- Between zero and one rounding moves a number by at most half of the last place below one. -/
theorem Nearest.abs_sub_le_of_le_one {q r : ℚ} (h : Nearest q r) (hlow : 0 ≤ q) (hhigh : q ≤ 1) :
    |r - q| ≤ 1 / 2 ^ 54 := by
  obtain ⟨j, hj⟩ : ∃ j : ℤ, |q * 2 ^ 53 - j| ≤ 1 / 2 := ⟨_, abs_sub_round _⟩
  have hparts : |j| ≤ 2 ^ 53 := by
    obtain ⟨hbelow, habove⟩ := abs_le.1 hj
    have hleast : (-1 : ℚ) < j := by linarith
    have hgreatest : (j : ℚ) < 2 ^ 53 + 1 := by linarith
    have hleast' : -1 < j := by exact_mod_cast hleast
    have hgreatest' : j < 2 ^ 53 + 1 := by exact_mod_cast hgreatest
    exact abs_le.2 ⟨by omega, by omega⟩
  calc |r - q| ≤ |(j : ℚ) / 2 ^ 53 - q| := h.le _ (onGrid_parts hparts)
    _ = |q * 2 ^ 53 - j| / 2 ^ 53 := by
      rw [← abs_of_pos (pow_pos (two_pos (α := ℚ)) 53), ← abs_div, abs_of_pos (pow_pos (two_pos (α := ℚ)) 53),
        abs_sub_comm, sub_div, mul_div_cancel_right₀ _ (pow_ne_zero 53 two_ne_zero)]
    _ ≤ 1 / 2 / 2 ^ 53 := by gcongr
    _ = 1 / 2 ^ 54 := by norm_num

variable {c d n : ℕ}

/-- A share is a float, and nearest to the share. -/
theorem nearest_share (hpos : 0 < n) (hn : n ≤ 2 ^ 53) (hc : c ≤ n) :
    ((c : Float) / (n : Float)).isFinite = true ∧ Nearest (c / n) (value ((c : Float) / (n : Float))) := by
  obtain ⟨hfinite, hvalue⟩ := value_natCast (hc.trans hn)
  obtain ⟨hfinite', hvalue'⟩ := value_natCast hn
  obtain ⟨-, hone⟩ := value_natCast (n := 1) (by norm_num)
  have hle : |value (c : Float) / value (n : Float)| ≤ |value ((1 : ℕ) : Float)| := by
    rw [hvalue, hvalue', hone, Nat.cast_one, abs_one, abs_of_nonneg (by positivity)]
    exact div_le_one_of_le₀ (by exact_mod_cast hc) (by positivity)
  have hdiv := nearest_div hfinite hfinite' (by rw [hvalue']; exact_mod_cast hpos.ne') hle
  rwa [hvalue, hvalue'] at hdiv

/-- More of the same whole is a greater share, after rounding too. -/
theorem value_share_lt (hpos : 0 < n) (hn : n ≤ 2 ^ 53) (hd : d ≤ n) (hlt : c < d) :
    value ((c : Float) / (n : Float)) < value ((d : Float) / (n : Float)) := by
  have hc : c ≤ n := hlt.le.trans hd
  have hpos' : (0 : ℚ) < n := by exact_mod_cast hpos
  have hshare := (nearest_share hpos hn hc).2
  have hshare' := (nearest_share hpos hn hd).2
  rcases hn.lt_or_eq with hn | rfl
  · -- Both are moved by less than half a part.
    have hmoved := hshare.abs_sub_le_of_le_one (by positivity) (div_le_one_of_le₀ (by exact_mod_cast hc) hpos'.le)
    have hmoved' := hshare'.abs_sub_le_of_le_one (by positivity) (div_le_one_of_le₀ (by exact_mod_cast hd) hpos'.le)
    have hpart : (1 : ℚ) / n ≤ d / n - c / n := by
      rw [← sub_div]
      gcongr
      have hstep : (c : ℚ) + 1 ≤ d := by exact_mod_cast hlt
      linarith
    have hlong : (1 : ℚ) / 2 ^ 53 < 1 / n := by
      gcongr
      exact_mod_cast hn
    have hhalves : (1 : ℚ) / 2 ^ 54 + 1 / 2 ^ 54 = 1 / 2 ^ 53 := by norm_num
    obtain ⟨-, habove⟩ := abs_le.1 hmoved
    obtain ⟨hbelow, -⟩ := abs_le.1 hmoved'
    linarith
  · -- Neither is moved at all.
    have hexact : ∀ {k : ℕ}, k ≤ 2 ^ 53 → OnGrid (k / (2 ^ 53 : ℕ)) := by
      intro k hk
      have hgrid := onGrid_parts (j := k) (by rw [Nat.abs_cast]; exact_mod_cast hk)
      rwa [Int.cast_natCast, ← Nat.cast_two, ← Nat.cast_pow] at hgrid
    rw [hshare.eq (hexact hc), hshare'.eq (hexact hd)]
    gcongr

/-- Shares of a whole are ordered as their parts are. -/
theorem less_share (hpos : 0 < n) (hn : n ≤ 2 ^ 53) (hc : c ≤ n) (hd : d ≤ n) :
    Scalar.less ((c : Float) / (n : Float)) ((d : Float) / (n : Float)) = decide (c < d) := by
  rw [Bool.eq_iff_iff, less_iff (nearest_share hpos hn hc).1 (nearest_share hpos hn hd).1, decide_eq_true_eq]
  refine ⟨fun hvalue => ?_, value_share_lt hpos hn hd⟩
  by_contra hnot
  rcases (not_lt.1 hnot).lt_or_eq with hlt | rfl
  · exact (value_share_lt hpos hn hc hlt).not_gt hvalue
  · exact hvalue.false

end PackageTriage.Binary
