import PackageTriage.Decimal.Reading
import PackageTriage.Proofs.Scalar.Rounding

/-!
# A decimal is read as the float that it lies around

Small mantissas and small powers of ten are floats themselves and are multiplied or divided as such; all others
are taken exactly. Either way one rounding gives the float, and the guards against huge powers of ten never
meet a decimal that a finite float is the nearest to.
-/

namespace PackageTriage

open Float.Model UnpackedFloat Binary

namespace Binary

variable {m : ℕ} {e : ℤ}

theorem below_pos (m : ℕ) (e : ℤ) : 0 < below m e := by
  rw [below]
  split <;> norm_num

/-- A float lies around itself. -/
theorem surrounds_self (m : ℕ) (e : ℤ) : Surrounds m e (m * 2 ^ e / 2 ^ e) := by
  have hpos := below_pos m e
  rw [mul_div_cancel_right₀ _ (zpow_ne_zero e two_ne_zero)]
  exact ⟨by linarith, by linarith, fun _ => ⟨by linarith, by linarith⟩⟩

/-- A float that is a whole number, its mantissa of full length. -/
def IsWhole (x : Float) (n : ℕ) : Prop :=
  ∃ (m : ℕ) (e : ℤ) (hm : 0 < m), unpacked x = .finite .positive m e hm ∧ 2 ^ 52 ≤ m ∧ (m : ℚ) * 2 ^ e = n

/-- A natural number below two to the 53 becomes a float without rounding. -/
theorem isWhole_toFloat {n : ℕ} (hpos : 0 < n) (hlt : n < 2 ^ 53) : IsWhole n.toUInt64.toFloat n := by
  have hlog : n.log2 < 53 := (Nat.log2_lt hpos.ne').2 hlt
  have hlow : 2 ^ 52 ≤ n * 2 ^ (52 - n.log2) := by
    calc 2 ^ 52 = 2 ^ n.log2 * 2 ^ (52 - n.log2) := by rw [← Nat.pow_add]; congr 1; omega
      _ ≤ n * 2 ^ (52 - n.log2) := Nat.mul_le_mul_right _ (Nat.log2_self_le hpos.ne')
  have hhigh : n * 2 ^ (52 - n.log2) < 2 ^ 53 := by
    calc n * 2 ^ (52 - n.log2) < 2 ^ (n.log2 + 1) * 2 ^ (52 - n.log2) :=
          Nat.mul_lt_mul_of_pos_right Nat.lt_log2_self (Nat.two_pow_pos _)
      _ = 2 ^ 53 := by rw [← Nat.pow_add]; congr 1; omega
  have hcanonical : Canonical (n * 2 ^ (52 - n.log2)) (n.log2 - 52) :=
    ⟨(Nat.two_pow_pos 52).trans_le hlow, hhigh, by omega, by omega, .inr hlow⟩
  have hround : UnpackedFloat.round Format.binary64 .positive n 0 =
      .finite .positive (n * 2 ^ (52 - n.log2)) (n.log2 - 52) hcanonical.pos := by
    have hdecrease : decreaseExponent n 0 (Format.binary64.targetExponent (totalExponent n 0)) =
        (n * 2 ^ (52 - n.log2), (n.log2 : ℤ) - 52) := by
      have hshift : (0 - Format.binary64.targetExponent (totalExponent n 0)).toNat = 52 - n.log2 := by
        rw [targetExponent_eq]
        omega
      rw [decreaseExponent, hshift, Nat.shiftLeft_eq]
      exact Prod.ext rfl (by show (0 : ℤ) - (52 - n.log2 : ℕ) = _; omega)
    rw [UnpackedFloat.round, hdecrease]
    exact roundWithAccuracy_eq .positive hcanonical (surrounds_self _ _) (approximates_exact _ _)
      hcanonical.targetExponent.ge
  have hfloat : n.toUInt64.toFloat =
      packed (.finite .positive (n * 2 ^ (52 - n.log2)) (n.log2 - 52) hcanonical.pos) := by
    have hnat : n.toUInt64.toNat = n := Nat.mod_eq_of_lt (hlt.trans (by decide))
    have hnormalize : n.toUInt64.toFloat =
        packed (UnpackedFloat.normalize Format.binary64 n.toUInt64.toNat 0 .positive) := rfl
    have hcompare : compare (n : ℤ) 0 = .gt := Int.compare_eq_gt.2 (by omega)
    rw [hnormalize, hnat, UnpackedFloat.normalize, hcompare]
    exact congrArg packed hround
  refine ⟨_, n.log2 - 52, hcanonical.pos, ?_, hlow, ?_⟩
  · rw [hfloat, unpacked_packed_finite .positive hcanonical]
  · have hexponent : (n.log2 : ℤ) - 52 = -((52 - n.log2 : ℕ) : ℤ) := by omega
    rw [hexponent, zpow_neg, zpow_natCast]
    push_cast
    field_simp

def powerOfTen (k : ℕ) (hk : k < 23) : Float :=
  getElem Float.exactlyRepresentablePowersOfTen k (by simpa [Float.exactlyRepresentablePowersOfTen] using hk)

/-- Each listed power of ten is exact: its binary parts are checked one by one. -/
theorem parts_powerOfTen : ∀ k : Fin 23,
    parts? (powerOfTen k k.isLt) =
        some (((10 ^ k.val * 2 ^ 52 / 2 ^ (10 ^ k.val).log2 : ℕ) : ℤ), ((10 ^ k.val).log2 : ℤ) - 52) ∧
      2 ^ (10 ^ k.val).log2 ∣ 10 ^ k.val * 2 ^ 52 := by
  decide +kernel

theorem isWhole_powerOfTen {k : ℕ} (hk : k < 23) : IsWhole (powerOfTen k hk) (10 ^ k) := by
  obtain ⟨hparts, hdvd⟩ := parts_powerOfTen ⟨k, hk⟩
  set m := 10 ^ k * 2 ^ 52 / 2 ^ (10 ^ k).log2 with hm
  have hlow : 2 ^ 52 ≤ m := by
    rw [hm, Nat.le_div_iff_mul_le (Nat.two_pow_pos _), mul_comm]
    exact Nat.mul_le_mul_right _ (Nat.log2_self_le (Nat.pow_pos (by decide)).ne')
  have hvalue : (m : ℚ) * 2 ^ (((10 ^ k).log2 : ℤ) - 52) = (10 ^ k : ℕ) := by
    have hcancel : m * 2 ^ (10 ^ k).log2 = 10 ^ k * 2 ^ 52 := Nat.div_mul_cancel hdvd
    rw [zpow_sub₀ two_ne_zero, zpow_natCast, ← mul_div_assoc, div_eq_iff (by positivity)]
    exact_mod_cast hcancel
  cases hx : unpacked (powerOfTen k hk) with
  | finite s n f hn =>
    have hsame : (s.apply (n : ℤ), f) = ((m : ℤ), ((10 ^ k).log2 : ℤ) - 52) := by
      have hn' : parts? (powerOfTen k hk) = some (s.apply (n : ℤ), f) := by
        rw [parts?, ← unpacked, hx]
      exact Option.some.inj (hn'.symm.trans hparts)
    obtain ⟨hmantissa, rfl⟩ := Prod.mk.inj hsame
    cases s with
    | positive =>
      have hnat : (n : ℤ) = m := hmantissa
      obtain rfl : n = m := by omega
      exact ⟨m, _, hn, hx, hlow, hvalue⟩
    | negative =>
      have hneg : -(n : ℤ) = m := hmantissa
      omega
  | zero s =>
    have hzero : parts? (powerOfTen k hk) = some (0, 0) := by rw [parts?, ← unpacked, hx]
    have hm0 : (0 : ℤ) = m := congrArg Prod.fst (Option.some.inj (hzero.symm.trans hparts))
    omega
  | infinity s =>
    have hnone : parts? (powerOfTen k hk) = none := by rw [parts?, ← unpacked, hx]
    exact absurd (hnone.symm.trans hparts) (by simp)
  | notANumber =>
    have hnone : parts? (powerOfTen k hk) = none := by rw [parts?, ← unpacked, hx]
    exact absurd (hnone.symm.trans hparts) (by simp)

end Binary

namespace Decimal

variable {m : ℕ} {e : ℤ}

/-- What lies around a finite float is neither huge nor tiny. -/
theorem bounds_of_surrounds {v : ℚ} (hc : Canonical m e) (hv : Surrounds m e (v / 2 ^ e)) :
    2 ^ (-1075 : ℤ) ≤ v ∧ v < 2 ^ (1024 : ℤ) := by
  obtain ⟨hlow, hhigh⟩ := hv.bounds
  have hunit : (0 : ℚ) < 2 ^ e := zpow_pos two_pos e
  have hhalf := below_le m e
  have hpos : (1 : ℚ) ≤ m := by exact_mod_cast hc.pos
  have hlt : (m : ℚ) + 1 ≤ 2 ^ 53 := by exact_mod_cast hc.lt
  constructor
  · calc (2 : ℚ) ^ (-1075 : ℤ) = 1 / 2 * 2 ^ (-1074 : ℤ) := by
          rw [show (-1075 : ℤ) = -1 + -1074 from rfl, zpow_add₀ two_ne_zero]
          norm_num
      _ ≤ 1 / 2 * 2 ^ e := by
          gcongr
          · exact one_le_two
          · exact hc.least
      _ ≤ (m - below m e) * 2 ^ e := by
          gcongr
          linarith
      _ ≤ v := hlow
  · calc v ≤ (m + 1 / 2) * 2 ^ e := hhigh
      _ < 2 ^ 53 * 2 ^ e := by
          gcongr
          linarith
      _ ≤ 2 ^ 53 * 2 ^ (971 : ℤ) := by
          gcongr
          · exact one_le_two
          · exact hc.greatest
      _ = 2 ^ (1024 : ℤ) := by
          rw [show (1024 : ℤ) = (53 : ℕ) + 971 from rfl, zpow_add₀ two_ne_zero, zpow_natCast]

/-- A decimal below every power of two from here on has no large power of ten. -/
theorem lt_of_mul_zpow_lt {n : ℕ} {k l : ℤ} (hn : 0 < n) (hl : 0 ≤ l) (h : (n : ℚ) * 10 ^ k < 2 ^ l) : k < l := by
  by_contra hk
  obtain ⟨j, rfl⟩ := Int.eq_ofNat_of_zero_le (a := k) (by omega)
  have hone : (1 : ℚ) ≤ n := by exact_mod_cast hn
  have hpower : (2 : ℚ) ^ (j : ℤ) ≤ n * 10 ^ (j : ℤ) := by
    rw [zpow_natCast, zpow_natCast]
    calc (2 : ℚ) ^ j ≤ 10 ^ j := by gcongr; norm_num
      _ ≤ n * 10 ^ j := le_mul_of_one_le_left (by positivity) hone
  exact hk ((zpow_lt_zpow_iff_right₀ one_lt_two).1 (hpower.trans_lt h))

/-- A decimal that reaches a power of two has no small power of ten. -/
theorem lt_of_zpow_le_mul {n : ℕ} {k l : ℤ} (hk : k ≤ 0) (h : 2 ^ l ≤ (n : ℚ) * 10 ^ k) : l < n.log2 + 1 + k := by
  obtain ⟨j, rfl⟩ : ∃ j : ℕ, k = -(j : ℤ) := ⟨k.natAbs, by omega⟩
  have hlog : (n : ℚ) < 2 ^ (n.log2 + 1) := by exact_mod_cast @Nat.lt_log2_self n
  have hpower : (n : ℚ) * 10 ^ (-(j : ℤ)) < 2 ^ ((n.log2 + 1 : ℕ) + -(j : ℤ)) := by
    rw [zpow_add_eq, zpow_neg, zpow_neg, zpow_natCast, zpow_natCast]
    calc (n : ℚ) * (10 ^ j)⁻¹ ≤ n * (2 ^ j)⁻¹ := by gcongr; norm_num
      _ < 2 ^ (n.log2 + 1) * (2 ^ j)⁻¹ := by gcongr
  exact (zpow_lt_zpow_iff_right₀ one_lt_two).1 (h.trans_lt hpower)

/-- Taken exactly, a decimal is read as the float that it lies around. -/
theorem ofScientific_eq {n : ℕ} {k : ℤ} (hc : Canonical m e) (hn : 0 < n)
    (hv : Surrounds m e (n * 10 ^ k / 2 ^ e)) :
    UnpackedFloat.ofScientific Format.binary64 n k = .finite .positive m e hc.pos := by
  obtain ⟨htiny, hhuge⟩ := bounds_of_surrounds hc hv
  have hnothuge : ¬ k > 2 ^ 11 := by
    have hlt := lt_of_mul_zpow_lt hn (by norm_num) hhuge
    omega
  have hnottiny : ¬ k < -(2 ^ 11 + n.log2) := fun hk => by
    have hlt := lt_of_zpow_le_mul (by omega) htiny
    omega
  rw [UnpackedFloat.ofScientific, dif_neg hn.ne', if_neg hnothuge, if_neg hnottiny]
  split
  · next hk =>
    obtain ⟨j, rfl⟩ := Int.eq_ofNat_of_zero_le hk
    have hvalue : (n : ℚ) * (10 : ℚ) ^ (j : ℤ) =
        (n <<< 53 : ℕ) * 2 ^ (-(53 : ℕ) : ℤ) * ((10 ^ (j : ℤ).toNat : ℕ) * 2 ^ (0 : ℤ)) := by
      rw [Nat.shiftLeft_eq, Int.toNat_natCast, zpow_neg, zpow_natCast, zpow_natCast, zpow_zero]
      push_cast
      field_simp
      norm_num
    have hlong : 2 ^ 52 ≤ n <<< 53 * 10 ^ (j : ℤ).toNat := by
      rw [Nat.shiftLeft_eq]
      calc 2 ^ 52 ≤ 1 * 2 ^ 53 * 1 := by decide
        _ ≤ n * 2 ^ 53 * 10 ^ (j : ℤ).toNat := by gcongr; exacts [hn, Nat.one_le_pow' _ 9]
    rw [hvalue] at hv
    exact mul_eq_of_surrounds .positive .positive _ _ hc hv
      ((Nat.le_log2 ((Nat.two_pow_pos 52).trans_le hlong).ne').2 hlong)
  · next hk =>
    obtain ⟨j, rfl⟩ : ∃ j : ℕ, k = -(j : ℤ) := ⟨k.natAbs, by omega⟩
    have hvalue : (n : ℚ) * (10 : ℚ) ^ (-(j : ℤ)) =
        n * 2 ^ (0 : ℤ) / ((10 ^ (- -(j : ℤ)).toNat : ℕ) * 2 ^ (0 : ℤ)) := by
      rw [neg_neg, Int.toNat_natCast, zpow_neg, zpow_natCast, zpow_zero, mul_one, mul_one]
      push_cast
      rfl
    rw [hvalue] at hv
    exact div_eq_of_surrounds .positive .positive _ _ hc hv

theorem nearest_zero (k : ℤ) : nearest 0 k = packed (.zero .positive) := by
  rw [nearest, Float.ofScientific]
  split
  · next hsmall =>
    obtain ⟨m, e, hm, hx, -, -⟩ := isWhole_powerOfTen (k := k.natAbs) (by omega)
    have hzero : unpacked (0 : ℕ).toUInt64.toFloat = .zero .positive := rfl
    dsimp only
    split
    · have hdiv : (0 : ℕ).toUInt64.toFloat / powerOfTen k.natAbs (by omega) =
          packed (.div Format.binary64 (.zero .positive) (.finite .positive m e hm)) := by rw [div_eq, hx, hzero]
      exact hdiv
    · have hmul : (0 : ℕ).toUInt64.toFloat * powerOfTen k.natAbs (by omega) =
          packed (.mul Format.binary64 (.zero .positive) (.finite .positive m e hm)) := by rw [mul_eq, hx, hzero]
      exact hmul
  · dsimp only
    rw [Float.Model.ofScientific, UnpackedFloat.ofScientific, dif_pos rfl]
    rfl

/-- A decimal is read as the float that it lies around. -/
theorem nearest_eq {n : ℕ} {k : ℤ} (hc : Canonical m e) (hn : 0 < n)
    (hv : Surrounds m e (n * 10 ^ k / 2 ^ e)) : nearest n k = packed (.finite .positive m e hc.pos) := by
  rw [nearest, Float.ofScientific]
  split
  · next hsmall =>
    obtain ⟨m₁, e₁, h₁, hx₁, hlong₁, hvalue₁⟩ := isWhole_toFloat hn hsmall.1
    obtain ⟨m₂, e₂, h₂, hx₂, hlong₂, hvalue₂⟩ := isWhole_powerOfTen (k := k.natAbs) (by omega)
    dsimp only
    split
    · next hk =>
      have hvalue : (n : ℚ) * 10 ^ k = m₁ * 2 ^ e₁ / (m₂ * 2 ^ e₂) := by
        have hk' : k = -(k.natAbs : ℤ) := by have := of_decide_eq_true hk; omega
        rw [hvalue₁, hvalue₂]
        nth_rewrite 1 [hk']
        rw [zpow_neg, zpow_natCast]
        push_cast
        rfl
      rw [hvalue] at hv
      have hdiv : n.toUInt64.toFloat / powerOfTen k.natAbs (by omega) = packed (.div Format.binary64
          (.finite .positive m₁ e₁ h₁) (.finite .positive m₂ e₂ h₂)) := by rw [div_eq, hx₁, hx₂]
      exact hdiv.trans (congrArg packed (div_eq_of_surrounds .positive .positive h₁ h₂ hc hv))
    · next hk =>
      have hvalue : (n : ℚ) * 10 ^ k = m₁ * 2 ^ e₁ * (m₂ * 2 ^ e₂) := by
        have hk' : k = (k.natAbs : ℤ) := by have := of_decide_eq_false (Bool.not_eq_true _ ▸ hk); omega
        rw [hvalue₁, hvalue₂]
        nth_rewrite 1 [hk']
        rw [zpow_natCast]
        push_cast
        rfl
      rw [hvalue] at hv
      have hmul : n.toUInt64.toFloat * powerOfTen k.natAbs (by omega) = packed (.mul Format.binary64
          (.finite .positive m₁ e₁ h₁) (.finite .positive m₂ e₂ h₂)) := by rw [mul_eq, hx₁, hx₂]
      have hlong : 2 ^ 52 ≤ m₁ * m₂ := hlong₁.trans (Nat.le_mul_of_pos_right m₁ h₂)
      exact hmul.trans (congrArg packed (mul_eq_of_surrounds .positive .positive h₁ h₂ hc hv
        ((Nat.le_log2 ((Nat.two_pow_pos 52).trans_le hlong).ne').2 hlong)))
  · have hexponent : (if decide (k < 0) = true then Int.negOfNat k.natAbs else Int.ofNat k.natAbs) = k := by
      by_cases hk : k < 0
      · rw [if_pos (decide_eq_true hk), Int.negOfNat_eq]
        show -(k.natAbs : ℤ) = k
        omega
      · rw [if_neg (by simpa using hk)]
        exact Int.natAbs_of_nonneg (by omega)
    dsimp only
    rw [hexponent]
    exact congrArg packed (ofScientific_eq hc hn hv)

/-- A float that is a whole number is read from every decimal with its value. -/
theorem nearest_of_isWhole {x : Float} {w : ℕ} (hx : Binary.IsWhole x w) {n : ℕ} (hn : 0 < n) {k : ℤ}
    (hvalue : (n : ℚ) * 10 ^ k = w) : nearest n k = x := by
  obtain ⟨m, e, hm, hunpacked, -, hw⟩ := hx
  have hself := surrounds_self m e
  rw [hw, ← hvalue] at hself
  rw [nearest_eq (canonical_of_unpacked hunpacked) hn hself, ← hunpacked, packed_unpacked]

theorem toFloat_eq_nearest {n : ℕ} (hn : n < 2 ^ 53) : n.toUInt64.toFloat = nearest n 0 := by
  rcases n.eq_zero_or_pos with rfl | hpos
  · rw [nearest_zero]
    exact unpacked_injective rfl
  · have hvalue : (n : ℚ) * 10 ^ (0 : ℤ) = n := by rw [zpow_zero, mul_one]
    exact (nearest_of_isWhole (isWhole_toFloat hpos hn) hpos hvalue).symm

theorem powerOfTen_eq_nearest {k : ℕ} (hk : k < 23) : powerOfTen k hk = nearest 1 k := by
  have hvalue : ((1 : ℕ) : ℚ) * 10 ^ (k : ℤ) = (10 ^ k : ℕ) := by push_cast; rw [one_mul, zpow_natCast]
  exact (nearest_of_isWhole (isWhole_powerOfTen hk) one_pos hvalue).symm

/-- A short decimal is multiplied by a small power of ten. -/
theorem nearest_short {n k : ℕ} (hn : n < 2 ^ 53) (hk : k ≤ 22) : nearest n k = nearest n 0 * nearest 1 k := by
  have hnonneg : ¬ (k : ℤ) < 0 := by omega
  rw [← toFloat_eq_nearest hn, ← powerOfTen_eq_nearest (Nat.lt_succ_of_le hk), nearest, decide_eq_false hnonneg,
    Int.natAbs_natCast, Float.ofScientific, dif_pos ⟨hn, hk⟩]
  rfl

/-- A short decimal is divided by a small power of ten. -/
theorem nearest_short_negSucc {n k : ℕ} (hn : n < 2 ^ 53) (hk : k + 1 ≤ 22) :
    nearest n (.negSucc k) = nearest n 0 / nearest 1 (k + 1 : ℕ) := by
  rw [← toFloat_eq_nearest hn, ← powerOfTen_eq_nearest (Nat.lt_succ_of_le hk), nearest,
    decide_eq_true (Int.negSucc_lt_zero k), Int.natAbs_negSucc, Float.ofScientific, dif_pos ⟨hn, hk⟩]
  rfl

end Decimal

end PackageTriage
