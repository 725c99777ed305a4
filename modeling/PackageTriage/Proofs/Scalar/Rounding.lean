import PackageTriage.Proofs.Scalar.Packing

/-!
# Rounding to nearest

A float stands for the numbers between the midpoints to its two neighbours, the midpoints included exactly
when its mantissa is even. Whatever lies there is rounded to it, however the number is given: as a mantissa
with something cut off behind it, as a product or as a quotient.
-/

namespace PackageTriage.Binary

open Float.Model UnpackedFloat

/-- A mantissa with its residual bits stands for a number, counted in units of the last place. -/
def Approximates (em : ExtendedMantissa) (q : ℚ) : Prop :=
  match em.roundBit, em.stickyBit with
  | false, false => q = em.mantissa
  | false, true => em.mantissa < q ∧ q < em.mantissa + 1 / 2
  | true, false => q = em.mantissa + 1 / 2
  | true, true => em.mantissa + 1 / 2 < q ∧ q < em.mantissa + 1

theorem Approximates.bounds {em : ExtendedMantissa} {q : ℚ} (h : Approximates em q) :
    em.mantissa ≤ q ∧ q < em.mantissa + 1 := by
  obtain ⟨m, roundBit, stickyBit⟩ := em
  cases roundBit <;> cases stickyBit <;> simp only [Approximates] at h ⊢ <;> constructor <;> linarith

theorem Approximates.shiftRightOne {em : ExtendedMantissa} {q : ℚ} (h : Approximates em q) :
    Approximates em.shiftRightOne (q / 2) := by
  obtain ⟨m, roundBit, stickyBit⟩ := em
  have hm : (m : ℚ) = 2 * (m / 2 : ℕ) + (m % 2 : ℕ) := by exact_mod_cast (Nat.div_add_mod m 2).symm
  rcases Nat.mod_two_eq_zero_or_one m with hbit | hbit
  · rw [hbit, Nat.cast_zero, add_zero] at hm
    cases roundBit <;> cases stickyBit <;>
      simp only [Approximates, ExtendedMantissa.shiftRightOne, hbit, bne_self_eq_false, Bool.or_self, Bool.or_true,
        Bool.or_false] at h ⊢ <;>
      first | linarith | (constructor <;> linarith)
  · rw [hbit, Nat.cast_one] at hm
    have hodd : (m % 2 != 0) = true := by rw [hbit]; rfl
    cases roundBit <;> cases stickyBit <;>
      simp only [Approximates, ExtendedMantissa.shiftRightOne, hodd, Bool.or_self, Bool.or_true,
        Bool.or_false] at h ⊢ <;>
      first | linarith | (constructor <;> linarith)

theorem Approximates.shiftRight {em : ExtendedMantissa} {q : ℚ} (h : Approximates em q) (k : Nat) :
    Approximates (em >>> k) (q / 2 ^ k) := by
  induction k with
  | zero =>
    rw [pow_zero, div_one]
    exact h
  | succ k ih =>
    have hstep : em >>> (k + 1) = (em >>> k).shiftRightOne := rfl
    rw [hstep, pow_succ, ← div_div]
    exact ih.shiftRightOne

/-- The integer that a number is rounded to is the nearest, and the even one of two. -/
structure RoundsTo (q : ℚ) (n : ℕ) : Prop where
  low : (n : ℚ) - 1 / 2 ≤ q
  high : q ≤ n + 1 / 2
  inside : n % 2 = 1 → (n : ℚ) - 1 / 2 < q ∧ q < n + 1 / 2

/-- The rounded mantissa is the only one within half a spacing, ties to even. -/
theorem Approximates.roundedMantissa_eq {em : ExtendedMantissa} {q : ℚ} {n : ℕ} (h : Approximates em q)
    (hn : RoundsTo q n) : em.roundedMantissa = n := by
  obtain ⟨hlow, hhigh, hinside⟩ := hn
  obtain ⟨hfloor, hceil⟩ := h.bounds
  obtain ⟨m, roundBit, stickyBit⟩ := em
  have hle : m ≤ n := by
    have hlt : (m : ℚ) < n + 1 := by linarith
    exact Nat.lt_succ_iff.1 (by exact_mod_cast hlt)
  have hge : n ≤ m + 1 := by
    have hlt : (n : ℚ) < m + 2 := by linarith
    exact Nat.lt_succ_iff.1 (by exact_mod_cast hlt)
  obtain rfl | rfl : n = m ∨ n = m + 1 := by omega
  · match roundBit, stickyBit, h with
    | false, false, _ => rfl
    | false, true, _ => rfl
    | true, false, (h : q = n + 1 / 2) =>
      have heven : n % 2 = 0 := (Nat.mod_two_eq_zero_or_one n).resolve_right fun hodd => by
        linarith [(hinside hodd).2]
      show n + n % 2 = n
      rw [heven, add_zero]
    | true, true, (h : n + 1 / 2 < q ∧ q < n + 1) => linarith [h.1]
  · push_cast at hlow hinside
    match roundBit, stickyBit, h with
    | false, false, (h : q = m) => linarith
    | false, true, (h : m < q ∧ q < m + 1 / 2) => linarith [h.2]
    | true, false, (h : q = m + 1 / 2) =>
      have hodd : m % 2 = 1 := (Nat.mod_two_eq_zero_or_one m).resolve_left fun heven => by
        linarith [(hinside (by omega)).1]
      show m + m % 2 = m + 1
      rw [hodd]
    | true, true, _ => rfl

/-- How far below a float the numbers end that are rounded to it, counted in units of its last place. The
neighbour below a power of two is half as far away, except at the least exponent. -/
def below (m : ℕ) (e : ℤ) : ℚ := if m = 2 ^ 52 ∧ -1074 < e then 1 / 4 else 1 / 2

/-- The number `q × 2 ^ e` is rounded to `m × 2 ^ e`. -/
structure Surrounds (m : ℕ) (e : ℤ) (q : ℚ) : Prop where
  low : m - below m e ≤ q
  high : q ≤ m + 1 / 2
  inside : m % 2 = 1 → m - below m e < q ∧ q < m + 1 / 2

theorem targetExponent_eq (a : ℕ) (f : ℤ) :
    Format.binary64.targetExponent (totalExponent a f) = max (a.log2 + f - 52) (-1074) := by
  have htarget : Format.binary64.targetExponent (totalExponent a f) = max (a.log2 + 1 + f - 53) (-1074) := rfl
  omega

/-- A mantissa of at most 53 bits is in its place, if it uses all of them or has the least exponent. -/
theorem targetExponent_of_bits {m : ℕ} {e : ℤ} (hlt : m < 2 ^ 53) (hleast : -1074 ≤ e)
    (hbits : e = -1074 ∨ 2 ^ 52 ≤ m) : Format.binary64.targetExponent (totalExponent m e) = e := by
  rw [targetExponent_eq]
  rcases hbits with rfl | hbits
  · have hlog : m.log2 < 53 := by
      rcases Nat.eq_zero_or_pos m with rfl | hpos
      · rw [Nat.log2_zero]
        omega
      · exact (Nat.log2_lt hpos.ne').2 hlt
    omega
  · rw [log2_eq hbits hlt]
    omega

theorem Canonical.targetExponent {m : ℕ} {e : ℤ} (h : Canonical m e) :
    Format.binary64.targetExponent (totalExponent m e) = e :=
  targetExponent_of_bits h.lt h.least h.normal

/-- A number between the powers of two that its leading digits give. -/
theorem Approximates.bounds_two {a : ℕ} {f : ℤ} {accuracy : Accuracy} {v : ℚ}
    (h : Approximates (ExtendedMantissa.ofMantissaAndAccuracy a accuracy) (v / 2 ^ f)) :
    v < 2 ^ (a.log2 + 1 + f : ℤ) ∧ (a ≠ 0 → 2 ^ (a.log2 + f : ℤ) ≤ v) := by
  have hmantissa : (ExtendedMantissa.ofMantissaAndAccuracy a accuracy).mantissa = a := by
    cases accuracy with
    | exact => rfl
    | inexact o => cases o <;> rfl
  obtain ⟨hfloor, hceil⟩ := h.bounds
  rw [hmantissa] at hfloor hceil
  have hunit : (0 : ℚ) < 2 ^ f := zpow_pos two_pos f
  rw [le_div_iff₀ hunit] at hfloor
  rw [div_lt_iff₀ hunit] at hceil
  constructor
  · have hlog : (a : ℚ) + 1 ≤ 2 ^ (a.log2 + 1) := by exact_mod_cast @Nat.lt_log2_self a
    calc v < (a + 1) * 2 ^ f := hceil
      _ ≤ 2 ^ (a.log2 + 1) * 2 ^ f := by gcongr
      _ = 2 ^ (a.log2 + 1 + f : ℤ) := by
        rw [zpow_add₀ two_ne_zero (a.log2 + 1 : ℤ) f]
        norm_cast
  · intro ha
    have hlog : (2 : ℚ) ^ a.log2 ≤ a := by exact_mod_cast Nat.log2_self_le ha
    calc (2 : ℚ) ^ (a.log2 + f : ℤ) = 2 ^ a.log2 * 2 ^ f := by
          rw [zpow_add₀ two_ne_zero (a.log2 : ℤ) f, zpow_natCast]
      _ ≤ a * 2 ^ f := by gcongr
      _ ≤ v := hfloor

section

variable {m a : ℕ} {e f : ℤ} {accuracy : Accuracy} {v : ℚ}

theorem below_le (m : ℕ) (e : ℤ) : below m e ≤ 1 / 2 := by
  rw [below]
  split <;> norm_num

theorem Surrounds.bounds (h : Surrounds m e (v / 2 ^ e)) :
    (m - below m e) * 2 ^ e ≤ v ∧ v ≤ (m + 1 / 2) * 2 ^ e := by
  have hunit : (0 : ℚ) < 2 ^ e := zpow_pos two_pos e
  exact ⟨(le_div_iff₀ hunit).1 h.low, (div_le_iff₀ hunit).1 h.high⟩

theorem Surrounds.pos (h : Surrounds m e (v / 2 ^ e)) (hm : 0 < m) : 0 < v := by
  have hone : (1 : ℚ) ≤ m := by exact_mod_cast hm
  have hlow : 0 < m - below m e := by linarith [below_le m e]
  exact (mul_pos hlow (zpow_pos two_pos e)).trans_le h.bounds.1

theorem Surrounds.mul_le (h : Surrounds m e (v / 2 ^ e)) {c : ℚ} (hc : c ≤ m - 1 / 2) : c * 2 ^ e ≤ v := by
  refine le_trans ?_ h.bounds.1
  gcongr
  linarith [below_le m e]

theorem zpow_add_eq (k : ℕ) (e : ℤ) : (2 : ℚ) ^ (k + e : ℤ) = 2 ^ k * 2 ^ e := by
  rw [zpow_add₀ two_ne_zero, zpow_natCast]

theorem Surrounds.lt_zpow (h : Surrounds m e (v / 2 ^ e)) (hc : Canonical m e) : v < 2 ^ ((53 : ℕ) + e) := by
  have hlt : (m : ℚ) + 1 ≤ 2 ^ 53 := by exact_mod_cast hc.lt
  rw [zpow_add_eq]
  refine h.bounds.2.trans_lt ?_
  gcongr
  linarith

theorem Surrounds.zpow_le (h : Surrounds m e (v / 2 ^ e)) (hc : Canonical m e) (he : e ≠ -1074) :
    2 ^ ((51 : ℕ) + e) ≤ v := by
  have hnormal : (2 : ℚ) ^ 52 ≤ m := by exact_mod_cast hc.normal.resolve_left he
  rw [zpow_add_eq]
  exact h.mul_le (by linarith)

/-- Only a power of two has numbers around it that begin at a lower place. -/
theorem Surrounds.eq_pow (h : Surrounds m e (v / 2 ^ e)) (hc : Canonical m e) (he : e ≠ -1074)
    (hlt : v < 2 ^ ((52 : ℕ) + e)) : m = 2 ^ 52 := by
  by_contra hne
  have hnormal := hc.normal.resolve_left he
  have hmore : (2 : ℚ) ^ 52 + 1 ≤ m := by exact_mod_cast (show 2 ^ 52 + 1 ≤ m by omega)
  rw [zpow_add_eq] at hlt
  exact absurd (h.mul_le (by linarith)) (not_le.2 hlt)

section

variable (ha : Approximates (ExtendedMantissa.ofMantissaAndAccuracy a accuracy) (v / 2 ^ f))

include ha

theorem Approximates.log2_lt (hzero : a ≠ 0) {k : ℤ} (hv : v < 2 ^ k) : (a.log2 : ℤ) + f < k :=
  (zpow_lt_zpow_iff_right₀ one_lt_two).1 ((ha.bounds_two.2 hzero).trans_lt hv)

theorem Approximates.lt_log2 {k : ℤ} (hv : 2 ^ k ≤ v) : k < a.log2 + 1 + f :=
  (zpow_lt_zpow_iff_right₀ one_lt_two).1 (hv.trans_lt ha.bounds_two.1)

/-- What is rounded to a float gets its exponent. Just below a power of two it gets one less at first, and
another mantissa. -/
theorem targetExponent_eq_or (hc : Canonical m e) (hv : Surrounds m e (v / 2 ^ e))
    (hf : f ≤ Format.binary64.targetExponent (totalExponent a f)) :
    Format.binary64.targetExponent (totalExponent a f) = e ∨
      Format.binary64.targetExponent (totalExponent a f) = e - 1 ∧ m = 2 ^ 52 ∧ -1074 < e ∧
        v < 2 ^ ((52 : ℕ) + e) := by
  rw [targetExponent_eq] at hf ⊢
  have hleast := hc.least
  by_cases he : e = -1074
  · -- Below the least exponent there is no target.
    by_cases hzero : a = 0
    · subst hzero
      simp only [Nat.log2_zero, Nat.cast_zero, zero_add] at hf ⊢
      exact .inl (by omega)
    · have htop := ha.log2_lt hzero (hv.lt_zpow hc)
      exact .inl (by omega)
  have hbottom := ha.lt_log2 (hv.zpow_le hc he)
  have hzero : a ≠ 0 := by
    rintro rfl
    simp only [Nat.log2_zero, Nat.cast_zero, zero_add] at hf hbottom
    omega
  have htop := ha.log2_lt hzero (hv.lt_zpow hc)
  by_cases hpow : 2 ^ ((52 : ℕ) + e) ≤ v
  · have hgt := ha.lt_log2 hpow
    exact .inl (by omega)
  · rw [not_le] at hpow
    have hlt := ha.log2_lt hzero hpow
    exact .inr ⟨by omega, hv.eq_pow hc he hpow, by omega, hpow⟩

end

/-- A number within the surroundings of a float rounds to it. -/
theorem Surrounds.roundsTo (h : Surrounds m e v) : RoundsTo v m := by
  have hhalf := below_le m e
  exact ⟨by linarith [h.low], h.high, fun hodd => ⟨by linarith [(h.inside hodd).1], (h.inside hodd).2⟩⟩

/-- A mantissa in its place is not shifted. -/
theorem shift_of_bits (hlt : m < 2 ^ 53) (hleast : -1074 ≤ e) (hbits : e = -1074 ∨ 2 ^ 52 ≤ m) :
    shiftToTargetExponent Format.binary64 m e .exact = (⟨m, false, false⟩, e) := by
  rw [shiftToTargetExponent, targetExponent_of_bits hlt hleast hbits, shiftToExponent, sub_self]
  exact Prod.ext rfl (add_zero e)

/-- A mantissa that rounding has made too long is a power of two and loses a zero. -/
theorem shift_power_eq (he : -1074 < e) :
    shiftToTargetExponent Format.binary64 (2 ^ 53) (e - 1) .exact = (⟨2 ^ 52, false, false⟩, e) := by
  have htarget : Format.binary64.targetExponent (totalExponent (2 ^ 53) (e - 1)) = e := by
    rw [targetExponent_eq, Nat.log2_two_pow]
    omega
  rw [shiftToTargetExponent, htarget, shiftToExponent, sub_sub_cancel]
  exact Prod.ext rfl (sub_add_cancel e 1)

/-- The first shift of a rounding leaves the number, counted in units of the last place. -/
theorem exists_shift (ha : Approximates (ExtendedMantissa.ofMantissaAndAccuracy a accuracy) (v / 2 ^ f))
    (hf : f ≤ Format.binary64.targetExponent (totalExponent a f)) :
    ∃ em, shiftToTargetExponent Format.binary64 a f accuracy =
        (em, Format.binary64.targetExponent (totalExponent a f)) ∧
      Approximates em (v / 2 ^ Format.binary64.targetExponent (totalExponent a f)) := by
  set target := Format.binary64.targetExponent (totalExponent a f) with htarget
  refine ⟨ExtendedMantissa.ofMantissaAndAccuracy a accuracy >>> (target - f).toNat, ?_, ?_⟩
  · refine Prod.ext (by rw [htarget]; rfl) ?_
    show f + ((target - f).toNat : ℤ) = target
    omega
  · have hunits : (2 : ℚ) ^ target = 2 ^ f * 2 ^ (target - f).toNat := by
      rw [← zpow_natCast, ← zpow_add₀ two_ne_zero]
      congr 1
      omega
    rw [hunits, ← div_div]
    exact ha.shiftRight _

/-- Whatever lies around a float is rounded to it. -/
theorem roundWithAccuracy_eq (s : Sign) (hc : Canonical m e) (hv : Surrounds m e (v / 2 ^ e))
    (ha : Approximates (ExtendedMantissa.ofMantissaAndAccuracy a accuracy) (v / 2 ^ f))
    (hf : f ≤ Format.binary64.targetExponent (totalExponent a f)) :
    roundWithAccuracy Format.binary64 s a f accuracy = .finite s m e hc.pos := by
  have hor := targetExponent_eq_or ha hc hv hf
  obtain ⟨em, hshift, hshifted⟩ := exists_shift ha hf
  set target := Format.binary64.targetExponent (totalExponent a f) with htarget
  rw [roundWithAccuracy, hshift]
  dsimp only
  rcases hor with heq | ⟨heq, rfl, he, hpow⟩
  · rw [heq] at hshifted ⊢
    rw [hshifted.roundedMantissa_eq hv.roundsTo, shift_of_bits hc.lt hc.least hc.normal]
    exact dif_neg hc.pos.ne'
  · -- Counted in units half as large, the number is rounded up to the power of two.
    have hunits : v / 2 ^ (e - 1) = 2 * (v / 2 ^ e) := by
      rw [zpow_sub_one₀ two_ne_zero]
      field_simp
    have hlow := hv.low
    have hquarter : below (2 ^ 52) e = 1 / 4 := if_pos ⟨rfl, he⟩
    have htop : v / 2 ^ e < 2 ^ 52 := by
      rwa [div_lt_iff₀ (zpow_pos two_pos e), ← zpow_add_eq]
    have hrounds : RoundsTo (v / 2 ^ (e - 1)) (2 ^ 53) := by
      rw [hunits]
      rw [hquarter] at hlow
      push_cast at hlow
      refine ⟨?_, ?_, fun hodd => absurd hodd (by norm_num)⟩ <;> push_cast <;> linarith
    rw [heq] at hshifted ⊢
    rw [hshifted.roundedMantissa_eq hrounds, shift_power_eq he]
    exact dif_neg (by norm_num)

/-- A mantissa with nothing cut off stands for itself. -/
theorem approximates_exact (a : ℕ) (f : ℤ) :
    Approximates (ExtendedMantissa.ofMantissaAndAccuracy a .exact) (a * 2 ^ f / 2 ^ f) := by
  rw [mul_div_cancel_right₀ _ (zpow_ne_zero f two_ne_zero)]
  rfl

/-- The quotient of two numbers with its remainder. -/
theorem approximates_div (n : ℕ) {d : ℕ} (hd : 0 < d) :
    Approximates (ExtendedMantissa.ofMantissaAndAccuracy (n / d) (accuracyOfFraction (n % d) d)) (n / d) := by
  have hpos : (0 : ℚ) < d := by exact_mod_cast hd
  have hparts : (n : ℚ) / d = (n / d : ℕ) + (n % d : ℕ) / d := by
    rw [div_eq_iff hpos.ne', add_mul, div_mul_cancel₀ _ hpos.ne']
    exact_mod_cast (Nat.div_add_mod' n d).symm
  have hlt : ((n % d : ℕ) : ℚ) / d < 1 := by
    rw [div_lt_one hpos]
    exact_mod_cast Nat.mod_lt n hd
  rw [hparts]
  generalize n / d = a at *
  generalize n % d = r at *
  rw [accuracyOfFraction]
  split
  · next hr => simp [hr, Approximates, ExtendedMantissa.ofMantissaAndAccuracy]
  · next hr =>
    have hr' : (0 : ℚ) < r / d := div_pos (by exact_mod_cast Nat.pos_of_ne_zero hr) hpos
    cases hcompare : compare (2 * r) d with
    | lt =>
      have hhalf : (r : ℚ) / d < 1 / 2 := by
        rw [div_lt_div_iff₀ hpos two_pos, mul_comm, one_mul]
        exact_mod_cast Nat.compare_eq_lt.1 hcompare
      show (a : ℚ) < a + r / d ∧ (a : ℚ) + r / d < a + 1 / 2
      constructor <;> linarith
    | eq =>
      have hhalf : (r : ℚ) / d = 1 / 2 := by
        rw [div_eq_div_iff hpos.ne' two_ne_zero, mul_comm, one_mul]
        exact_mod_cast Nat.compare_eq_eq.1 hcompare
      show (a : ℚ) + r / d = a + 1 / 2
      rw [hhalf]
    | gt =>
      have hhalf : 1 / 2 < (r : ℚ) / d := by
        rw [div_lt_div_iff₀ two_pos hpos, one_mul, mul_comm]
        exact_mod_cast Nat.compare_eq_gt.1 hcompare
      show (a : ℚ) + 1 / 2 < a + r / d ∧ (a : ℚ) + r / d < a + 1
      constructor <;> linarith

variable {m₁ m₂ : ℕ} {e₁ e₂ : ℤ}

/-- A product with enough digits is rounded to the float that it lies around. -/
theorem mul_eq_of_surrounds (s t : Sign) (h₁ : 0 < m₁) (h₂ : 0 < m₂) (hc : Canonical m e)
    (hv : Surrounds m e (m₁ * 2 ^ e₁ * (m₂ * 2 ^ e₂) / 2 ^ e)) (hbits : 52 ≤ (m₁ * m₂).log2) :
    UnpackedFloat.mul Format.binary64 (.finite s m₁ e₁ h₁) (.finite t m₂ e₂ h₂) = .finite (s * t) m e hc.pos := by
  have hproduct : (m₁ : ℚ) * 2 ^ e₁ * (m₂ * 2 ^ e₂) = (m₁ * m₂ : ℕ) * 2 ^ (e₁ + e₂) := by
    rw [zpow_add₀ two_ne_zero]
    push_cast
    ring
  rw [hproduct] at hv
  refine roundWithAccuracy_eq (s * t) hc hv (approximates_exact _ _) ?_
  rw [targetExponent_eq]
  omega

/-- A quotient is computed with enough digits and its remainder before it is rounded. -/
theorem div_eq_round (s t : Sign) (h₁ : 0 < m₁) (h₂ : 0 < m₂) :
    ∃ a f accuracy, UnpackedFloat.div Format.binary64 (.finite s m₁ e₁ h₁) (.finite t m₂ e₂ h₂) =
        roundWithAccuracy Format.binary64 (s / t) a f accuracy ∧
      Approximates (ExtendedMantissa.ofMantissaAndAccuracy a accuracy) (m₁ * 2 ^ e₁ / (m₂ * 2 ^ e₂) / 2 ^ f) ∧
      f ≤ Format.binary64.targetExponent (totalExponent a f) := by
  set f := min (e₁ - e₂) (Format.binary64.targetExponent (totalExponent m₁ e₁ - totalExponent m₂ e₂)) with hf
  set k := (e₁ - e₂ - f).toNat with hk
  have hk' : (k : ℤ) = e₁ - e₂ - f := by omega
  have hunits : (m₁ : ℚ) * 2 ^ e₁ / (m₂ * 2 ^ e₂) / 2 ^ f = (m₁ * 2 ^ k : ℕ) / m₂ := by
    have hpower : (2 : ℚ) ^ e₁ = 2 ^ k * 2 ^ e₂ * 2 ^ f := by
      rw [← zpow_natCast, hk', ← zpow_add₀ two_ne_zero, ← zpow_add₀ two_ne_zero]
      congr 1
      omega
    have hm₂ : (m₂ : ℚ) ≠ 0 := by exact_mod_cast h₂.ne'
    rw [hpower]
    push_cast
    field_simp
  refine ⟨m₁ * 2 ^ k / m₂, f, accuracyOfFraction (m₁ * 2 ^ k % m₂) m₂, ?_, hunits ▸ approximates_div _ h₂, ?_⟩
  · rw [← Nat.shiftLeft_eq]
    rfl
  -- The exponent was chosen for the quotient to have digits enough, or is the least one.
  have hdigits : -1074 < f → 2 ^ 52 ≤ m₁ * 2 ^ k / m₂ := by
    intro hf'
    have htarget : Format.binary64.targetExponent (totalExponent m₁ e₁ - totalExponent m₂ e₂) =
        max (m₁.log2 + 1 + e₁ - (m₂.log2 + 1 + e₂) - 53) (-1074) := rfl
    rw [htarget] at hf
    have hexponents : 52 + (m₂.log2 + 1) ≤ m₁.log2 + k := by omega
    rw [Nat.le_div_iff_mul_le h₂]
    calc 2 ^ 52 * m₂ ≤ 2 ^ 52 * 2 ^ (m₂.log2 + 1) := Nat.mul_le_mul_left _ (Nat.lt_log2_self).le
      _ = 2 ^ (52 + (m₂.log2 + 1)) := (Nat.pow_add ..).symm
      _ ≤ 2 ^ (m₁.log2 + k) := Nat.pow_le_pow_right two_pos hexponents
      _ = 2 ^ m₁.log2 * 2 ^ k := Nat.pow_add ..
      _ ≤ m₁ * 2 ^ k := Nat.mul_le_mul_right _ (Nat.log2_self_le h₁.ne')
  rw [targetExponent_eq]
  by_cases hleast : f ≤ -1074
  · exact le_max_of_le_right hleast
  · have hmany := hdigits (not_le.1 hleast)
    have hlog : 52 ≤ (m₁ * 2 ^ k / m₂).log2 := (Nat.le_log2 (by omega)).2 hmany
    exact le_max_of_le_left (by omega)

/-- A quotient is rounded to the float that it lies around. -/
theorem div_eq_of_surrounds (s t : Sign) (h₁ : 0 < m₁) (h₂ : 0 < m₂) (hc : Canonical m e)
    (hv : Surrounds m e (m₁ * 2 ^ e₁ / (m₂ * 2 ^ e₂) / 2 ^ e)) :
    UnpackedFloat.div Format.binary64 (.finite s m₁ e₁ h₁) (.finite t m₂ e₂ h₂) = .finite (s / t) m e hc.pos := by
  obtain ⟨a, f, accuracy, hround, ha, hf⟩ := @div_eq_round m₁ m₂ e₁ e₂ s t h₁ h₂
  rw [hround]
  exact roundWithAccuracy_eq (s / t) hc hv ha hf

end

end PackageTriage.Binary
