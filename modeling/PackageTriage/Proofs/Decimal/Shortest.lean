import PackageTriage.Decimal.Shortest
import PackageTriage.Proofs.Decimal.Digits
import PackageTriage.Proofs.Scalar.Rounding

/-!
# The fewest digits read back

Whatever the search for the fewest digits stops at is rounded to the float that it was made for. What it finds
on a grid lies in the interval by the search's own test. Where it gives up, at seventeen digits, the grid is so
fine that the nearer neighbour has to lie there.
-/

namespace PackageTriage.Decimal

open Binary

variable {m : ℕ} {e : ℤ}

/-- A power with any integer exponent as a quotient of two whole numbers. -/
theorem zpow_eq_div {b : ℕ} (hb : 0 < b) (u : ℤ) :
    (b : ℚ) ^ u = (b ^ u.toNat : ℕ) / (b ^ (-u).toNat : ℕ) := by
  have hb' : (b : ℚ) ≠ 0 := by exact_mod_cast hb.ne'
  push_cast
  rw [← zpow_natCast, ← zpow_natCast, ← zpow_sub₀ hb']
  congr 1
  omega

section

variable {i : Interval} {u : ℤ}

theorem den_inUnits_pos (hden : 0 < i.den) : 0 < (i.inUnits u).den :=
  Nat.mul_pos hden (Nat.pow_pos (by decide))

/-- A number over the denominator of the interval, counted in units. -/
theorem cast_inUnits (n : ℕ) (hden : 0 < i.den) :
    ((n * 10 ^ (-u).toNat : ℕ) : ℚ) / ((i.inUnits u).den : ℕ) * 10 ^ u = n / i.den := by
  have hten : (10 : ℚ) ^ u = (10 ^ u.toNat : ℕ) / (10 ^ (-u).toNat : ℕ) := zpow_eq_div (by decide) u
  have hden' : ((i.inUnits u).den : ℚ) = i.den * (10 ^ u.toNat : ℕ) := by
    rw [← Nat.cast_mul]
    rfl
  have hpos : (0 : ℚ) < i.den := by exact_mod_cast hden
  rw [hten, hden', Nat.cast_mul]
  field_simp

theorem inUnits_le_iff (n c : ℕ) (hden : 0 < i.den) :
    n * 10 ^ (-u).toNat ≤ c * (i.inUnits u).den ↔ (n : ℚ) / i.den ≤ c * 10 ^ u := by
  have hpos : (0 : ℚ) < (i.inUnits u).den := by exact_mod_cast den_inUnits_pos hden
  rw [← cast_inUnits (u := u) n hden, mul_le_mul_iff_left₀ (by positivity), div_le_iff₀ hpos]
  exact_mod_cast Iff.rfl

theorem le_inUnits_iff (n c : ℕ) (hden : 0 < i.den) :
    c * (i.inUnits u).den ≤ n * 10 ^ (-u).toNat ↔ (c : ℚ) * 10 ^ u ≤ n / i.den := by
  have hpos : (0 : ℚ) < (i.inUnits u).den := by exact_mod_cast den_inUnits_pos hden
  rw [← cast_inUnits (u := u) n hden, mul_le_mul_iff_left₀ (by positivity), le_div_iff₀ hpos]
  exact_mod_cast Iff.rfl

end

theorem den_ofBinary_pos (m : ℕ) (e : ℤ) : 0 < (Interval.ofBinary m e).den :=
  Nat.mul_pos (by decide) (Nat.pow_pos (by decide))

/-- The lower end lies half a spacing, or a quarter at a power of two, below the number. -/
theorem low_ofBinary (hm : 0 < m) :
    ((Interval.ofBinary m e).low : ℚ) / (Interval.ofBinary m e).den = (m - below m e) * 2 ^ e := by
  have htwo : (2 : ℚ) ^ e = (2 ^ e.toNat : ℕ) / (2 ^ (-e).toNat : ℕ) := zpow_eq_div (by decide) e
  have hlow : (Interval.ofBinary m e).low =
      (4 * m - if m = 2 ^ 52 ∧ -1074 < e then 1 else 2) * (1 * 2 ^ e.toNat) := rfl
  have hden : (Interval.ofBinary m e).den = 4 * 2 ^ (-e).toNat := rfl
  rw [htwo, hlow, hden, below]
  split <;> rw [Nat.cast_mul, Nat.cast_sub (by omega)] <;> push_cast
  · field_simp
  · field_simp
    ring

theorem high_ofBinary (m : ℕ) (e : ℤ) :
    ((Interval.ofBinary m e).high : ℚ) / (Interval.ofBinary m e).den = (m + 1 / 2) * 2 ^ e := by
  have htwo : (2 : ℚ) ^ e = (2 ^ e.toNat : ℕ) / (2 ^ (-e).toNat : ℕ) := zpow_eq_div (by decide) e
  have hhigh : (Interval.ofBinary m e).high = (4 * m + 2) * (1 * 2 ^ e.toNat) := rfl
  have hden : (Interval.ofBinary m e).den = 4 * 2 ^ (-e).toNat := rfl
  rw [htwo, hhigh, hden]
  push_cast
  field_simp
  ring

theorem mid_ofBinary (m : ℕ) (e : ℤ) :
    ((Interval.ofBinary m e).mid : ℚ) / (Interval.ofBinary m e).den = m * 2 ^ e := by
  have htwo : (2 : ℚ) ^ e = (2 ^ e.toNat : ℕ) / (2 ^ (-e).toNat : ℕ) := zpow_eq_div (by decide) e
  have hmid : (Interval.ofBinary m e).mid = 4 * m * (1 * 2 ^ e.toNat) := rfl
  have hden : (Interval.ofBinary m e).den = 4 * 2 ^ (-e).toNat := rfl
  rw [htwo, hmid, hden]
  push_cast
  field_simp

/-- What the interval holds is rounded to the float. -/
theorem surrounds_of_holds {u : ℤ} {c : ℕ} (hm : 0 < m)
    (h : ((Interval.ofBinary m e).inUnits u).holds c = true) : Surrounds m e (c * 10 ^ u / 2 ^ e) := by
  set i := Interval.ofBinary m e
  have hden : 0 < i.den := den_ofBinary_pos m e
  have hunit : (0 : ℚ) < 2 ^ e := zpow_pos two_pos e
  have hlow : (i.inUnits u).low = i.low * 10 ^ (-u).toNat := rfl
  have hhigh : (i.inUnits u).high = i.high * 10 ^ (-u).toNat := rfl
  rw [Interval.holds, hlow, hhigh] at h
  split at h
  · next hclosed =>
    have heven : m % 2 = 0 := of_decide_eq_true hclosed
    rw [Bool.and_eq_true, decide_eq_true_eq, decide_eq_true_eq, inUnits_le_iff _ _ hden, le_inUnits_iff _ _ hden,
      low_ofBinary hm, high_ofBinary, ← le_div_iff₀ hunit, ← div_le_iff₀ hunit] at h
    exact ⟨h.1, h.2, fun hodd => by omega⟩
  · rw [Bool.and_eq_true, decide_eq_true_eq, decide_eq_true_eq, ← not_le, ← not_le, inUnits_le_iff _ _ hden,
      le_inUnits_iff _ _ hden, not_le, not_le, low_ofBinary hm, high_ofBinary, ← lt_div_iff₀ hunit,
      ← div_lt_iff₀ hunit] at h
    exact ⟨h.1.le, h.2.le, fun _ => h⟩

theorem roundQuotient_eq (tie : Tie) (n d : ℕ) :
    roundQuotient tie n d = n / d ∨ roundQuotient tie n d = n / d + 1 := by
  rw [roundQuotient.eq_def]
  dsimp only
  split
  · exact .inl rfl
  split
  · exact .inr rfl
  cases tie with
  | up => exact .inr rfl
  | even => rcases Nat.mod_two_eq_zero_or_one (n / d) with h | h <;> rw [h]; exacts [.inl rfl, .inr rfl]

/-- The rounded quotient is off by a half at most. -/
theorem roundQuotient_near (tie : Tie) (n : ℕ) {d : ℕ} (hd : 0 < d) :
    |(roundQuotient tie n d : ℚ) - n / d| ≤ 1 / 2 := by
  have hnat : 2 * (roundQuotient tie n d * d) ≤ 2 * n + d ∧ 2 * n ≤ 2 * (roundQuotient tie n d * d) + d := by
    have hdiv := Nat.div_add_mod' n d
    have hmod := Nat.mod_lt n hd
    rw [roundQuotient.eq_def]
    dsimp only
    split
    · omega
    split
    · rw [Nat.add_one_mul (n / d) d]
      omega
    cases tie with
    | up =>
      dsimp only
      rw [Nat.add_one_mul (n / d) d]
      omega
    | even =>
      dsimp only
      rcases Nat.mod_two_eq_zero_or_one (n / d) with h | h <;> rw [h]
      · rw [Nat.add_zero]
        omega
      · rw [Nat.add_one_mul (n / d) d]
        omega
  have hpos : (0 : ℚ) < d := by exact_mod_cast hd
  have hlow : 2 * ((roundQuotient tie n d : ℚ) * d) ≤ 2 * n + d := by exact_mod_cast hnat.1
  have hhigh : 2 * (n : ℚ) ≤ 2 * (roundQuotient tie n d * d) + d := by exact_mod_cast hnat.2
  rw [abs_le]
  constructor
  · rw [neg_le_sub_iff_le_add, div_le_iff₀ hpos]
    linarith
  · rw [sub_le_iff_le_add, ← sub_le_iff_le_add', le_div_iff₀ hpos]
    linarith

/-- What the search for an integer returns lies in the interval. -/
theorem holds_of_integer? {tie : Tie} {i : Interval} {c : ℕ} (h : i.integer? tie = some c) : i.holds c = true := by
  rw [Interval.integer?] at h
  split at h
  · next hlow hhigh =>
    rcases roundQuotient_eq tie i.mid i.den with heq | heq <;> rw [← Option.some.inj h, heq] <;> assumption
  · next hlow _ => rwa [← Option.some.inj h]
  · next _ hhigh => rwa [← Option.some.inj h]
  · simp at h

theorem lt_pow_width (n : ℕ) : n < 10 ^ width n := by
  rw [width]
  split
  · next h => rw [h]; exact Nat.one_pos
  · exact (Nat.length_toDigits_le_iff (by decide) Nat.length_toDigits_pos).1 le_rfl

theorem pow_width_le {n : ℕ} (hn : n ≠ 0) : 10 ^ (width n - 1) ≤ n := by
  rw [width, if_neg hn]
  rcases Nat.eq_zero_or_pos ((Nat.toDigits 10 n).length - 1) with hone | hmore
  · rw [hone]
    exact Nat.pos_of_ne_zero hn
  · rw [← not_lt, ← Nat.length_toDigits_le_iff (by decide) hmore]
    omega

/-- The leading digit is not before the number. -/
theorem zpow_leadingExponent_le {num den : ℕ} (hnum : 0 < num) (hden : 0 < den) :
    (10 : ℚ) ^ leadingExponent num den ≤ num / den := by
  have hden' : (0 : ℚ) < den := by exact_mod_cast hden
  rw [leadingExponent]
  split
  · next hle =>
    have hquotient : num / den ≠ 0 := (Nat.div_pos hle hden).ne'
    have hwidth : 0 < width (num / den) := by
      rw [width, if_neg hquotient]
      exact Nat.length_toDigits_pos
    have hexponent : (width (num / den) : ℤ) - 1 = (width (num / den) - 1 : ℕ) := by omega
    have hpower : ((10 ^ (width (num / den) - 1) : ℕ) : ℚ) ≤ (num / den : ℕ) := by
      exact_mod_cast pow_width_le hquotient
    rw [hexponent, zpow_natCast]
    calc (10 : ℚ) ^ (width (num / den) - 1) ≤ (num / den : ℕ) := by exact_mod_cast hpower
      _ ≤ num / den := Nat.cast_div_le
  · next hlt =>
    set w := width ((den + num - 1) / num - 1)
    have hpower : den ≤ num * 10 ^ w := by
      have hceil := lt_pow_width ((den + num - 1) / num - 1)
      calc den ≤ num * ((den + num - 1) / num) := by
            have hdiv := Nat.div_add_mod (den + num - 1) num
            have hmod := Nat.mod_lt (den + num - 1) hnum
            omega
        _ ≤ num * 10 ^ w := Nat.mul_le_mul_left _ (Nat.le_of_pred_lt hceil)
    rw [zpow_neg, zpow_natCast, inv_le_iff_one_le_mul₀ (by positivity), ← mul_div_right_comm, le_div_iff₀ hden',
      one_mul]
    exact_mod_cast hpower

/-- A number that is off by half a grid step, the grid having seventeen digits, is rounded to the float. -/
theorem surrounds_of_near (hc : Canonical m e) {q : ℚ} (h : |q - m| ≤ m / (2 * 10 ^ 16)) : Surrounds m e q := by
  obtain ⟨hlow, hhigh⟩ := abs_le.1 h
  have hlt : (m : ℚ) + 1 ≤ 2 ^ 53 := by exact_mod_cast hc.lt
  have hgap : (m : ℚ) / (2 * 10 ^ 16) < below m e := by
    rw [below]
    split
    · next hleast =>
      rw [hleast.1]
      norm_num
    · rw [div_lt_iff₀ (by norm_num)]
      linarith
  have hhalf := below_le m e
  have hlow' : m - below m e < q := by linarith
  have hhigh' : q < m + 1 / 2 := by linarith
  exact ⟨hlow'.le, hhigh'.le, fun _ => ⟨hlow', hhigh'⟩⟩

/-- The search gives some multiple of a power of ten that is rounded to the float. -/
theorem shortestFrom_spec (tie : Tie) (hc : Canonical m e) {leading : ℤ} (hleading : (10 : ℚ) ^ leading ≤ m * 2 ^ e)
    {steps count : ℕ} (hsteps : steps + count = 17) :
    ∃ (c : ℕ) (u : ℤ), shortestFrom tie (.ofBinary m e) leading steps count = ofScaled c u ∧
      Surrounds m e (c * 10 ^ u / 2 ^ e) := by
  induction steps generalizing count with
  | succ steps ih =>
    rw [shortestFrom]
    split
    · next c hfound => exact ⟨c, _, rfl, surrounds_of_holds hc.pos (holds_of_integer? hfound)⟩
    · exact ih (by omega)
  | zero =>
    obtain rfl : count = 17 := by omega
    have hden := den_ofBinary_pos m e
    have hunit : (0 : ℚ) < 2 ^ e := zpow_pos two_pos e
    set u := leading - 17 + 1 with hu
    set i := Interval.ofBinary m e
    refine ⟨_, u, rfl, surrounds_of_near hc ?_⟩
    have hstep : (0 : ℚ) < 10 ^ u := by positivity
    have hnear := roundQuotient_near tie (i.inUnits u).mid (den_inUnits_pos (u := u) hden)
    set c := roundQuotient tie (i.inUnits u).mid (i.inUnits u).den
    have hmid : ((i.inUnits u).mid : ℚ) / (i.inUnits u).den * 10 ^ u = m * 2 ^ e :=
      (cast_inUnits i.mid hden).trans (mid_ofBinary m e)
    have hgrid : (10 : ℚ) ^ u * 10 ^ 16 = 10 ^ leading := by
      rw [hu, ← zpow_natCast (10 : ℚ) 16, ← zpow_add₀ (by norm_num)]
      congr 1
      omega
    calc |(c : ℚ) * 10 ^ u / 2 ^ e - m|
        = |(c : ℚ) - (i.inUnits u).mid / (i.inUnits u).den| * 10 ^ u / 2 ^ e := by
          rw [← abs_of_pos hstep, ← abs_mul, abs_of_pos hstep, sub_mul, hmid, ← abs_of_pos hunit, ← abs_div,
            abs_of_pos hunit, sub_div, mul_div_cancel_right₀ _ hunit.ne']
      _ ≤ 1 / 2 * 10 ^ u / 2 ^ e := by gcongr
      _ ≤ m / (2 * 10 ^ 16) := by
          rw [div_le_div_iff₀ hunit (by norm_num)]
          linarith

/-- The shortest decimal of a float has proper digits and is rounded to the float. -/
theorem shortest_spec (tie : Tie) (hc : Canonical m e) :
    Proper (shortest tie m e).digits ∧ Surrounds m e ((shortest tie m e).value / 2 ^ e) := by
  have hratio : (10 : ℚ) ^ leadingExponent (binaryRatio m e).1 (binaryRatio m e).2 ≤ m * 2 ^ e := by
    have htwo : (2 : ℚ) ^ e = (2 ^ e.toNat : ℕ) / (2 ^ (-e).toNat : ℕ) := zpow_eq_div (by decide) e
    have hnum : 0 < m * 2 ^ e.toNat := Nat.mul_pos hc.pos (Nat.two_pow_pos _)
    refine (zpow_leadingExponent_le hnum (Nat.two_pow_pos _)).trans_eq ?_
    rw [htwo, Nat.cast_mul, mul_div_assoc]
  obtain ⟨c, u, hfound, hsurrounds⟩ := shortestFrom_spec tie hc hratio (by decide : 16 + 1 = 17)
  have hshortest : shortest tie m e = { ofScaled c u with digits := dropTrailingZeros (ofScaled c u).digits } := by
    rw [shortest]
    dsimp only
    rw [hfound]
  rw [hshortest, value_dropTrailingZeros, value_ofScaled]
  refine ⟨(proper_digitsOf ?_).dropTrailingZeros, hsurrounds⟩
  rintro rfl
  have hpos := hsurrounds.pos hc.pos
  rw [Nat.cast_zero, zero_mul] at hpos
  exact hpos.false

end PackageTriage.Decimal
