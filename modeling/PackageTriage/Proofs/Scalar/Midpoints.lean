import PackageTriage.Proofs.Scalar.Nearest

/-!
# Midpoints of floats

A sum and a quotient that do not overflow are nearest to the exact ones. So half the sum of two floats lies between
them, and is neither of them if there is a float between.
-/

namespace PackageTriage.Binary

open Float.Model UnpackedFloat

/-- The value of every float lies on the grid. -/
theorem onGrid_value (x : Float) : OnGrid (value x) := by
  have hzero : OnGrid 0 := ⟨0, 0, by norm_num, by norm_num, by norm_num⟩
  rw [value]
  cases hx : unpacked x with
  | finite s m e hm =>
    have hc := canonical_of_unpacked hx
    have hm' : |(m : ℤ)| ≤ 2 ^ 53 := by
      rw [abs_of_nonneg (by positivity)]
      exact_mod_cast hc.lt.le
    have hpos : OnGrid (m * 2 ^ e) := ⟨m, e, hm', hc.least, by push_cast; rfl⟩
    cases s with
    | positive => exact hpos
    | negative => exact hpos.neg
  | _ => exact hzero

theorem abs_signed (s : Sign) (q : ℚ) : |signed s q| = |q| := by
  cases s with
  | positive => rfl
  | negative => exact abs_neg q

theorem abs_value_lt (x : Float) : |value x| < 2 ^ 53 * 2 ^ (971 : ℤ) := by
  have hzero : |(0 : ℚ)| < 2 ^ 53 * 2 ^ (971 : ℤ) := by
    rw [abs_zero]
    exact mul_pos (pow_pos two_pos _) (zpow_pos two_pos _)
  rw [value]
  cases hx : unpacked x with
  | finite s m e hm =>
    have hc := canonical_of_unpacked hx
    have hlt : (m : ℚ) < 2 ^ 53 := by exact_mod_cast hc.lt
    rw [number, abs_signed, abs_of_pos (magnitude_pos hm e)]
    calc (m : ℚ) * 2 ^ e < 2 ^ 53 * 2 ^ e := by gcongr
      _ ≤ 2 ^ 53 * 2 ^ (971 : ℤ) := by
        gcongr
        · exact one_le_two
        · exact hc.greatest
  | _ => exact hzero

/-- Every float is a whole number of least units. -/
theorem exists_units (x : Float) : ∃ j : ℤ, value x = j * leastUnit := by
  rw [value]
  cases hx : unpacked x with
  | finite s m e hm =>
    have hleast := (canonical_of_unpacked hx).least
    have hunits : (m : ℚ) * 2 ^ e = ((m * 2 ^ (e + 1074).toNat : ℤ) : ℚ) * leastUnit := by
      push_cast
      rw [leastUnit, mul_assoc, ← zpow_natCast, ← zpow_add₀ two_ne_zero]
      congr 2
      omega
    cases s with
    | positive => exact ⟨_, hunits⟩
    | negative =>
      refine ⟨-(m * 2 ^ (e + 1074).toNat : ℤ), ?_⟩
      rw [Int.cast_neg, neg_mul, ← hunits]
      rfl
  | _ => exact ⟨0, by rw [Int.cast_zero, zero_mul]; rfl⟩

/-- What packs to something finite keeps its value. -/
theorem Settled.value_packed {u : UnpackedFloat} (h : Settled u) (hfinite : (packed u).isFinite = true) :
    value (packed u) = number u := by
  cases u with
  | infinity s => exact h.elim
  | notANumber => exact h.elim
  | zero s => rw [value, unpacked_packed_zero]
  | finite s m e hm =>
    obtain ⟨hlt, hleast, hbits⟩ := h
    by_cases hgreatest : e ≤ 971
    · rw [value, unpacked_packed_finite s ⟨hm, hlt, hleast, hgreatest, hbits⟩]
    · have hpack : UnpackedFloat.pack Format.binary64 (.finite s m e hm) =
          UnpackedFloat.pack Format.binary64 (.infinity s) := if_pos (by
        show 2 ^ 11 ≤ (e + 1023 + 52).toNat + 1
        omega)
      have hinfinite : packed (.finite s m e hm) = packed (.infinity s) := by
        simp only [packed, Float.Model.pack, hpack]
      rw [hinfinite, isFinite_eq, unpacked_packed_infinity] at hfinite
      exact Bool.noConfusion hfinite

/-- What is rounded to no more than a float is a float. -/
theorem Settled.isFinite_packed {u : UnpackedFloat} (h : Settled u) {x : Float}
    (hle : |number u| ≤ |value x|) : (packed u).isFinite = true := by
  cases u with
  | infinity s => exact h.elim
  | notANumber => exact h.elim
  | zero s => rw [isFinite_eq, unpacked_packed_zero]; rfl
  | finite s m e hm =>
    obtain ⟨hlt, hleast, hbits⟩ := h
    have hgreatest : e ≤ 971 := by
      by_contra hbeyond
      have hlong : (2 : ℚ) ^ 52 ≤ m := by exact_mod_cast hbits.resolve_left (by omega)
      refine absurd (abs_value_lt x) (not_lt.2 (le_trans ?_ hle))
      rw [number, abs_signed, abs_of_pos (magnitude_pos hm e)]
      calc (2 : ℚ) ^ 53 * 2 ^ (971 : ℤ) = 2 ^ 52 * 2 ^ (971 + 1 : ℤ) := by
            rw [zpow_add_one₀ two_ne_zero]
            ring
        _ ≤ (m : ℚ) * 2 ^ e := by
          gcongr
          · exact one_le_two
          · omega
    rw [isFinite_eq, unpacked_packed_finite s ⟨hm, hlt, hleast, hgreatest, hbits⟩]
    rfl

/-- A mantissa counted in smaller units. -/
theorem signed_units (s : Sign) (m : ℕ) {e f : ℤ} (hf : f ≤ e) :
    signed s (m * 2 ^ e) = (s.apply (m <<< (e - f).toNat : ℕ) : ℤ) * 2 ^ f := by
  have hunits : (m : ℚ) * 2 ^ e = (m <<< (e - f).toNat : ℕ) * 2 ^ f := by
    rw [Nat.shiftLeft_eq, Nat.cast_mul, Nat.cast_pow, Nat.cast_ofNat, mul_assoc, ← zpow_natCast,
      ← zpow_add₀ two_ne_zero]
    congr 2
    omega
  rw [hunits]
  cases s with
  | positive => rfl
  | negative =>
    rw [signed, Sign.apply, Int.cast_neg, Int.cast_natCast, neg_mul]

theorem settled_of_finite {x : Float} (h : x.isFinite = true) : Settled (unpacked x) := by
  obtain ⟨s, hx⟩ | ⟨s, m, e, hm, hx, hc⟩ := finite_cases h
  · rw [hx]
    trivial
  · rw [hx]
    exact ⟨hc.lt, hc.least, hc.normal⟩

/-- The sum of finite floats is rounded to what is nearest to the sum of the numbers. -/
theorem exists_settled_add {x y : Float} (hx : x.isFinite = true) (hy : y.isFinite = true) :
    ∃ u, Settled u ∧ x + y = packed u ∧ Nearest (value x + value y) (number u) := by
  obtain ⟨s, hx'⟩ | ⟨s, m₁, e₁, hm₁, hx', -⟩ := finite_cases hx <;>
    obtain ⟨t, hy'⟩ | ⟨t, m₂, e₂, hm₂, hy', -⟩ := finite_cases hy
  · refine ⟨.add Format.binary64 (unpacked x) (unpacked y), ?_, add_eq x y, ?_⟩
    · rw [hx', hy']
      cases s <;> cases t <;> trivial
    · have hzero : value x + value y = 0 := by rw [value, value, hx', hy']; exact add_zero 0
      have hadd : number (.add Format.binary64 (unpacked x) (unpacked y)) = 0 := by
        rw [hx', hy']
        cases s <;> cases t <;> rfl
      rw [hzero, hadd]
      exact OnGrid.nearest ⟨0, 0, by norm_num, by norm_num, by norm_num⟩
  · have hzero : value x = 0 := by rw [value, hx']; rfl
    refine ⟨unpacked y, settled_of_finite hy, ?_, ?_⟩
    · rw [add_eq, hx', hy']
      rfl
    · rw [hzero, zero_add]
      exact (onGrid_value y).nearest
  · have hzero : value y = 0 := by rw [value, hy']; rfl
    refine ⟨unpacked x, settled_of_finite hx, ?_, ?_⟩
    · rw [add_eq, hx', hy']
      rfl
    · rw [hzero, add_zero]
      exact (onGrid_value x).nearest
  · have hvalues : value x + value y =
        (s.apply (m₁ <<< (e₁ - min e₁ e₂).toNat : ℕ) + t.apply (m₂ <<< (e₂ - min e₁ e₂).toNat : ℕ) : ℤ) *
          2 ^ min e₁ e₂ := by
      rw [value, value, hx', hy', number, number, signed_units s m₁ (min_le_left e₁ e₂),
        signed_units t m₂ (min_le_right e₁ e₂)]
      push_cast
      ring
    obtain ⟨hsettled, hnearest⟩ := nearest_normalize
      (s.apply (m₁ <<< (e₁ - min e₁ e₂).toNat : ℕ) + t.apply (m₂ <<< (e₂ - min e₁ e₂).toNat : ℕ))
      (min e₁ e₂) .positive
    refine ⟨_, hsettled, ?_, hvalues ▸ hnearest⟩
    rw [add_eq, hx', hy']
    rfl

/-- A sum that does not overflow is nearest to the sum of the numbers. -/
theorem nearest_add {x y : Float} (hx : x.isFinite = true) (hy : y.isFinite = true)
    (hsum : (x + y).isFinite = true) : Nearest (value x + value y) (value (x + y)) := by
  obtain ⟨u, hsettled, hadd, hnearest⟩ := exists_settled_add hx hy
  rw [hadd] at hsum ⊢
  rwa [hsettled.value_packed hsum]

/-- What is nearest to a number that is no greater than a float is no greater either. -/
theorem Nearest.abs_le_value {q r : ℚ} (h : Nearest q r) {z : Float} (hle : |q| ≤ |value z|) : |r| ≤ |value z| := by
  have hgrid : OnGrid |value z| := by
    rcases abs_choice (value z) with hz | hz
    · rw [hz]
      exact onGrid_value z
    · rw [hz]
      exact (onGrid_value z).neg
  -- Of the two floats of this size the one on the side of `q` is at the distance that is left to `q`.
  have hclose : |r - q| ≤ |value z| - |q| := by
    rcases le_total 0 q with hq | hq
    · have hside := h.le _ hgrid
      rw [abs_of_nonneg hq] at hle ⊢
      rwa [abs_of_nonneg (sub_nonneg.2 hle)] at hside
    · have hside := h.le _ hgrid.neg
      rw [abs_of_nonpos hq] at hle ⊢
      have hbehind : -|value z| - q ≤ 0 := by linarith
      rw [abs_of_nonpos hbehind] at hside
      linarith
  calc |r| = |r - q + q| := by rw [sub_add_cancel]
    _ ≤ |r - q| + |q| := abs_add_le _ _
    _ ≤ |value z| := by linarith

/-- A quotient that is no greater than a float is a float, and nearest to the quotient of the numbers. -/
theorem nearest_div {x y z : Float} (hx : x.isFinite = true) (hy : y.isFinite = true) (hne : value y ≠ 0)
    (hle : |value x / value y| ≤ |value z|) :
    (x / y).isFinite = true ∧ Nearest (value x / value y) (value (x / y)) := by
  obtain ⟨t, hy'⟩ | ⟨t, m₂, e₂, hm₂, hy', -⟩ := finite_cases hy
  · rw [value, hy'] at hne
    exact absurd rfl hne
  obtain ⟨s, hx'⟩ | ⟨s, m₁, e₁, hm₁, hx', -⟩ := finite_cases hx
  · have hzero : value x = 0 := by rw [value, hx']; rfl
    have hdiv : x / y = packed (.zero (s / t)) := by
      rw [div_eq, hx', hy']
      rfl
    have hvalue : value (x / y) = 0 := by rw [hdiv, value, unpacked_packed_zero]; rfl
    rw [hzero, zero_div, hvalue, hdiv, isFinite_eq, unpacked_packed_zero]
    exact ⟨rfl, OnGrid.nearest ⟨0, 0, by norm_num, by norm_num, by norm_num⟩⟩
  · obtain ⟨a, f, accuracy, hround, ha, hf⟩ := @div_eq_round m₁ m₂ e₁ e₂ s t hm₁ hm₂
    have hdiv : x / y = packed (roundWithAccuracy Format.binary64 (s / t) a f accuracy) := by
      rw [div_eq, hx', hy', hround]
    obtain ⟨hsettled, hnearest⟩ := nearest_roundWithAccuracy (s / t) ha hf
    have hquotient : signed (s / t) (m₁ * 2 ^ e₁ / (m₂ * 2 ^ e₂)) = value x / value y := by
      rw [value, value, hx', hy', number, number]
      cases s with
      | positive =>
        cases t with
        | positive => rfl
        | negative => exact (div_neg _).symm
      | negative =>
        cases t with
        | positive => exact (neg_div _ _).symm
        | negative => exact (neg_div_neg_eq _ _).symm
    rw [hquotient] at hnearest
    have hfinite := hsettled.isFinite_packed (hnearest.abs_le_value hle)
    rw [hdiv, hsettled.value_packed hfinite]
    exact ⟨hfinite, hnearest⟩

/-- Half a float is a float, and nearest to half the number. -/
theorem nearest_half {x : Float} (hx : x.isFinite = true) :
    (x / Scalar.two).isFinite = true ∧ Nearest (value x / 2) (value (x / Scalar.two)) := by
  have htwo : unpacked Scalar.two = .finite .positive (2 ^ 52) (-51) (Nat.two_pow_pos 52) := rfl
  have hvalue : value Scalar.two = 2 := by
    rw [value, htwo, number, signed]
    norm_num
  have hfinite : (Scalar.two : Float).isFinite = true := by
    rw [isFinite_eq, htwo]
    rfl
  have hle : |value x / value Scalar.two| ≤ |value x| := by
    rw [hvalue, abs_div, abs_two]
    exact half_le_self (abs_nonneg _)
  have hdiv := nearest_div hx hfinite (by rw [hvalue]; exact two_ne_zero) hle
  rwa [hvalue] at hdiv

section

variable {v w : Float} (hv : v.isFinite = true) (hw : w.isFinite = true) (hsum : (v + w).isFinite = true)

include hv hw hsum

/-- The float midpoint is nearest to the true one. -/
theorem nearest_midpoint : Nearest ((value v + value w) / 2) (value ((v + w) / Scalar.two)) := by
  have hadd := nearest_add hv hw hsum
  have hhalf := (nearest_half hsum).2
  obtain ⟨i, hi⟩ := exists_units v
  obtain ⟨j, hj⟩ := exists_units w
  have hunits : value v + value w = (i + j : ℤ) * leastUnit := by
    rw [hi, hj]
    push_cast
    ring
  rw [hunits] at hadd ⊢
  exact hadd.half hhalf

/-- The midpoint is not below the lesser float. -/
theorem atMost_midpoint (hless : Scalar.less v w = true) :
    Scalar.atMost v ((v + w) / Scalar.two) = true := by
  rw [atMost_iff hv (nearest_half hsum).1]
  exact ((nearest_midpoint hv hw hsum).mem_Icc (onGrid_value v) ((less_iff hv hw).1 hless)).1

/-- The midpoint is below the greater float if there is a float between the two. -/
theorem midpoint_less {u : Float} (hu : u.isFinite = true) (hvu : Scalar.less v u = true)
    (huw : Scalar.less u w = true) : Scalar.atMost w ((v + w) / Scalar.two) = false := by
  rw [← Bool.not_eq_true, atMost_iff hw (nearest_half hsum).1, not_le]
  exact ((nearest_midpoint hv hw hsum).mem_Ioo (onGrid_value u) ((less_iff hv hu).1 hvu)
    ((less_iff hu hw).1 huw)).2

end

end PackageTriage.Binary
