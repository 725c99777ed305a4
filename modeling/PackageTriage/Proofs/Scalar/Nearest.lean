import PackageTriage.Proofs.Scalar.Order
import PackageTriage.Proofs.Scalar.Rounding

/-!
# Nearest numbers

Rounding takes a number to one that is nearest to it among all that floats could stand for if exponents had no
upper end. Halving what was rounded rounds at most once more, so that half a rounded number is nearest to the half.
-/

namespace PackageTriage.Binary

open Float.Model UnpackedFloat

def leastUnit : ℚ := 2 ^ (-1074 : ℤ)

theorem leastUnit_pos : 0 < leastUnit := zpow_pos two_pos _

/-- The number has a mantissa of at most 53 bits, as a float has, and any exponent from the least one on. -/
def OnGrid (q : ℚ) : Prop := ∃ k e : ℤ, |k| ≤ 2 ^ 53 ∧ -1074 ≤ e ∧ q = k * 2 ^ e

/-- The number `r` of the grid is as near to `q` as any. -/
structure Nearest (q r : ℚ) : Prop where
  onGrid : OnGrid r
  le : ∀ g, OnGrid g → |r - q| ≤ |g - q|

theorem OnGrid.neg {q : ℚ} (h : OnGrid q) : OnGrid (-q) := by
  obtain ⟨k, e, hk, he, rfl⟩ := h
  exact ⟨-k, e, by rwa [abs_neg], he, by push_cast; ring⟩

theorem OnGrid.double {q : ℚ} (h : OnGrid q) : OnGrid (2 * q) := by
  obtain ⟨k, e, hk, he, rfl⟩ := h
  exact ⟨k, e + 1, hk, by omega, by rw [zpow_add_one₀ two_ne_zero]; ring⟩

theorem OnGrid.nearest {q : ℚ} (h : OnGrid q) : Nearest q q :=
  ⟨h, fun g _ => by rw [sub_self, abs_zero]; exact abs_nonneg _⟩

namespace Nearest

variable {q r s : ℚ}

theorem neg (h : Nearest q r) : Nearest (-q) (-r) := by
  refine ⟨h.onGrid.neg, fun g hg => ?_⟩
  have hle := h.le (-g) hg.neg
  rw [show -r - -q = -(r - q) by ring, show g - -q = -(-g - q) by ring, abs_neg, abs_neg]
  exact hle

/-- A number of the grid is rounded to itself. -/
theorem eq (h : Nearest q r) (hq : OnGrid q) : r = q := by
  have hle := h.le q hq
  rw [sub_self, abs_zero] at hle
  exact sub_eq_zero.1 (abs_nonpos_iff.1 hle)

/-- A number that is odd in units of the least place is exact. -/
theorem eq_of_odd {j k : ℤ} (h : Nearest (j * leastUnit) (k * leastUnit)) (hk : |k| ≤ 2 ^ 53)
    (hodd : k % 2 = 1) : k = j := by
  have hclose : ∀ c : ℤ, |c| ≤ 2 ^ 53 → |k - j| ≤ |c - j| := by
    intro c hc
    have hle := h.le (c * leastUnit) ⟨c, -1074, hc, le_rfl, rfl⟩
    rw [← sub_mul, ← sub_mul, abs_mul, abs_mul, mul_le_mul_iff_left₀ (abs_pos.2 leastUnit_pos.ne')] at hle
    exact_mod_cast hle
  obtain ⟨hlow, hhigh⟩ := abs_le.1 hk
  -- Were the number off the grid, the end of the mantissas would be nearer to it than `k`.
  rcases lt_or_ge (2 ^ 53) j with hj | hj
  · have hle := hclose (2 ^ 53) (by norm_num)
    rw [abs_of_nonpos (by omega), abs_of_nonpos (by omega)] at hle
    omega
  · rcases lt_or_ge j (-2 ^ 53) with hj' | hj'
    · have hle := hclose (-2 ^ 53) (by norm_num)
      rw [abs_of_nonneg (by omega), abs_of_nonneg (by omega)] at hle
      omega
    · have hle := hclose j (abs_le.2 ⟨hj', hj⟩)
      rw [sub_self, abs_zero, abs_nonpos_iff] at hle
      omega

/-- Half of what is nearest is nearest to the half: where the half is off the grid, nothing was lost before. -/
theorem half {j : ℤ} (h : Nearest (j * leastUnit) s) (hr : Nearest (s / 2) r) :
    Nearest (j * leastUnit / 2) r := by
  by_cases hs : OnGrid (s / 2)
  · rw [hr.eq hs]
    refine ⟨hs, fun g hg => ?_⟩
    have hle := h.le (2 * g) hg.double
    rw [show s - j * leastUnit = 2 * (s / 2 - j * leastUnit / 2) by ring,
      show 2 * g - j * leastUnit = 2 * (g - j * leastUnit / 2) by ring, abs_mul, abs_mul] at hle
    exact le_of_mul_le_mul_left hle (abs_pos.2 two_ne_zero)
  · obtain ⟨k, e, hk, he, rfl⟩ := h.onGrid
    obtain rfl : e = -1074 := by
      by_contra hne
      refine hs ⟨k, e - 1, hk, by omega, ?_⟩
      rw [zpow_sub_one₀ two_ne_zero]
      ring
    have hodd : k % 2 = 1 := by
      by_contra heven
      obtain ⟨c, rfl⟩ : ∃ c, k = 2 * c := ⟨k / 2, by omega⟩
      obtain ⟨hlow, hhigh⟩ := abs_le.1 hk
      refine hs ⟨c, -1074, abs_le.2 ⟨by omega, by omega⟩, le_rfl, ?_⟩
      rw [Int.cast_mul, Int.cast_ofNat, mul_assoc, mul_div_cancel_left₀ _ two_ne_zero]
    rwa [← h.eq_of_odd hk hodd]

variable {v w : ℚ}

/-- The rounded midpoint of two numbers of the grid does not leave the interval between them. -/
theorem mem_Icc (h : Nearest ((v + w) / 2) r) (hv : OnGrid v) (hvw : v < w) : v ≤ r ∧ r ≤ w := by
  have hle := h.le v hv
  have hhalf : 0 < (w - v) / 2 := by linarith
  rw [show v - (v + w) / 2 = -((w - v) / 2) by ring, abs_neg, abs_of_pos hhalf] at hle
  obtain ⟨hlow, hhigh⟩ := abs_le.1 hle
  constructor <;> linarith

/-- With a number of the grid between them it is neither of the two. -/
theorem mem_Ioo (h : Nearest ((v + w) / 2) r) {u : ℚ} (hu : OnGrid u) (hvu : v < u) (huw : u < w) :
    v < r ∧ r < w := by
  have hlt : |u - (v + w) / 2| < (w - v) / 2 := abs_lt.2 ⟨by linarith, by linarith⟩
  obtain ⟨hlow, hhigh⟩ := abs_lt.1 ((h.le u hu).trans_lt hlt)
  constructor <;> linarith

end Nearest

/-- A mantissa with its residual bits is rounded by at most a half. -/
theorem Approximates.abs_rounded_sub_le {em : ExtendedMantissa} {q : ℚ} (h : Approximates em q) :
    |(em.roundedMantissa : ℚ) - q| ≤ 1 / 2 := by
  obtain ⟨m, roundBit, stickyBit⟩ := em
  have hbit : ((m + m % 2 : ℕ) : ℚ) = m ∨ ((m + m % 2 : ℕ) : ℚ) = m + 1 := by
    rcases Nat.mod_two_eq_zero_or_one m with hm | hm <;> rw [hm] <;> simp
  rw [abs_le]
  match roundBit, stickyBit, h with
  | false, false, (h : q = m) =>
    have hrounded : ExtendedMantissa.roundedMantissa ⟨m, false, false⟩ = m := rfl
    rw [hrounded]
    constructor <;> linarith
  | false, true, (h : m < q ∧ q < m + 1 / 2) =>
    have hrounded : ExtendedMantissa.roundedMantissa ⟨m, false, true⟩ = m := rfl
    rw [hrounded]
    constructor <;> linarith [h.1, h.2]
  | true, false, (h : q = m + 1 / 2) =>
    have hrounded : ExtendedMantissa.roundedMantissa ⟨m, true, false⟩ = m + m % 2 := rfl
    rw [hrounded]
    rcases hbit with hbit | hbit <;> rw [hbit] <;> constructor <;> linarith
  | true, true, (h : m + 1 / 2 < q ∧ q < m + 1) =>
    have hrounded : ExtendedMantissa.roundedMantissa ⟨m, true, true⟩ = m + 1 := rfl
    rw [hrounded]
    push_cast
    constructor <;> linarith [h.1, h.2]

/-- A number of at most 53 bits that is off by at most half a unit is nearest: whatever lies on the grid between
units is smaller than any number with so many bits. -/
theorem nearest_of_abs_sub_le {n : ℕ} {t : ℤ} {v : ℚ} (ht : -1074 ≤ t) (hn : n ≤ 2 ^ 53)
    (hhalf : |n - v / 2 ^ t| ≤ 1 / 2) (hbits : t = -1074 ∨ 2 ^ 52 * 2 ^ t ≤ v) : Nearest v (n * 2 ^ t) := by
  have hunit : (0 : ℚ) < 2 ^ t := zpow_pos two_pos t
  have hscale (q : ℚ) : |q * 2 ^ t - v| = |q - v / 2 ^ t| * 2 ^ t := by
    rw [← abs_of_pos hunit, ← abs_mul, sub_mul, abs_of_pos hunit, div_mul_cancel₀ _ hunit.ne']
  -- No whole number of units is nearer.
  have hwhole (j : ℤ) : |n * 2 ^ t - v| ≤ |j * 2 ^ t - v| := by
    rw [hscale, hscale]
    refine mul_le_mul_of_nonneg_right ?_ hunit.le
    rcases eq_or_ne j n with rfl | hne
    · exact le_of_eq (by push_cast; rfl)
    · have hone : (1 : ℚ) ≤ |(j : ℚ) - n| := by
        have habs := Int.one_le_abs (sub_ne_zero.2 hne)
        exact_mod_cast habs
      have htriangle := abs_sub_le (j : ℚ) (v / 2 ^ t) n
      rw [abs_sub_comm (v / 2 ^ t) (n : ℚ)] at htriangle
      linarith
  refine ⟨⟨n, t, by rw [abs_of_nonneg (by positivity)]; exact_mod_cast hn, ht, by push_cast; rfl⟩, ?_⟩
  rintro g ⟨k, e, hk, he, rfl⟩
  rcases le_or_gt t e with hte | hte
  · have hpower : (2 : ℚ) ^ e = (2 ^ (e - t).toNat : ℤ) * 2 ^ t := by
      push_cast
      rw [← zpow_natCast, ← zpow_add₀ two_ne_zero]
      congr 1
      omega
    rw [hpower, ← mul_assoc, ← Int.cast_mul]
    exact hwhole _
  · have hv := hbits.resolve_left (by omega)
    have hsmall : (k : ℚ) * 2 ^ e ≤ 2 ^ 52 * 2 ^ t := by
      have hk' : (k : ℚ) ≤ 2 ^ 53 := by exact_mod_cast (abs_le.1 hk).2
      calc (k : ℚ) * 2 ^ e ≤ 2 ^ 53 * 2 ^ e := by gcongr
        _ = 2 ^ 52 * 2 ^ (e + 1) := by rw [zpow_add_one₀ two_ne_zero]; ring
        _ ≤ 2 ^ 52 * 2 ^ t := by
          gcongr
          · exact one_le_two
          · omega
    have hpower := hwhole (2 ^ 52)
    push_cast at hpower
    refine hpower.trans ?_
    rw [abs_of_nonpos (by linarith), abs_of_nonpos (by linarith)]
    linarith

theorem Nearest.withSign {q r : ℚ} (h : Nearest q r) (s : Sign) : Nearest (signed s q) (signed s r) := by
  cases s with
  | positive => exact h
  | negative => exact h.neg

/-- A float as rounding leaves it. Its exponent may still be beyond the greatest. -/
def Settled : UnpackedFloat → Prop
  | .zero _ => True
  | .finite _ m e _ => m < 2 ^ 53 ∧ -1074 ≤ e ∧ (e = -1074 ∨ 2 ^ 52 ≤ m)
  | _ => False

/-- Rounding takes a number to one that is nearest. -/
theorem nearest_roundWithAccuracy (s : Sign) {a : ℕ} {f : ℤ} {accuracy : Accuracy} {v : ℚ}
    (ha : Approximates (ExtendedMantissa.ofMantissaAndAccuracy a accuracy) (v / 2 ^ f))
    (hf : f ≤ Format.binary64.targetExponent (totalExponent a f)) :
    Settled (roundWithAccuracy Format.binary64 s a f accuracy) ∧
      Nearest (signed s v) (number (roundWithAccuracy Format.binary64 s a f accuracy)) := by
  obtain ⟨em, hshift, hshifted⟩ := exists_shift ha hf
  have htarget := targetExponent_eq a f
  set t := Format.binary64.targetExponent (totalExponent a f)
  have ht : -1074 ≤ t := htarget ▸ le_max_right _ _
  have hunit : (0 : ℚ) < 2 ^ t := zpow_pos two_pos t
  obtain ⟨hupper, hlower⟩ := ha.bounds_two
  have hmany : t = -1074 ∨ 2 ^ 52 * 2 ^ t ≤ v := by
    rw [or_iff_not_imp_left]
    intro hne
    have hzero : a ≠ 0 := by
      rintro rfl
      rw [Nat.log2_zero] at htarget
      omega
    rw [← zpow_add_eq, show ((52 : ℕ) + t : ℤ) = a.log2 + f by omega]
    exact hlower hzero
  have hfew : v / 2 ^ t < 2 ^ 53 := by
    rw [div_lt_iff₀ hunit, ← zpow_add_eq]
    refine hupper.trans_le (zpow_le_zpow_right₀ one_le_two ?_)
    omega
  have hhalf := hshifted.abs_rounded_sub_le
  obtain ⟨hlow, hhigh⟩ := abs_le.1 hhalf
  have hn : em.roundedMantissa ≤ 2 ^ 53 := by
    have hlt : (em.roundedMantissa : ℚ) < 2 ^ 53 + 1 := by linarith
    exact Nat.lt_succ_iff.1 (by exact_mod_cast hlt)
  have hbits : t = -1074 ∨ 2 ^ 52 ≤ em.roundedMantissa := by
    refine hmany.imp_right fun hmany => ?_
    rw [← le_div_iff₀ hunit] at hmany
    have hlt : (2 : ℚ) ^ 52 < em.roundedMantissa + 1 := by linarith
    exact Nat.lt_succ_iff.1 (by exact_mod_cast hlt)
  have hnearest := (nearest_of_abs_sub_le ht hn hhalf hmany).withSign s
  rw [roundWithAccuracy, hshift]
  dsimp only
  rcases hn.lt_or_eq with hn | hn
  · rw [shift_of_bits hn ht hbits]
    dsimp only
    split
    · next hzero =>
      rw [hzero, Nat.cast_zero, zero_mul, signed_zero] at hnearest
      exact ⟨trivial, hnearest⟩
    · exact ⟨⟨hn, ht, hbits⟩, hnearest⟩
  · -- Rounding up to a power of two makes the mantissa one bit too long.
    have hshift' := @shift_power_eq (t + 1) (by omega)
    rw [add_sub_cancel_right] at hshift'
    rw [hn] at hnearest ⊢
    rw [hshift']
    refine ⟨⟨by norm_num, by omega, .inr le_rfl⟩, ?_⟩
    have hvalue : ((2 ^ 53 : ℕ) : ℚ) * 2 ^ t = (2 ^ 52 : ℕ) * 2 ^ (t + 1) := by
      rw [zpow_add_one₀ two_ne_zero]
      push_cast
      ring
    rw [hvalue] at hnearest
    exact hnearest

/-- Rounding gives a nearest value, for every sign and exponent. -/
theorem nearest_round (s : Sign) {m : ℕ} (hm : m ≠ 0) (e : ℤ) :
    Settled (UnpackedFloat.round Format.binary64 s m e) ∧
      Nearest (signed s (m * 2 ^ e)) (number (UnpackedFloat.round Format.binary64 s m e)) := by
  have htarget := targetExponent_eq m e
  set t := Format.binary64.targetExponent (totalExponent m e) with ht
  set k := (e - t).toNat with hk
  have hround : UnpackedFloat.round Format.binary64 s m e =
      roundWithAccuracy Format.binary64 s (m * 2 ^ k) (e - k) .exact := by
    rw [← Nat.shiftLeft_eq, hk, ht]
    rfl
  have hvalue : (m : ℚ) * 2 ^ e = (m * 2 ^ k : ℕ) * 2 ^ (e - k : ℤ) := by
    push_cast
    rw [mul_assoc, ← zpow_natCast, ← zpow_add₀ two_ne_zero, add_sub_cancel]
  rw [hround, hvalue]
  refine nearest_roundWithAccuracy s (approximates_exact _ _) ?_
  rw [targetExponent_eq]
  by_cases hleast : (e - k : ℤ) ≤ -1074
  · exact le_max_of_le_right hleast
  · have hlong : m.log2 + k ≤ (m * 2 ^ k).log2 := by
      rw [Nat.le_log2 (by positivity), Nat.pow_add]
      exact Nat.mul_le_mul_right _ (Nat.log2_self_le hm)
    exact le_max_of_le_left (by omega)

theorem nearest_normalize (m e : ℤ) (zeroSign : Sign) :
    Settled (UnpackedFloat.normalize Format.binary64 m e zeroSign) ∧
      Nearest (m * 2 ^ e) (number (UnpackedFloat.normalize Format.binary64 m e zeroSign)) := by
  rw [UnpackedFloat.normalize]
  split
  · next hlt =>
    have hneg := Int.compare_eq_lt.1 hlt
    have hvalue : (m : ℚ) * 2 ^ e = signed .negative (((-m).toNat : ℕ) * 2 ^ e) := by
      have hcast : (((-m).toNat : ℤ) : ℚ) = -m := by
        rw [Int.toNat_of_nonneg (by omega)]
        push_cast
        rfl
      rw [signed, ← neg_mul, ← Int.cast_natCast, hcast, neg_neg]
    rw [hvalue]
    exact nearest_round .negative (by omega) e
  · next heq =>
    obtain rfl := Int.compare_eq_eq.1 heq
    rw [Int.cast_zero, zero_mul]
    exact ⟨trivial, OnGrid.nearest ⟨0, 0, by norm_num, by norm_num, by norm_num⟩⟩
  · next hgt =>
    have hpos := Int.compare_eq_gt.1 hgt
    have hvalue : (m : ℚ) * 2 ^ e = signed .positive ((m.toNat : ℕ) * 2 ^ e) := by
      rw [signed, ← Int.cast_natCast, Int.toNat_of_nonneg (by omega)]
    rw [hvalue]
    exact nearest_round .positive (by omega) e

end PackageTriage.Binary
