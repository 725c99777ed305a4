import PackageTriage.Proofs.Scalar.Packing

/-!
# The order of floats

A finite float stands for a number, and floats compare as their numbers do. The order that sorts goes by the
bits instead; it rises with the number and only tells the two zeros apart, so a list that it sorts is in the
order of comparison as well.
-/

namespace PackageTriage.Binary

open Float.Model UnpackedFloat

def signed : Sign → ℚ → ℚ
  | .positive, q => q
  | .negative, q => -q

theorem signed_zero (s : Sign) : signed s 0 = 0 := by
  cases s with
  | positive => rfl
  | negative => exact neg_zero

def number : UnpackedFloat → ℚ
  | .finite s m e _ => signed s (m * 2 ^ e)
  | _ => 0

def value (x : Float) : ℚ := number (unpacked x)

/-- A finite float is a zero, or has a sign, a mantissa and an exponent. -/
theorem finite_cases {x : Float} (h : x.isFinite = true) :
    (∃ s, unpacked x = .zero s) ∨ ∃ s m e, ∃ hm : 0 < m, unpacked x = .finite s m e hm ∧ Canonical m e := by
  rw [isFinite_eq] at h
  cases hx : unpacked x with
  | infinity s => simp [hx, UnpackedFloat.isFinite] at h
  | notANumber => simp [hx, UnpackedFloat.isFinite] at h
  | zero s => exact .inl ⟨s, rfl⟩
  | finite s m e hm => exact .inr ⟨s, m, e, hm, rfl, canonical_of_unpacked hx⟩

theorem magnitude_pos {m : ℕ} (hm : 0 < m) (e : ℤ) : (0 : ℚ) < m * 2 ^ e :=
  mul_pos (by exact_mod_cast hm) (zpow_pos two_pos e)

/-- Below the exponent of another float all mantissas are too small to reach it. -/
theorem Canonical.mul_zpow_lt {m₁ m₂ : ℕ} {e₁ e₂ : ℤ} (h₁ : Canonical m₁ e₁) (h₂ : Canonical m₂ e₂)
    (he : e₁ < e₂) : (m₁ : ℚ) * 2 ^ e₁ < m₂ * 2 ^ e₂ := by
  have hleast := h₁.least
  have hlong : (2 : ℚ) ^ 52 ≤ m₂ := by exact_mod_cast h₂.normal.resolve_left (by omega)
  have hshort : (m₁ : ℚ) < 2 ^ 53 := by exact_mod_cast h₁.lt
  calc (m₁ : ℚ) * 2 ^ e₁ < 2 ^ 53 * 2 ^ e₁ := by gcongr
    _ = 2 ^ 52 * 2 ^ (e₁ + 1) := by rw [zpow_add_one₀ two_ne_zero]; ring
    _ ≤ m₂ * 2 ^ e₂ := by
      gcongr
      · exact one_le_two
      · omega

/-- Exponents compare first, then mantissas. -/
theorem compare_magnitudes {m₁ m₂ : ℕ} {e₁ e₂ : ℤ} (h₁ : Canonical m₁ e₁) (h₂ : Canonical m₂ e₂) :
    (compare e₁ e₂).then (compare m₁ m₂) = compare ((m₁ : ℚ) * 2 ^ e₁) (m₂ * 2 ^ e₂) := by
  rcases lt_trichotomy e₁ e₂ with he | rfl | he
  · rw [compare_lt_iff_lt.2 he, compare_lt_iff_lt.2 (h₁.mul_zpow_lt h₂ he)]
    rfl
  · have hunit : (0 : ℚ) < 2 ^ e₁ := zpow_pos two_pos e₁
    rw [compare_eq_iff_eq.2 rfl, Ordering.then]
    rcases lt_trichotomy m₁ m₂ with hm | rfl | hm
    · rw [compare_lt_iff_lt.2 hm, compare_lt_iff_lt.2 (by gcongr)]
    · rw [compare_eq_iff_eq.2 rfl, compare_eq_iff_eq.2 rfl]
    · rw [compare_gt_iff_gt.2 hm, compare_gt_iff_gt.2 (by gcongr)]
  · rw [compare_gt_iff_gt.2 he, compare_gt_iff_gt.2 (h₂.mul_zpow_lt h₁ he)]
    rfl

theorem swap_compare (p q : ℚ) : (compare p q).swap = compare (-p) (-q) := by
  rcases lt_trichotomy p q with h | rfl | h
  · rw [compare_lt_iff_lt.2 h, compare_gt_iff_gt.2 (neg_lt_neg h)]
    rfl
  · rw [compare_eq_iff_eq.2 rfl, compare_eq_iff_eq.2 rfl]
    rfl
  · rw [compare_gt_iff_gt.2 h, compare_lt_iff_lt.2 (neg_lt_neg h)]
    rfl

section

variable {x y : Float} (hx : x.isFinite = true) (hy : y.isFinite = true)

include hx hy

/-- Finite floats compare as their numbers. -/
theorem compare_eq : UnpackedFloat.compare (unpacked x) (unpacked y) = some (compare (value x) (value y)) := by
  rw [value, value]
  obtain ⟨s, hx⟩ | ⟨s, m₁, e₁, hm₁, hx, h₁⟩ := finite_cases hx <;>
    obtain ⟨t, hy⟩ | ⟨t, m₂, e₂, hm₂, hy, h₂⟩ := finite_cases hy <;> rw [hx, hy]
  · rfl
  · have hpos := magnitude_pos hm₂ e₂
    cases t with
    | positive =>
      have hlt : number (.zero s) < number (.finite .positive m₂ e₂ hm₂) := by simpa [number, signed] using hpos
      rw [compare_lt_iff_lt.2 hlt]
      rfl
    | negative =>
      have hlt : number (.finite .negative m₂ e₂ hm₂) < number (.zero s) := by simpa [number, signed] using hpos
      rw [compare_gt_iff_gt.2 hlt]
      rfl
  · have hpos := magnitude_pos hm₁ e₁
    cases s with
    | positive =>
      have hlt : number (.zero t) < number (.finite .positive m₁ e₁ hm₁) := by simpa [number, signed] using hpos
      rw [compare_gt_iff_gt.2 hlt]
      rfl
    | negative =>
      have hlt : number (.finite .negative m₁ e₁ hm₁) < number (.zero t) := by simpa [number, signed] using hpos
      rw [compare_lt_iff_lt.2 hlt]
      rfl
  · have hpos₁ := magnitude_pos hm₁ e₁
    have hpos₂ := magnitude_pos hm₂ e₂
    simp only [number, signed]
    cases s <;> cases t
    · rw [← swap_compare, ← compare_magnitudes h₁ h₂]
      rfl
    · rw [compare_lt_iff_lt.2 (by linarith)]
      rfl
    · rw [compare_gt_iff_gt.2 (by linarith)]
      rfl
    · rw [← compare_magnitudes h₁ h₂]
      rfl

/-- Finite floats are ordered by value. -/
theorem less_iff : Scalar.less x y = true ↔ value x < value y := by
  rw [less_eq, UnpackedFloat.lt, compare_eq hx hy, beq_iff_eq, Option.some_inj, compare_lt_iff_lt]

theorem atMost_iff : Scalar.atMost x y = true ↔ value x ≤ value y := by
  rw [atMost_eq, UnpackedFloat.le, compare_eq hx hy, Option.any_some, ← compare_le_iff_le, Ordering.isLE_iff_ne_gt]

theorem same_iff : Scalar.same x y = true ↔ value x = value y := by
  rw [same_eq, UnpackedFloat.beq, compare_eq hx hy, beq_iff_eq, Option.some_inj, compare_eq_iff_eq]

/-- What is at most something at most `z` is at most `z`, whatever `z` is. -/
theorem atMost_trans {z : Float} (hxy : Scalar.atMost x y = true) (hyz : Scalar.atMost y z = true) :
    Scalar.atMost x z = true := by
  by_cases hz : z.isFinite = true
  · rw [atMost_iff hx hz]
    rw [atMost_iff hx hy] at hxy
    rw [atMost_iff hy hz] at hyz
    exact hxy.trans hyz
  · rw [atMost_eq, UnpackedFloat.le] at hyz ⊢
    rw [isFinite_eq] at hx hy hz
    cases hu : unpacked z with
    | zero s => simp [hu, UnpackedFloat.isFinite] at hz
    | finite s m e hm => simp [hu, UnpackedFloat.isFinite] at hz
    | notANumber =>
      rw [hu] at hyz
      cases hv : unpacked y <;> simp [hv, UnpackedFloat.compare] at hyz
    | infinity s =>
      cases hv : unpacked y <;> cases hw : unpacked x <;> cases s <;>
        simp_all [UnpackedFloat.compare, UnpackedFloat.isFinite]

end

/-- The order by keys is transitive, over all floats. -/
theorem rank_trans {a b c : Float} (hab : Scalar.rank a b = true) (hbc : Scalar.rank b c = true) :
    Scalar.rank a c = true := by
  simp only [Scalar.rank, decide_eq_true_eq] at *
  exact UInt64.le_trans hab hbc

theorem rank_total (a b : Float) : (Scalar.rank a b || Scalar.rank b a) = true := by
  simp only [Scalar.rank, Bool.or_eq_true, decide_eq_true_eq]
  exact UInt64.le_total _ _

/-- How many floats of one sign lie below a float. -/
def magnitude (m : ℕ) (e : ℤ) : ℕ := (e + 1074).toNat * 2 ^ 52 + m

theorem toNat_packComponents (s : Sign) (exponent : BitVec 11) (mantissa : BitVec 52) :
    (packComponents Format.binary64 s exponent mantissa).toNat =
      (s.toBitVec.toNat * 2 ^ 11 + exponent.toNat) * 2 ^ 52 + mantissa.toNat := by
  have happend : (packComponents Format.binary64 s exponent mantissa).toNat =
      (s.toBitVec ++ exponent ++ mantissa).toNat := rfl
  rw [happend, BitVec.toNat_append, BitVec.toNat_append, ← Nat.shiftLeft_add_eq_or_of_lt mantissa.isLt,
    ← Nat.shiftLeft_add_eq_or_of_lt exponent.isLt, Nat.shiftLeft_eq, Nat.shiftLeft_eq]

/-- Exponent and mantissa stand in the bits one behind the other, with one in the exponent for the first bit of
the mantissa. -/
theorem toNat_pack (s : Sign) {m : ℕ} {e : ℤ} (h : Canonical m e) :
    (UnpackedFloat.pack Format.binary64 (.finite s m e h.pos)).toNat =
      s.toBitVec.toNat * 2 ^ 63 + magnitude m e := by
  obtain ⟨hpos, hlt, hleast, hgreatest, hnormal⟩ := h
  have hpack : UnpackedFloat.pack Format.binary64 (.finite s m e hpos) =
      if 2 ^ 11 ≤ (e + 1023 + 52).toNat + 1 then packComponents Format.binary64 s (-1#11) 0
      else if m.log2 + 1 = 53 then
        packComponents Format.binary64 s (BitVec.ofNat 11 (e + 1023 + 52).toNat) (BitVec.ofNat 52 m)
      else packComponents Format.binary64 s 0 (BitVec.ofNat 52 m) := rfl
  rw [hpack, if_neg (by omega), magnitude]
  by_cases hlong : 2 ^ 52 ≤ m
  · rw [if_pos (by rw [log2_eq hlong hlt]), toNat_packComponents, BitVec.toNat_ofNat, BitVec.toNat_ofNat]
    omega
  · obtain rfl := hnormal.resolve_right hlong
    have hlog : m.log2 < 52 := (Nat.log2_lt hpos.ne').2 (not_le.1 hlong)
    have hzero : (0 : BitVec 11).toNat = 0 := rfl
    rw [if_neg (by omega), toNat_packComponents, BitVec.toNat_ofNat, hzero]
    omega

theorem magnitude_lt {m : ℕ} {e : ℤ} (h : Canonical m e) : magnitude m e < 2 ^ 63 := by
  have hlt := h.lt
  have hgreatest := h.greatest
  rw [magnitude]
  omega

/-- Larger magnitudes are larger numbers. -/
theorem Canonical.lt_of_magnitude {m₁ m₂ : ℕ} {e₁ e₂ : ℤ} (h₁ : Canonical m₁ e₁) (h₂ : Canonical m₂ e₂)
    (h : (m₂ : ℚ) * 2 ^ e₂ < m₁ * 2 ^ e₁) : magnitude m₂ e₂ < magnitude m₁ e₁ := by
  have hleast₁ := h₁.least
  have hleast₂ := h₂.least
  rw [magnitude, magnitude]
  rcases lt_trichotomy e₁ e₂ with he | rfl | he
  · exact absurd (h₁.mul_zpow_lt h₂ he) h.le.not_gt
  · have hm : (m₂ : ℚ) < m₁ := lt_of_mul_lt_mul_right h (zpow_pos two_pos e₁).le
    have hm' : m₂ < m₁ := by exact_mod_cast hm
    omega
  · -- An exponent more is worth as much as the mantissas differ by at most.
    have hlong := h₁.normal.resolve_left (by omega)
    have hshort := h₂.lt
    omega

theorem toNat_toBits (x : Float) :
    x.toBits.toNat = (UnpackedFloat.pack Format.binary64 (unpacked x)).toNat :=
  congrArg (fun y : Float => y.toBits.toNat) (packed_unpacked x).symm

/-- Flipping the first bit of a number that does not have it adds it. -/
theorem xor_first {b : ℕ} (h : b < 2 ^ 63) : b ^^^ 2 ^ 63 = 2 ^ 63 + b := by
  have hhigh : (b ^^^ 2 ^ 63) / 2 ^ 63 = 1 := by
    rw [Nat.xor_div_two_pow, Nat.div_eq_of_lt h, Nat.div_self (Nat.two_pow_pos 63)]
    rfl
  have hlow : (b ^^^ 2 ^ 63) % 2 ^ 63 = b := by
    rw [Nat.xor_mod_two_pow, Nat.mod_self, Nat.mod_eq_of_lt h, Nat.xor_zero]
  rw [← Nat.div_add_mod (b ^^^ 2 ^ 63) (2 ^ 63), hhigh, hlow, mul_one]

/-- The place of a float among all floats, from the `k` floats of its sign that lie nearer to zero. Those of the
negative sign are sorted the other way round. -/
def placeOf (k : ℕ) : Sign → ℕ
  | .positive => 2 ^ 63 + k
  | .negative => 2 ^ 63 - 1 - k

theorem toNat_orderKey {x : Float} {s : Sign} {k : ℕ} (hk : k < 2 ^ 63)
    (hbits : (UnpackedFloat.pack Format.binary64 (unpacked x)).toNat = s.toBitVec.toNat * 2 ^ 63 + k) :
    (orderKey x).toNat = placeOf k s := by
  rw [← toNat_toBits] at hbits
  have hfirst : x.toBits >>> 63 = 1 ↔ 2 ^ 63 ≤ x.toBits.toNat := by
    have hlt := x.toBits.toNat_lt
    rw [← UInt64.toNat_inj, UInt64.toNat_shiftRight, Nat.shiftRight_eq_div_pow]
    show x.toBits.toNat / 2 ^ 63 = 1 ↔ _
    omega
  cases s with
  | positive =>
    have hsign : (Sign.positive.toBitVec).toNat = 0 := rfl
    rw [hsign, zero_mul, zero_add] at hbits
    have hkey : orderKey x = x.toBits ^^^ 0x8000000000000000 := if_neg (hfirst.not.2 (by omega))
    rw [hkey, UInt64.toNat_xor, hbits]
    exact xor_first hk
  | negative =>
    have hsign : (Sign.negative.toBitVec).toNat = 1 := rfl
    rw [hsign, one_mul] at hbits
    have hkey : orderKey x = ~~~x.toBits := if_pos (hfirst.2 (by omega))
    have hsize : UInt64.size = 2 ^ 64 := rfl
    rw [hkey, UInt64.toNat_not, hbits, hsize]
    show _ = 2 ^ 63 - 1 - k
    omega

theorem toNat_orderKey_zero {x : Float} {s : Sign} (h : unpacked x = .zero s) :
    (orderKey x).toNat = placeOf 0 s := by
  have hpack : UnpackedFloat.pack Format.binary64 (.zero s) = packComponents Format.binary64 s (0#11) (0#52) := rfl
  refine toNat_orderKey (Nat.two_pow_pos 63) ?_
  rw [h, hpack, toNat_packComponents]
  simp only [BitVec.toNat_ofNat]
  omega

theorem toNat_orderKey_finite {x : Float} {s : Sign} {m : ℕ} {e : ℤ} {hm : 0 < m}
    (h : unpacked x = .finite s m e hm) : (orderKey x).toNat = placeOf (magnitude m e) s := by
  have hc := canonical_of_unpacked h
  exact toNat_orderKey (magnitude_lt hc) (h ▸ toNat_pack s hc)

/-- The order that sorts rises with the number. -/
theorem orderKey_lt {x y : Float} (hx : x.isFinite = true) (hy : y.isFinite = true) (h : value x < value y) :
    (orderKey x).toNat < (orderKey y).toNat := by
  rw [value, value] at h
  obtain ⟨s, hx⟩ | ⟨s, m₁, e₁, hm₁, hx, h₁⟩ := finite_cases hx <;>
    obtain ⟨t, hy⟩ | ⟨t, m₂, e₂, hm₂, hy, h₂⟩ := finite_cases hy <;> rw [hx, hy] at h
  · exact absurd h (lt_irrefl 0)
  · have hpos := magnitude_pos hm₂ e₂
    rw [toNat_orderKey_zero hx, toNat_orderKey_finite hy, magnitude]
    cases t with
    | positive => cases s <;> simp only [placeOf] <;> omega
    | negative => exact absurd h (by simpa [number, signed] using hpos.le)
  · have hpos := magnitude_pos hm₁ e₁
    have hlt := magnitude_lt h₁
    rw [toNat_orderKey_finite hx, toNat_orderKey_zero hy]
    rw [magnitude] at hlt ⊢
    cases s with
    | positive => exact absurd h (by simpa [number, signed] using hpos.le)
    | negative => cases t <;> simp only [placeOf] <;> omega
  · have hpos₁ := magnitude_pos hm₁ e₁
    have hpos₂ := magnitude_pos hm₂ e₂
    have hlt₁ := magnitude_lt h₁
    have hlt₂ := magnitude_lt h₂
    rw [toNat_orderKey_finite hx, toNat_orderKey_finite hy]
    simp only [number, signed] at h
    cases s <;> cases t <;> simp only [placeOf] at h ⊢
    · have hmore := h₁.lt_of_magnitude h₂ (neg_lt_neg_iff.1 h)
      omega
    · omega
    · linarith
    · have hmore := h₂.lt_of_magnitude h₁ h
      omega

theorem atMost_of_rank {x y : Float} (hx : x.isFinite = true) (hy : y.isFinite = true)
    (h : Scalar.rank x y = true) : Scalar.atMost x y = true := by
  have hkey : orderKey x ≤ orderKey y := of_decide_eq_true h
  rw [atMost_iff hx hy]
  by_contra hlt
  exact absurd (orderKey_lt hy hx (not_le.1 hlt)) (not_lt.2 (UInt64.le_iff_toNat_le.1 hkey))

/-- Sorted floats that are not the same rise. -/
theorem less_of_atMost {x y : Float} (hx : x.isFinite = true) (hy : y.isFinite = true)
    (hle : Scalar.atMost x y = true) (hne : Scalar.same x y = false) : Scalar.less x y = true := by
  rw [less_iff hx hy]
  refine lt_of_le_of_ne ((atMost_iff hx hy).1 hle) fun heq => ?_
  rw [(same_iff hx hy).2 heq] at hne
  exact Bool.noConfusion hne

end PackageTriage.Binary
