import PackageTriage.Proofs.Scalar.Packing

/-!
# The two zeros

Floats that are numerically equal are the same but for the sign of a zero. The sign is lost when a
float is compared or squared, and when it is added to anything but the negative zero. No sum is the
negative zero unless both summands are, since adding floats never underflows.
-/

namespace PackageTriage.Binary

open Float.Model UnpackedFloat

/-- A number is the same as itself. -/
theorem same_self {x : Float} (h : Scalar.isNumber x = true) : Scalar.same x x = true := by
  have hne : unpacked x ≠ .notANumber := by
    intro hx
    have hnan : (!(unpacked x).isNaN) = true := h
    rw [hx] at hnan
    exact nomatch hnan
  rw [same_eq, beq_iff_ne_notANumber_and_eq]
  exact ⟨hne, hne, .inl rfl⟩

/-- The same but for the sign of a zero. -/
def Alike (x y : Float) : Prop := x = y ∨ ∃ s t, unpacked x = .zero s ∧ unpacked y = .zero t

@[simp] theorem Alike.refl (x : Float) : Alike x x := .inl rfl

theorem alike_packed_zero (s t : Sign) : Alike (packed (.zero s)) (packed (.zero t)) :=
  .inr ⟨s, t, unpacked_packed_zero s, unpacked_packed_zero t⟩

/-- Floats that compare as the same are alike. -/
theorem alike_of_same {x y : Float} (h : Scalar.same x y = true) : Alike x y := by
  rw [same_eq, beq_iff_ne_notANumber_and_eq] at h
  obtain ⟨-, -, hsame | ⟨hx, hy⟩ | ⟨hx, hy⟩⟩ := h
  · exact .inl (unpacked_injective hsame)
  · exact .inr ⟨.positive, .negative, hx, hy⟩
  · exact .inr ⟨.negative, .positive, hx, hy⟩

theorem compare_zero_left (s t : Sign) (u : UnpackedFloat) :
    UnpackedFloat.compare (.zero s) u = UnpackedFloat.compare (.zero t) u := by
  cases u with
  | infinity r => cases r <;> rfl
  | finite r m e hm => cases r <;> rfl
  | _ => rfl

theorem compare_zero_right (s t : Sign) (u : UnpackedFloat) :
    UnpackedFloat.compare u (.zero s) = UnpackedFloat.compare u (.zero t) := by
  cases u with
  | infinity r => cases r <;> rfl
  | finite r m e hm => cases r <;> rfl
  | _ => rfl

section

variable {x y : Float} (h : Alike x y) (c : Float)

include h

/-- A comparison sees no sign of a zero. -/
theorem Alike.less_left : Scalar.less x c = Scalar.less y c := by
  obtain rfl | ⟨s, t, hx, hy⟩ := h
  · rfl
  · rw [less_eq, less_eq, UnpackedFloat.lt, UnpackedFloat.lt, hx, hy, compare_zero_left s t]

theorem Alike.less_right : Scalar.less c x = Scalar.less c y := by
  obtain rfl | ⟨s, t, hx, hy⟩ := h
  · rfl
  · rw [less_eq, less_eq, UnpackedFloat.lt, UnpackedFloat.lt, hx, hy, compare_zero_right s t]

theorem Alike.atMost_left : Scalar.atMost x c = Scalar.atMost y c := by
  obtain rfl | ⟨s, t, hx, hy⟩ := h
  · rfl
  · rw [atMost_eq, atMost_eq, UnpackedFloat.le, UnpackedFloat.le, hx, hy, compare_zero_left s t]

theorem Alike.sub : Alike (x - c) (y - c) := by
  obtain rfl | ⟨s, t, hx, hy⟩ := h
  · exact .refl _
  · rw [sub_eq, sub_eq, hx, hy]
    cases hc : unpacked c with
    | zero r =>
      simp only [UnpackedFloat.sub]
      split <;> split <;> exact alike_packed_zero _ _
    | _ => exact .refl _

theorem Alike.mul : Alike (x * c) (y * c) := by
  obtain rfl | ⟨s, t, hx, hy⟩ := h
  · exact .refl _
  · rw [mul_eq, mul_eq, hx, hy]
    cases unpacked c with
    | zero r => exact alike_packed_zero _ _
    | finite r m e hm => exact alike_packed_zero _ _
    | _ => exact .refl _

theorem Alike.div : Alike (x / c) (y / c) := by
  obtain rfl | ⟨s, t, hx, hy⟩ := h
  · exact .refl _
  · rw [div_eq, div_eq, hx, hy]
    cases unpacked c with
    | infinity r => exact alike_packed_zero _ _
    | finite r m e hm => exact alike_packed_zero _ _
    | _ => exact .refl _

/-- A square has no sign. -/
theorem Alike.sq_eq : Scalar.sq x = Scalar.sq y := by
  obtain rfl | ⟨s, t, hx, hy⟩ := h
  · rfl
  · show x * x = y * y
    rw [mul_eq, mul_eq, hx, hy]
    cases s <;> cases t <;> rfl

end

theorem mantissa_shiftRight (em : ExtendedMantissa) (k : Nat) :
    (em >>> k).mantissa = em.mantissa / 2 ^ k := by
  induction k with
  | zero => exact (Nat.div_one em.mantissa).symm
  | succ k ih =>
    have hstep : (em >>> (k + 1)).mantissa = (em >>> k).mantissa / 2 := rfl
    rw [hstep, ih, Nat.div_div_eq_div_mul, Nat.pow_succ]

/-- From the least exponent on, a mantissa is shifted until it has 53 bits. -/
theorem shift_eq (m : Nat) {e : Int} (he : -1074 ≤ e) :
    (Format.binary64.targetExponent (totalExponent m e) - e).toNat = m.log2 - 52 := by
  have htarget : Format.binary64.targetExponent (totalExponent m e) =
      max (m.log2 + 1 + e - 53) (-1074) := rfl
  rw [htarget]
  omega

theorem shifted_bounds {m : Nat} (hm : m ≠ 0) :
    0 < m / 2 ^ (m.log2 - 52) ∧ m / 2 ^ (m.log2 - 52) < 2 ^ 53 := by
  have hle := Nat.log2_self_le hm
  have hlt := @Nat.lt_log2_self m
  have hpow : 2 ^ (m.log2 - 52) ≤ 2 ^ m.log2 := Nat.pow_le_pow_right (by decide) (by omega)
  have hbits : 2 ^ (m.log2 + 1) ≤ 2 ^ 53 * 2 ^ (m.log2 - 52) := by
    rw [← Nat.pow_add]
    exact Nat.pow_le_pow_right (by decide) (by omega)
  constructor
  · exact Nat.div_pos (hpow.trans hle) (Nat.two_pow_pos _)
  · rw [Nat.div_lt_iff_lt_mul (Nat.two_pow_pos _)]
    exact hlt.trans_le hbits

/-- What shifting to the exponent of the result leaves of a mantissa. -/
theorem shiftToTargetExponent_eq (m : Nat) {e : Int} (he : -1074 ≤ e) (accuracy : Accuracy) :
    (shiftToTargetExponent Format.binary64 m e accuracy).1.mantissa = m / 2 ^ (m.log2 - 52) ∧
      (shiftToTargetExponent Format.binary64 m e accuracy).2 = e + (m.log2 - 52 : Nat) := by
  rw [shiftToTargetExponent, shiftToExponent, shift_eq m he]
  refine ⟨?_, rfl⟩
  rw [mantissa_shiftRight]
  cases accuracy with
  | exact => rfl
  | inexact o => cases o <;> rfl

theorem mantissa_le_rounded (em : ExtendedMantissa) : em.mantissa ≤ em.roundedMantissa := by
  obtain ⟨m, roundBit, stickyBit⟩ := em
  rw [ExtendedMantissa.roundedMantissa]
  cases roundBit <;> cases stickyBit <;>
    simp [ExtendedMantissa.accuracy, Accuracy.roundToNearestEven]

/-- A float that is finite and no zero, as rounding leaves it. -/
def Rounded (u : UnpackedFloat) : Prop :=
  ∃ s m e, ∃ hm : 0 < m, u = .finite s m e hm ∧ m < 2 ^ 53 ∧ -1074 ≤ e

/-- Rounding at or above the least exponent ends at a number that is finite and not zero. -/
theorem roundWithAccuracy_rounded (s : Sign) {m : Nat} (hm : m ≠ 0) {e : Int} (he : -1074 ≤ e)
    (accuracy : Accuracy) : Rounded (roundWithAccuracy Format.binary64 s m e accuracy) := by
  obtain ⟨hmantissa, hexponent⟩ := shiftToTargetExponent_eq m he accuracy
  cases hfirst : shiftToTargetExponent Format.binary64 m e accuracy with
  | mk em f =>
    simp only [hfirst] at hmantissa hexponent
    have hle := mantissa_le_rounded em
    have hpos := (shifted_bounds hm).1
    have hrounded : em.roundedMantissa ≠ 0 := by omega
    have hf : -1074 ≤ f := by omega
    obtain ⟨hmantissa', hexponent'⟩ := shiftToTargetExponent_eq em.roundedMantissa hf .exact
    obtain ⟨hpos', hlt'⟩ := shifted_bounds hrounded
    rw [← hmantissa'] at hpos' hlt'
    rw [roundWithAccuracy, hfirst]
    have hexponent'' : -1074 ≤ (shiftToTargetExponent Format.binary64 em.roundedMantissa f .exact).2 := by
      rw [hexponent']
      omega
    exact ⟨s, _, _, hpos', dif_neg (Nat.ne_of_gt hpos'), hlt', hexponent''⟩

theorem round_rounded (s : Sign) {m : Nat} (hm : m ≠ 0) {e : Int} (he : -1074 ≤ e) :
    Rounded (UnpackedFloat.round Format.binary64 s m e) := by
  have htarget : -1074 ≤ Format.binary64.targetExponent (totalExponent m e) := Int.le_max_right _ _
  refine roundWithAccuracy_rounded s ?_ ?_ .exact
  · show m <<< _ ≠ 0
    rw [Nat.shiftLeft_eq]
    exact Nat.mul_ne_zero hm (Nat.ne_of_gt (Nat.two_pow_pos _))
  · show -1074 ≤ e - ((e - _).toNat : Int)
    omega

/-- Packing keeps apart from the zeros what was rounded. -/
theorem Rounded.unpacked_ne_zero {u : UnpackedFloat} (h : Rounded u) (t : Sign) :
    unpacked (packed u) ≠ .zero t := by
  obtain ⟨s, m, e, hm, rfl, hlt, he⟩ := h
  intro hzero
  have hfloat : packed (.finite s m e hm) = packed (.zero t) := by
    rw [← packed_unpacked (packed (.finite s m e hm)), hzero]
  have hbits : UnpackedFloat.pack Format.binary64 (.finite s m e hm) =
      packComponents Format.binary64 t 0 0 := congrArg (fun x => x.toModel.toBits.toBitVec) hfloat
  have hpack : UnpackedFloat.pack Format.binary64 (.finite s m e hm) =
      if 2 ^ 11 ≤ (e + 1023 + 52).toNat + 1 then packComponents Format.binary64 s (-1#11) 0
      else if m.log2 + 1 = 53 then
        packComponents Format.binary64 s (BitVec.ofNat 11 (e + 1023 + 52).toNat) (BitVec.ofNat 52 m)
      else packComponents Format.binary64 s 0 (BitVec.ofNat 52 m) := rfl
  rw [hpack] at hbits
  split at hbits
  · have hexponent := congrArg unpackExponent hbits
    simp only [unpackExponent_packComponents] at hexponent
    exact absurd hexponent (by decide)
  · next hfinite =>
    split at hbits
    · have hexponent := congrArg (fun b => (unpackExponent b).toNat) hbits
      simp only [unpackExponent_packComponents, BitVec.toNat_ofNat] at hexponent
      rw [Nat.mod_eq_of_lt (by omega)] at hexponent
      have hbiased : (e + 1023 + 52).toNat = 0 := hexponent
      omega
    · next hbit =>
      have hsmall : m < 2 ^ 52 := by
        have hlog : m.log2 < 53 := (Nat.log2_lt (Nat.ne_of_gt hm)).2 hlt
        exact (Nat.log2_lt (Nat.ne_of_gt hm)).1 (by omega)
      have hmantissa := congrArg (fun b => (unpackMantissa b).toNat) hbits
      simp only [unpackMantissa_packComponents, BitVec.toNat_ofNat] at hmantissa
      rw [Nat.mod_eq_of_lt hsmall] at hmantissa
      exact Nat.ne_of_gt hm hmantissa

def Plain (x : Float) : Prop := unpacked x ≠ .zero .negative

theorem Plain.positive {x : Float} (h : Plain x) {s : Sign} (hx : unpacked x = .zero s) :
    s = .positive := by
  cases s with
  | negative => exact absurd hx h
  | positive => rfl

theorem plain_zero : Plain 0 := by
  have hzero : unpacked 0 = .zero .positive := rfl
  rw [Plain, hzero]
  simp

/-- No sum is the negative zero if its first summand is not. -/
theorem Plain.add {x : Float} (h : Plain x) (y : Float) : Plain (x + y) := by
  have hnormalize : ∀ (m : Int) {e : Int}, -1074 ≤ e →
      unpacked (packed (UnpackedFloat.normalize Format.binary64 m e .positive)) ≠ .zero .negative := by
    intro m e he
    rw [UnpackedFloat.normalize]
    split
    · next hlt =>
      have hneg := Int.compare_eq_lt.1 hlt
      exact (round_rounded .negative (by omega) he).unpacked_ne_zero .negative
    · simp
    · next hgt =>
      have hpos := Int.compare_eq_gt.1 hgt
      exact (round_rounded .positive (by omega) he).unpacked_ne_zero .negative
  rw [Plain, add_eq]
  cases hx : unpacked x with
  | notANumber => simp [UnpackedFloat.add]
  | infinity s =>
    cases unpacked y with
    | infinity t =>
      simp only [UnpackedFloat.add]
      split <;> simp
    | _ => simp [UnpackedFloat.add]
  | zero s =>
    obtain rfl := h.positive hx
    cases hy : unpacked y with
    | zero t => cases t <;> simp [UnpackedFloat.add]
    | finite t n f hn =>
      show unpacked (packed (.finite t n f hn)) ≠ .zero .negative
      rw [← hy, packed_unpacked, hy]
      simp
    | _ => simp [UnpackedFloat.add]
  | finite s m e hm =>
    cases hy : unpacked y with
    | zero t =>
      show unpacked (packed (.finite s m e hm)) ≠ .zero .negative
      rw [← hx, packed_unpacked, hx]
      simp
    | finite t n f hn =>
      have he := (canonical_of_unpacked hx).least
      have hf := (canonical_of_unpacked hy).least
      exact hnormalize _ (Int.le_min.2 ⟨he, hf⟩)
    | _ => simp [UnpackedFloat.add]

/-- To anything but the negative zero, adding the one zero is adding the other. -/
theorem Plain.add_congr {x y z : Float} (h : Plain x) (hyz : Alike y z) : x + y = x + z := by
  obtain rfl | ⟨s, t, hy, hz⟩ := hyz
  · rfl
  · rw [add_eq, add_eq, hy, hz]
    cases hx : unpacked x with
    | zero r =>
      obtain rfl := h.positive hx
      cases s <;> cases t <;> rfl
    | _ => rfl

end PackageTriage.Binary
