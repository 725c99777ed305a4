import PackageTriage.Scalar
import Mathlib

/-!
# Floats and their fields

A float is unpacked into sign, mantissa and exponent, and packed again after every operation. Finite floats
are packed without loss: all bits of the mantissa are used unless the exponent is the least one.
-/

namespace PackageTriage.Binary

open Float.Model UnpackedFloat

def unpacked (x : Float) : UnpackedFloat := x.toModel.unpack

def packed (u : UnpackedFloat) : Float := .ofModel (.pack u)

@[simp] theorem packed_unpacked (x : Float) : packed (unpacked x) = x := by
  obtain ⟨⟨bits, valid⟩⟩ := x
  simp only [packed, unpacked, Float.Model.unpack, Float.Model.pack, pack_unpack_of_valid valid]

theorem unpacked_injective {x y : Float} (h : unpacked x = unpacked y) : x = y := by
  rw [← packed_unpacked x, h, packed_unpacked]

@[simp] theorem unpacked_packed_zero (s : Sign) : unpacked (packed (.zero s)) = .zero s := by
  cases s <;> rfl

@[simp] theorem unpacked_packed_infinity (s : Sign) : unpacked (packed (.infinity s)) = .infinity s := by
  cases s <;> rfl

@[simp] theorem unpacked_packed_notANumber : unpacked (packed .notANumber) = .notANumber := rfl

theorem add_eq (x y : Float) : x + y = packed (.add Format.binary64 (unpacked x) (unpacked y)) := rfl

theorem sub_eq (x y : Float) : x - y = packed (.sub Format.binary64 (unpacked x) (unpacked y)) := rfl

theorem mul_eq (x y : Float) : x * y = packed (.mul Format.binary64 (unpacked x) (unpacked y)) := rfl

theorem div_eq (x y : Float) : x / y = packed (.div Format.binary64 (unpacked x) (unpacked y)) := rfl

theorem neg_eq (x : Float) : -x = packed (.neg (unpacked x)) := rfl

theorem isFinite_eq (x : Float) : x.isFinite = (unpacked x).isFinite := rfl

theorem less_eq (x y : Float) : Scalar.less x y = (unpacked x).lt (unpacked y) := by
  show decide (decide ((unpacked x).lt (unpacked y) = true) = true) = _
  simp

theorem atMost_eq (x y : Float) : Scalar.atMost x y = (unpacked x).le (unpacked y) := by
  show decide (decide ((unpacked x).le (unpacked y) = true) = true) = _
  simp

theorem same_eq (x y : Float) : Scalar.same x y = (unpacked x).beq (unpacked y) := rfl

/-- Mantissa and exponent of a finite float as it is packed: all bits of the mantissa are used unless the
exponent is the least one. -/
structure Canonical (m : ℕ) (e : ℤ) : Prop where
  pos : 0 < m
  lt : m < 2 ^ 53
  least : -1074 ≤ e
  greatest : e ≤ 971
  normal : e = -1074 ∨ 2 ^ 52 ≤ m

theorem log2_eq {m : ℕ} (hlow : 2 ^ 52 ≤ m) (hlt : m < 2 ^ 53) : m.log2 = 52 :=
  (Nat.log2_eq_iff (by omega)).2 ⟨hlow, hlt⟩

theorem toNat_append_one (v : BitVec 52) : (1#1 ++ v).toNat = 2 ^ 52 + v.toNat := by
  rw [BitVec.toNat_append, ← Nat.shiftLeft_add_eq_or_of_lt v.isLt]
  rfl

theorem unpackSign_packComponents {spec : Format} (s : Sign) (exponent : BitVec spec.exponentBits)
    (mantissa : BitVec spec.mantissaBitsWithoutImplicit) :
    Sign.ofBitVec (unpackSign (packComponents spec s exponent mantissa)) = s := by
  have hsign : unpackSign (packComponents spec s exponent mantissa) = s.toBitVec := by
    ext i hi
    obtain rfl : i = 0 := by omega
    simp [unpackSign, packComponents, BitVec.getLsbD_append, BitVec.getElem_append]
  rw [hsign]
  cases s <;> rfl

/-- A finite float is unpacked to its canonical mantissa and exponent. -/
theorem canonical_of_unpacked {x : Float} {s : Sign} {m : ℕ} {e : ℤ} {hm : 0 < m}
    (h : unpacked x = .finite s m e hm) : Canonical m e := by
  have hunpack : UnpackedFloat.unpack Format.binary64 x.toModel.toBits.toBitVec = .finite s m e hm := h
  rw [UnpackedFloat.unpack] at hunpack
  have hbias : (Format.binary64.exponentBias : Int) = 1023 := rfl
  have hbits : (Format.binary64.mantissaBitsWithoutImplicit : Int) = 52 := rfl
  rw [hbias, hbits] at hunpack
  have hmantissa := (@unpackMantissa Format.binary64 x.toModel.toBits.toBitVec).isLt
  have hexponent := (@unpackExponent Format.binary64 x.toModel.toBits.toBitVec).isLt
  split at hunpack
  · split at hunpack <;> simp at hunpack
  · next hfinite =>
    split at hunpack
    · next hzero =>
      split at hunpack
      · simp at hunpack
      · obtain ⟨-, rfl, hleast⟩ := UnpackedFloat.finite.inj hunpack
        rw [hzero] at hleast
        have hleast' : ((0#11).toNat : Int) - (1023 + 52) + 1 = e := hleast
        obtain rfl : e = -1074 := hleast'.symm
        exact ⟨hm, hmantissa.trans (by decide), le_rfl, by decide, .inl rfl⟩
    · next hnormal =>
      obtain ⟨-, rfl, rfl⟩ := UnpackedFloat.finite.inj hunpack
      have hlow : (@unpackExponent Format.binary64 x.toModel.toBits.toBitVec).toNat ≠ 0 :=
        fun hzero => hnormal (BitVec.eq_of_toNat_eq hzero)
      have hhigh : (@unpackExponent Format.binary64 x.toModel.toBits.toBitVec).toNat ≠ 2047 :=
        fun hones => hfinite (BitVec.eq_of_toNat_eq hones)
      have hone := toNat_append_one (@unpackMantissa Format.binary64 x.toModel.toBits.toBitVec)
      have hexponent' : (@unpackExponent Format.binary64 x.toModel.toBits.toBitVec).toNat < 2048 := hexponent
      have hmantissa' : (@unpackMantissa Format.binary64 x.toModel.toBits.toBitVec).toNat < 2 ^ 52 := hmantissa
      refine ⟨hm, ?_, by omega, by omega, .inr ?_⟩
      · exact lt_of_eq_of_lt hone (by omega)
      · exact le_of_le_of_eq (by omega) hone.symm

/-- What is packed without loss is unpacked again. -/
theorem unpacked_packed_finite (s : Sign) {m : ℕ} {e : ℤ} (h : Canonical m e) :
    unpacked (packed (.finite s m e h.pos)) = .finite s m e h.pos := by
  obtain ⟨hpos, hlt, hleast, hgreatest, hnormal⟩ := h
  set biased := (e + 1023 + 52).toNat with hbiased
  have hpack : UnpackedFloat.pack Format.binary64 (.finite s m e hpos) =
      if 2 ^ 11 ≤ biased + 1 then packComponents Format.binary64 s (-1#11) 0
      else if m.log2 + 1 = 53 then
        packComponents Format.binary64 s (BitVec.ofNat 11 biased) (BitVec.ofNat 52 m)
      else packComponents Format.binary64 s 0 (BitVec.ofNat 52 m) := rfl
  have hunpack : unpacked (packed (.finite s m e hpos)) =
      UnpackedFloat.unpack Format.binary64 (UnpackedFloat.pack Format.binary64 (.finite s m e hpos)) := rfl
  have hbias : (Format.binary64.exponentBias : Int) = 1023 := rfl
  have hbits : (Format.binary64.mantissaBitsWithoutImplicit : Int) = 52 := rfl
  rw [hunpack, hpack, if_neg (by omega)]
  by_cases hlong : 2 ^ 52 ≤ m
  · have hexponent : (BitVec.ofNat 11 biased).toNat = biased := by
      rw [BitVec.toNat_ofNat, Nat.mod_eq_of_lt (by omega)]
    have hfinite : BitVec.ofNat 11 biased ≠ -1#11 := by
      intro heq
      have hnat : (BitVec.ofNat 11 biased).toNat = 2047 := congrArg BitVec.toNat heq
      omega
    have hzero : BitVec.ofNat 11 biased ≠ 0#11 := by
      intro heq
      have hnat : (BitVec.ofNat 11 biased).toNat = 0 := congrArg BitVec.toNat heq
      omega
    have hmantissa : (1#1 ++ BitVec.ofNat 52 m).toNat = m := by
      rw [toNat_append_one, BitVec.toNat_ofNat]
      omega
    rw [if_pos (by rw [log2_eq hlong hlt])]
    simp only [UnpackedFloat.unpack, unpackExponent_packComponents, unpackMantissa_packComponents,
      unpackSign_packComponents, hfinite, hzero, ↓reduceIte, hmantissa, hexponent, hbias, hbits]
    congr 1
    omega
  · obtain rfl := hnormal.resolve_right hlong
    have hlog : m.log2 < 52 := (Nat.log2_lt hpos.ne').2 (not_le.1 hlong)
    have hmantissa : (BitVec.ofNat 52 m).toNat = m := by
      rw [BitVec.toNat_ofNat]
      omega
    have hzero : BitVec.ofNat 52 m ≠ 0#52 := by
      intro heq
      have hnat : (BitVec.ofNat 52 m).toNat = 0 := congrArg BitVec.toNat heq
      omega
    rw [if_neg (by omega)]
    simp only [UnpackedFloat.unpack, unpackExponent_packComponents, unpackMantissa_packComponents,
      unpackSign_packComponents, hzero, ↓reduceIte, ↓reduceDIte, hmantissa, hbias, hbits]
    rfl

end PackageTriage.Binary
