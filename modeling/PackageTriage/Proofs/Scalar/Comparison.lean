import PackageTriage.Proofs.Scalar.Order
import PackageTriage.Proofs.Scalar.Reals

/-!
# Scalars in order

Numbers compare as the elements of a linear order, infinite ones included, and every comparison with what is no
number fails. The order that sorts follows the comparison and tells all scalars apart. Floats are such scalars, and
so are the reals.
-/

namespace PackageTriage

open Scalar in
class OrderedScalar (α : Type) [Scalar α] : Prop where
  isNumber_zero : isNumber (0 : α) = true
  isNumber_of_less {a b : α} : less a b = true → isNumber a = true ∧ isNumber b = true
  less_irrefl (a : α) : less a a = false
  less_trans {a b c : α} : less a b = true → less b c = true → less a c = true
  /-- No number lies beside a gap without being above its lower or below its upper end. -/
  less_or_less {a b c : α} : isNumber b = true → less a c = true → less a b = true ∨ less b c = true
  atMost_eq {a b : α} : isNumber a = true → isNumber b = true → atMost a b = !less b a
  isNumber_of_same {a b : α} : same a b = true → isNumber a = true ∧ isNumber b = true
  same_eq {a b : α} : isNumber a = true → isNumber b = true → same a b = (!less a b && !less b a)
  rank_trans {a b c : α} : rank a b = true → rank b c = true → rank a c = true
  rank_total (a b : α) : (rank a b || rank b a) = true
  rank_antisymm {a b : α} : rank a b = true → rank b a = true → a = b
  not_less_of_rank {a b : α} : rank a b = true → less b a = false

namespace OrderedScalar

variable {α : Type} [Scalar α] [OrderedScalar α] {a b c : α}

theorem isNumber_getD {row : List α} (h : ∀ v ∈ row, Scalar.isNumber v = true) (i : Nat) :
    Scalar.isNumber (row.getD i 0) = true := by
  rcases lt_or_ge i row.length with hi | hi
  · rw [List.getD_eq_getElem _ _ hi]
    exact h _ (List.getElem_mem hi)
  · rw [List.getD_eq_default _ _ hi]
    exact isNumber_zero

theorem less_asymm (h : Scalar.less a b = true) : Scalar.less b a = false := by
  by_contra hba
  exact Bool.noConfusion ((less_irrefl a).symm.trans (less_trans h (Bool.not_eq_false _ ▸ hba)))

theorem same_self (ha : Scalar.isNumber a = true) : Scalar.same a a = true := by
  rw [same_eq ha ha, less_irrefl]
  rfl

/-- Numbers are the same if neither is below the other. -/
theorem same_iff : Scalar.same a b = true ↔ Scalar.isNumber a = true ∧ Scalar.isNumber b = true ∧
    Scalar.less a b = false ∧ Scalar.less b a = false := by
  constructor
  · intro h
    obtain ⟨ha, hb⟩ := isNumber_of_same h
    rw [same_eq ha hb] at h
    simpa [ha, hb] using h
  · rintro ⟨ha, hb, hab, hba⟩
    rw [same_eq ha hb, hab, hba]
    rfl

theorem same_symm (h : Scalar.same a b = true) : Scalar.same b a = true := by
  obtain ⟨ha, hb, hab, hba⟩ := same_iff.1 h
  exact same_iff.2 ⟨hb, ha, hba, hab⟩

theorem not_less_trans (hb : Scalar.isNumber b = true) (hab : Scalar.less a b = false)
    (hbc : Scalar.less b c = false) : Scalar.less a c = false := by
  by_contra hac
  rcases less_or_less hb (Bool.not_eq_false _ ▸ hac) with h | h
  · exact Bool.noConfusion (hab.symm.trans h)
  · exact Bool.noConfusion (hbc.symm.trans h)

theorem same_trans (hab : Scalar.same a b = true) (hbc : Scalar.same b c = true) : Scalar.same a c = true := by
  obtain ⟨ha, hb, hab, hba⟩ := same_iff.1 hab
  obtain ⟨-, hc, hbc, hcb⟩ := same_iff.1 hbc
  exact same_iff.2 ⟨ha, hc, not_less_trans hb hab hbc, not_less_trans hb hcb hba⟩

/-- Sorted numbers that are not the same rise. -/
theorem less_of_rank (ha : Scalar.isNumber a = true) (hb : Scalar.isNumber b = true)
    (h : Scalar.rank a b = true) (hne : Scalar.same a b = false) : Scalar.less a b = true := by
  rw [same_eq ha hb, not_less_of_rank h] at hne
  simpa using hne

theorem sorted_by {β : Type} (key : β → α) (bs : List β) :
    (bs.mergeSort fun b c => Scalar.rank (key b) (key c)).Pairwise fun b c => Scalar.rank (key b) (key c) = true := by
  have htrans (b c d : β) (hbc : Scalar.rank (key b) (key c) = true) (hcd : Scalar.rank (key c) (key d) = true) :
      Scalar.rank (key b) (key d) = true := rank_trans hbc hcd
  exact List.pairwise_mergeSort htrans (fun b c => rank_total (key b) (key c)) bs

theorem sorted (as : List α) : (as.mergeSort Scalar.rank).Pairwise fun a b => Scalar.rank a b = true := sorted_by id as

/-- However they come, scalars are sorted into one order. -/
theorem mergeSort_perm {as bs : List α} (h : as.Perm bs) : as.mergeSort Scalar.rank = bs.mergeSort Scalar.rank :=
  List.Perm.eq_of_pairwise (fun _ _ _ _ => rank_antisymm) (sorted as) (sorted bs)
    (((List.mergeSort_perm as _).trans h).trans (List.mergeSort_perm bs _).symm)

end OrderedScalar

namespace Binary

open Float.Model UnpackedFloat

/-- Where a number stands among all numbers, with the infinite ones at the ends. -/
def standing (x : Float) : WithBot (WithTop ℚ) :=
  match unpacked x with
  | .infinity .positive => ((⊤ : WithTop ℚ) : WithBot (WithTop ℚ))
  | .infinity .negative => ⊥
  | u => ((number u : WithTop ℚ) : WithBot (WithTop ℚ))

theorem standing_of_finite {x : Float} (h : x.isFinite = true) :
    standing x = ((value x : WithTop ℚ) : WithBot (WithTop ℚ)) := by
  rw [standing, value]
  obtain ⟨s, hx⟩ | ⟨s, m, e, hm, hx, -⟩ := finite_cases h <;> rw [hx]

/-- A number is finite, or it is one of the infinities. -/
theorem number_cases {x : Float} (h : Scalar.isNumber x = true) :
    x.isFinite = true ∨ unpacked x = .infinity .positive ∨ unpacked x = .infinity .negative := by
  have hnumber : (!(unpacked x).isNaN) = true := h
  rw [isFinite_eq]
  cases hx : unpacked x with
  | notANumber => simp [hx, UnpackedFloat.isNaN] at hnumber
  | infinity s => cases s <;> simp
  | zero s => exact .inl rfl
  | finite s m e hm => exact .inl rfl

theorem standing_of_top {x : Float} (h : unpacked x = .infinity .positive) :
    standing x = ((⊤ : WithTop ℚ) : WithBot (WithTop ℚ)) := by rw [standing, h]

theorem standing_of_bot {x : Float} (h : unpacked x = .infinity .negative) : standing x = ⊥ := by rw [standing, h]

/-- Numbers compare as they stand. -/
theorem compare_numbers {x y : Float} (hx : Scalar.isNumber x = true) (hy : Scalar.isNumber y = true) :
    UnpackedFloat.compare (unpacked x) (unpacked y) = some (compare (standing x) (standing y)) := by
  have hmono : StrictMono fun q : ℚ => ((q : WithTop ℚ) : WithBot (WithTop ℚ)) :=
    WithBot.coe_strictMono.comp WithTop.coe_strictMono
  have hbelow (q : ℚ) : ((q : WithTop ℚ) : WithBot (WithTop ℚ)) < ((⊤ : WithTop ℚ) : WithBot (WithTop ℚ)) :=
    WithBot.coe_lt_coe.2 (WithTop.coe_lt_top q)
  rcases number_cases hx with hfx | hix | hix <;> rcases number_cases hy with hfy | hiy | hiy
  · rw [compare_eq hfx hfy, standing_of_finite hfx, standing_of_finite hfy, ← cmp_eq_compare, ← cmp_eq_compare,
      ← hmono.cmp_map_eq]
  · rw [standing_of_finite hfx, standing_of_top hiy, hiy, compare_lt_iff_lt.2 (hbelow _)]
    obtain ⟨s, hu⟩ | ⟨s, m, e, hm, hu, -⟩ := finite_cases hfx <;> rw [hu] <;> cases s <;> rfl
  · rw [standing_of_finite hfx, standing_of_bot hiy, hiy, compare_gt_iff_gt.2 (WithBot.bot_lt_coe _)]
    obtain ⟨s, hu⟩ | ⟨s, m, e, hm, hu, -⟩ := finite_cases hfx <;> rw [hu] <;> cases s <;> rfl
  · rw [standing_of_finite hfy, standing_of_top hix, hix, compare_gt_iff_gt.2 (hbelow _)]
    obtain ⟨s, hu⟩ | ⟨s, m, e, hm, hu, -⟩ := finite_cases hfy <;> rw [hu] <;> cases s <;> rfl
  · rw [standing_of_top hix, standing_of_top hiy, hix, hiy, compare_eq_iff_eq.2 rfl]
    rfl
  · rw [standing_of_top hix, standing_of_bot hiy, hix, hiy, compare_gt_iff_gt.2 (WithBot.bot_lt_coe _)]
    rfl
  · rw [standing_of_finite hfy, standing_of_bot hix, hix, compare_lt_iff_lt.2 (WithBot.bot_lt_coe _)]
    obtain ⟨s, hu⟩ | ⟨s, m, e, hm, hu, -⟩ := finite_cases hfy <;> rw [hu] <;> cases s <;> rfl
  · rw [standing_of_bot hix, standing_of_top hiy, hix, hiy, compare_lt_iff_lt.2 (WithBot.bot_lt_coe _)]
    rfl
  · rw [standing_of_bot hix, standing_of_bot hiy, hix, hiy, compare_eq_iff_eq.2 rfl]
    rfl

/-- What is no number compares with nothing. -/
theorem numbers_of_compare {x y : Float} {o : Ordering}
    (h : UnpackedFloat.compare (unpacked x) (unpacked y) = some o) :
    Scalar.isNumber x = true ∧ Scalar.isNumber y = true := by
  have hnumber (z : Float) : Scalar.isNumber z = !(unpacked z).isNaN := rfl
  rw [hnumber, hnumber]
  cases hx : unpacked x <;> cases hy : unpacked y <;> simp_all [UnpackedFloat.compare, UnpackedFloat.isNaN]

/-- The order of floats is that of their standings, and only numbers are compared. -/
theorem less_iff_standing {x y : Float} : Scalar.less x y = true ↔
    Scalar.isNumber x = true ∧ Scalar.isNumber y = true ∧ standing x < standing y := by
  rw [less_eq, UnpackedFloat.lt, beq_iff_eq]
  constructor
  · intro h
    obtain ⟨hx, hy⟩ := numbers_of_compare h
    rw [compare_numbers hx hy, Option.some_inj, compare_lt_iff_lt] at h
    exact ⟨hx, hy, h⟩
  · rintro ⟨hx, hy, h⟩
    rw [compare_numbers hx hy, compare_lt_iff_lt.2 h]

theorem same_iff_standing {x y : Float} : Scalar.same x y = true ↔
    Scalar.isNumber x = true ∧ Scalar.isNumber y = true ∧ standing x = standing y := by
  rw [same_eq, UnpackedFloat.beq, beq_iff_eq]
  constructor
  · intro h
    obtain ⟨hx, hy⟩ := numbers_of_compare h
    rw [compare_numbers hx hy, Option.some_inj, compare_eq_iff_eq] at h
    exact ⟨hx, hy, h⟩
  · rintro ⟨hx, hy, h⟩
    rw [compare_numbers hx hy, compare_eq_iff_eq.2 h]

theorem atMost_iff_standing {x y : Float} (hx : Scalar.isNumber x = true) (hy : Scalar.isNumber y = true) :
    Scalar.atMost x y = true ↔ standing x ≤ standing y := by
  rw [atMost_eq, UnpackedFloat.le, compare_numbers hx hy, Option.any_some, ← compare_le_iff_le, Ordering.isLE_iff_ne_gt]

/-- An infinity comes behind all floats of its sign. -/
theorem toNat_orderKey_infinity {x : Float} {s : Sign} (h : unpacked x = .infinity s) :
    (orderKey x).toNat = placeOf (2047 * 2 ^ 52) s := by
  refine toNat_orderKey (by norm_num) ?_
  have hpack : UnpackedFloat.pack Format.binary64 (.infinity s) =
      packComponents Format.binary64 s (-1#11) (0#52) := rfl
  have hexponent : (-1#11).toNat = 2047 := rfl
  rw [h, hpack, toNat_packComponents, hexponent, BitVec.toNat_zero]
  omega

/-- Keys of finite floats lie between those of the infinities. -/
theorem toNat_orderKey_lt_top {x : Float} (h : x.isFinite = true) :
    placeOf (2047 * 2 ^ 52) .negative < (orderKey x).toNat ∧
      (orderKey x).toNat < placeOf (2047 * 2 ^ 52) .positive := by
  obtain ⟨s, hx⟩ | ⟨s, m, e, hm, hx, hc⟩ := finite_cases h
  · rw [toNat_orderKey_zero hx]
    cases s <;> simp only [placeOf] <;> omega
  · have hlt := hc.lt
    have hgreatest := hc.greatest
    rw [toNat_orderKey_finite hx, magnitude]
    cases s <;> simp only [placeOf] <;> omega

/-- The order that sorts rises with the number, infinite ones included. -/
theorem orderKey_lt_of_standing {x y : Float} (hx : Scalar.isNumber x = true) (hy : Scalar.isNumber y = true)
    (h : standing x < standing y) : (orderKey x).toNat < (orderKey y).toNat := by
  rcases number_cases hx with hfx | hix | hix <;> rcases number_cases hy with hfy | hiy | hiy
  · rw [standing_of_finite hfx, standing_of_finite hfy, WithBot.coe_lt_coe, WithTop.coe_lt_coe] at h
    exact orderKey_lt hfx hfy h
  · rw [toNat_orderKey_infinity hiy]
    exact (toNat_orderKey_lt_top hfx).2
  · exact absurd (standing_of_bot hiy ▸ h) not_lt_bot
  · rw [standing_of_finite hfy, standing_of_top hix, WithBot.coe_lt_coe] at h
    exact absurd h not_top_lt
  · rw [standing_of_top hix, standing_of_top hiy] at h
    exact absurd h (lt_irrefl _)
  · exact absurd (standing_of_bot hiy ▸ h) not_lt_bot
  · rw [toNat_orderKey_infinity hix]
    exact (toNat_orderKey_lt_top hfy).1
  · rw [toNat_orderKey_infinity hix, toNat_orderKey_infinity hiy]
    decide
  · exact absurd (standing_of_bot hiy ▸ h) not_lt_bot

/-- The key of a sign and a magnitude tells both. -/
theorem placeOf_injective {k l : ℕ} (hk : k < 2 ^ 63) (hl : l < 2 ^ 63) {s t : Sign}
    (h : placeOf k s = placeOf l t) : s = t ∧ k = l := by
  cases s <;> cases t <;> simp only [placeOf] at h
  · exact ⟨rfl, by omega⟩
  · omega
  · omega
  · exact ⟨rfl, by omega⟩

theorem exists_placeOf (x : Float) : ∃ s k, k < 2 ^ 63 ∧ x.toBits.toNat = s.toBitVec.toNat * 2 ^ 63 + k ∧
    (orderKey x).toNat = placeOf k s := by
  have hlt := x.toBits.toNat_lt
  have hsign (s : Sign) {k : ℕ} (hk : k < 2 ^ 63) (h : x.toBits.toNat = s.toBitVec.toNat * 2 ^ 63 + k) :
      ∃ s k, k < 2 ^ 63 ∧ x.toBits.toNat = s.toBitVec.toNat * 2 ^ 63 + k ∧ (orderKey x).toNat = placeOf k s :=
    ⟨s, k, hk, h, toNat_orderKey hk (toNat_toBits x ▸ h)⟩
  rcases lt_or_ge x.toBits.toNat (2 ^ 63) with hlow | hhigh
  · have hbit : Sign.positive.toBitVec.toNat = 0 := rfl
    exact hsign .positive hlow (by omega)
  · have hbit : Sign.negative.toBitVec.toNat = 1 := rfl
    exact hsign .negative (k := x.toBits.toNat - 2 ^ 63) (by omega) (by rw [hbit]; omega)

/-- The order that sorts tells all floats apart. -/
theorem orderKey_injective {x y : Float} (h : orderKey x = orderKey y) : x = y := by
  obtain ⟨s, k, hk, hx, hkeyx⟩ := exists_placeOf x
  obtain ⟨t, l, hl, hy, hkeyy⟩ := exists_placeOf y
  obtain ⟨rfl, rfl⟩ := placeOf_injective hk hl (hkeyx.symm.trans (h ▸ hkeyy))
  have hbits : x.toBits = y.toBits := UInt64.toNat_inj.1 (hx.trans hy.symm)
  rw [← Float.ofBits_toBits x, hbits, Float.ofBits_toBits]

end Binary

instance : OrderedScalar Float where
  isNumber_zero := rfl
  isNumber_of_less h := by
    obtain ⟨ha, hb, -⟩ := Binary.less_iff_standing.1 h
    exact ⟨ha, hb⟩
  less_irrefl a := by
    rw [← Bool.not_eq_true, Binary.less_iff_standing]
    exact fun h => lt_irrefl _ h.2.2
  less_trans hab hbc := by
    obtain ⟨ha, -, hab⟩ := Binary.less_iff_standing.1 hab
    obtain ⟨-, hc, hbc⟩ := Binary.less_iff_standing.1 hbc
    exact Binary.less_iff_standing.2 ⟨ha, hc, hab.trans hbc⟩
  less_or_less {a b c} hb hac := by
    obtain ⟨ha, hc, hac⟩ := Binary.less_iff_standing.1 hac
    rcases lt_or_ge (Binary.standing a) (Binary.standing b) with hab | hba
    · exact .inl (Binary.less_iff_standing.2 ⟨ha, hb, hab⟩)
    · exact .inr (Binary.less_iff_standing.2 ⟨hb, hc, hba.trans_lt hac⟩)
  atMost_eq {a b} ha hb := by
    rw [Bool.eq_iff_iff, Binary.atMost_iff_standing ha hb, Bool.not_eq_true', ← Bool.not_eq_true,
      Binary.less_iff_standing]
    simp [ha, hb]
  isNumber_of_same h := by
    obtain ⟨ha, hb, -⟩ := Binary.same_iff_standing.1 h
    exact ⟨ha, hb⟩
  same_eq {a b} ha hb := by
    rw [Bool.eq_iff_iff, Binary.same_iff_standing, Bool.and_eq_true, Bool.not_eq_true', Bool.not_eq_true',
      ← Bool.not_eq_true, ← Bool.not_eq_true, Binary.less_iff_standing, Binary.less_iff_standing]
    simp [ha, hb, le_antisymm_iff, and_comm]
  rank_trans := Binary.rank_trans
  rank_total := Binary.rank_total
  rank_antisymm hab hba :=
    Binary.orderKey_injective (UInt64.le_antisymm (of_decide_eq_true hab) (of_decide_eq_true hba))
  not_less_of_rank {a b} hab := by
    rw [← Bool.not_eq_true, Binary.less_iff_standing]
    rintro ⟨hb, ha, hlt⟩
    have hkey : Binary.orderKey a ≤ Binary.orderKey b := of_decide_eq_true hab
    exact absurd (Binary.orderKey_lt_of_standing hb ha hlt) (not_lt.2 (UInt64.le_iff_toNat_le.1 hkey))

instance : OrderedScalar ℝ where
  isNumber_zero := rfl
  isNumber_of_less _ := ⟨rfl, rfl⟩
  less_irrefl a := by simp
  less_trans hab hbc := by
    simp only [Scalar.less_real, decide_eq_true_eq] at *
    exact hab.trans hbc
  less_or_less {a b c} _ hac := by
    simp only [Scalar.less_real, decide_eq_true_eq] at *
    exact (lt_or_ge a b).imp_right fun hba => hba.trans_lt hac
  atMost_eq _ _ := by simp [← not_lt]
  isNumber_of_same _ := ⟨rfl, rfl⟩
  same_eq _ _ := by simp [le_antisymm_iff, ← not_lt, and_comm]
  rank_trans hab hbc := by
    simp only [Scalar.rank_real, decide_eq_true_eq] at *
    exact hab.trans hbc
  rank_total a b := by simpa using le_total a b
  rank_antisymm hab hba := by
    simp only [Scalar.rank_real, decide_eq_true_eq] at *
    exact le_antisymm hab hba
  not_less_of_rank := by simp

end PackageTriage
