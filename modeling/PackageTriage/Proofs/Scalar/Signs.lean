import PackageTriage.Proofs.Scalar.Comparison
import PackageTriage.Proofs.Scalar.Midpoints

/-!
# Signs

The sign of a product or a quotient is that of its parts, and a sum of scalars of one sign has it too. None of this
asks whether the scalars are finite, or numbers at all: what is no number may pass for any sign, for nothing compares
with it, and whatever is reckoned with it is no number either. A scalar to which something not above zero is added does
not grow, whatever is lost in rounding.
-/

namespace PackageTriage.Binary

open Float.Model UnpackedFloat

/-- The sign of a number, a zero and an infinity included. -/
def Carries (s : Sign) : UnpackedFloat → Prop
  | .notANumber => True
  | .infinity t => t = s
  | .zero t => t = s
  | .finite t _ _ _ => t = s

/-- Every float has a sign; what is no number has both. -/
theorem exists_carries (x : Float) : ∃ s, Carries s (unpacked x) := by
  cases unpacked x with
  | notANumber => exact ⟨.positive, trivial⟩
  | infinity s => exact ⟨s, rfl⟩
  | zero s => exact ⟨s, rfl⟩
  | finite s m e hm => exact ⟨s, rfl⟩

theorem carries_unpack (b : BitVec Format.binary64.numBits) :
    Carries (Sign.ofBitVec (unpackSign b)) (UnpackedFloat.unpack Format.binary64 b) := by
  rw [UnpackedFloat.unpack]
  split_ifs <;> trivial

theorem Carries.packed {s : Sign} {u : UnpackedFloat} (h : Carries s u) : Carries s (unpacked (packed u)) := by
  have hcarries := carries_unpack (UnpackedFloat.pack Format.binary64 u)
  have hunpack : unpacked (Binary.packed u) =
      UnpackedFloat.unpack Format.binary64 (UnpackedFloat.pack Format.binary64 u) := rfl
  rw [hunpack]
  cases u with
  | notANumber => trivial
  | infinity t =>
    obtain rfl : t = s := h
    rwa [UnpackedFloat.pack, packedInfinity, unpackSign_packComponents] at hcarries
  | zero t =>
    obtain rfl : t = s := h
    rwa [UnpackedFloat.pack, packedZero, unpackSign_packComponents] at hcarries
  | finite t m e hm =>
    obtain rfl : t = s := h
    have hsign : Sign.ofBitVec (unpackSign (UnpackedFloat.pack Format.binary64 (.finite t m e hm))) = t := by
      rw [UnpackedFloat.pack]
      dsimp only
      split_ifs
      · exact unpackSign_packComponents _ _ _
      · exact unpackSign_packComponents _ _ _
      · exact unpackSign_packComponents _ _ _
    rwa [hsign] at hcarries

theorem carries_roundWithAccuracy (s : Sign) (m : ℕ) (e : ℤ) (accuracy : Accuracy) :
    Carries s (roundWithAccuracy Format.binary64 s m e accuracy) := by
  rw [roundWithAccuracy]
  dsimp only
  split_ifs <;> rfl

/-- A mantissa that is counted with its sign is rounded with it. -/
theorem carries_normalize (s : Sign) {m : ℕ} (hm : 0 < m) (e : ℤ) :
    Carries s (UnpackedFloat.normalize Format.binary64 (s.apply m) e .positive) := by
  cases s with
  | positive =>
    have hcompare : compare (Sign.positive.apply m) 0 = .gt := compare_gt_iff_gt.2 (Int.natCast_pos.2 hm)
    rw [UnpackedFloat.normalize, hcompare]
    exact carries_roundWithAccuracy _ _ _ _
  | negative =>
    have hcompare : compare (Sign.negative.apply m) 0 = .lt :=
      compare_lt_iff_lt.2 (neg_neg_of_pos (Int.natCast_pos.2 hm))
    rw [UnpackedFloat.normalize, hcompare]
    exact carries_roundWithAccuracy _ _ _ _

variable {x y : Float} {s t : Sign}

/-- A product has the product of the signs. -/
theorem Carries.mul (hx : Carries s (unpacked x)) (hy : Carries t (unpacked y)) :
    Carries (s * t) (unpacked (x * y)) := by
  rw [mul_eq]
  refine Carries.packed ?_
  cases hu : unpacked x <;> cases hv : unpacked y <;> rw [hu] at hx <;> rw [hv] at hy <;>
    first
    | trivial
    | (obtain rfl := hx; obtain rfl := hy; first | rfl | exact carries_roundWithAccuracy _ _ _ _)

theorem Carries.div (hx : Carries s (unpacked x)) (hy : Carries t (unpacked y)) :
    Carries (s / t) (unpacked (x / y)) := by
  rw [div_eq]
  refine Carries.packed ?_
  cases hu : unpacked x <;> cases hv : unpacked y <;> rw [hu] at hx <;> rw [hv] at hy <;>
    first
    | trivial
    | (obtain rfl := hx; obtain rfl := hy; first | rfl | exact carries_roundWithAccuracy _ _ _ _)

theorem Carries.neg (hx : Carries s (unpacked x)) : Carries (-s) (unpacked (-x)) := by
  rw [neg_eq]
  refine Carries.packed ?_
  cases hu : unpacked x <;> rw [hu] at hx <;> first | trivial | (obtain rfl := hx; rfl)

theorem carries_abs (x : Float) : Carries .positive (unpacked (Scalar.abs x)) := by
  have habs : Scalar.abs x = packed (.abs (unpacked x)) := rfl
  rw [habs]
  refine Carries.packed ?_
  cases unpacked x <;> trivial

theorem Carries.add (hx : Carries s (unpacked x)) (hy : Carries s (unpacked y)) : Carries s (unpacked (x + y)) := by
  rw [add_eq]
  refine Carries.packed ?_
  cases hu : unpacked x <;> cases hv : unpacked y <;> rw [hu] at hx <;> rw [hv] at hy
  case finite.finite t m₁ e₁ hm₁ t' m₂ e₂ hm₂ =>
    obtain rfl : t = s := hx
    obtain rfl : t' = t := hy
    have happly (a b : ℕ) : (t'.apply a + t'.apply b : ℤ) = t'.apply (a + b : ℕ) := by
      cases t' <;> simp only [Sign.apply] <;> push_cast <;> ring
    have hpos : 0 < m₁ <<< (e₁ - min e₁ e₂).toNat + m₂ <<< (e₂ - min e₁ e₂).toNat := by
      rw [Nat.shiftLeft_eq, Nat.shiftLeft_eq]
      positivity
    have hnormalize := carries_normalize t' hpos (min e₁ e₂)
    rw [← happly] at hnormalize
    exact hnormalize
  all_goals
    first
    | trivial
    | (cases s <;> cases hx <;> cases hy <;> rfl)

def Undefined (x : Float) : Prop := unpacked x = .notANumber

/-- An operation on two parts gives no number if one of them is none. -/
theorem undefined_of {op : UnpackedFloat → UnpackedFloat → UnpackedFloat} (hleft : ∀ v, op .notANumber v = .notANumber)
    (hright : ∀ u, op u .notANumber = .notANumber) (h : Undefined x ∨ Undefined y) :
    Undefined (packed (op (unpacked x) (unpacked y))) := by
  rw [Undefined]
  obtain hu | hv := h
  · rw [show unpacked x = .notANumber from hu, hleft, unpacked_packed_notANumber]
  · rw [show unpacked y = .notANumber from hv, hright, unpacked_packed_notANumber]

/-- What is no number makes every sum none. -/
theorem Undefined.add (h : Undefined x ∨ Undefined y) : Undefined (x + y) :=
  undefined_of (fun _ => rfl) (fun u => by cases u <;> rfl) h

theorem Undefined.sub (h : Undefined x ∨ Undefined y) : Undefined (x - y) :=
  undefined_of (fun _ => rfl) (fun u => by cases u <;> rfl) h

theorem Undefined.mul (h : Undefined x ∨ Undefined y) : Undefined (x * y) :=
  undefined_of (fun _ => rfl) (fun u => by cases u <;> rfl) h

theorem Undefined.div (h : Undefined x) (y : Float) : Undefined (x / y) :=
  undefined_of (fun _ => rfl) (fun u => by cases u <;> rfl) (.inl h)

theorem Undefined.not_isNumber (h : Undefined x) : Scalar.isNumber x = false := by
  show (!(unpacked x).isNaN) = false
  rw [show unpacked x = .notANumber from h]
  rfl

theorem Undefined.not_atMost (h : Undefined x) (y : Float) : Scalar.atMost x y = false := by
  rw [atMost_eq, show unpacked x = .notANumber from h]
  rfl

/-- A zero of either sign, or what carries a negative sign. -/
def NonPositive (x : Float) : Prop := Carries .negative (unpacked x) ∨ ∃ s, unpacked x = .zero s

theorem carries_negative_of_not_atMost (h : Scalar.atMost 0 x = false) : Carries .negative (unpacked x) := by
  have hzero : unpacked (0 : Float) = .zero .positive := rfl
  rw [atMost_eq, hzero] at h
  cases hu : unpacked x with
  | notANumber => trivial
  | zero s =>
    rw [hu] at h
    exact Bool.noConfusion h
  | infinity s =>
    rw [hu] at h
    cases s with
    | negative => rfl
    | positive => exact Bool.noConfusion h
  | finite s m e hm =>
    rw [hu] at h
    cases s with
    | negative => rfl
    | positive => exact Bool.noConfusion h

theorem nonPositive_zero : NonPositive 0 := .inr ⟨.positive, rfl⟩

/-- A zero changes nothing, but maybe the sign of another zero. -/
theorem add_zero_cases (x : Float) (hy : unpacked y = .zero t) :
    (x + y = x ∧ y + x = x) ∨ (∃ s, unpacked (x + y) = .zero s) ∧ ∃ s, unpacked (y + x) = .zero s := by
  have hself {u : UnpackedFloat} (hu : unpacked x = u) : packed u = x := hu ▸ packed_unpacked x
  rw [add_eq, add_eq, hy]
  cases hu : unpacked x with
  | notANumber => exact .inl ⟨hself hu, hself hu⟩
  | infinity s => exact .inl ⟨hself hu, hself hu⟩
  | finite s m e hm => exact .inl ⟨hself hu, hself hu⟩
  | zero s =>
    refine .inr ⟨?_, ?_⟩
    · cases s <;> cases t <;> exact ⟨_, unpacked_packed_zero _⟩
    · cases s <;> cases t <;> exact ⟨_, unpacked_packed_zero _⟩

theorem NonPositive.add (hx : NonPositive x) (hy : NonPositive y) : NonPositive (x + y) := by
  obtain hneg | ⟨s, hzero⟩ := hy
  · obtain hneg' | ⟨s, hzero⟩ := hx
    · exact .inl (hneg'.add hneg)
    · obtain ⟨-, heq⟩ | ⟨-, hsum⟩ := add_zero_cases y hzero
      · exact heq.symm ▸ .inl hneg
      · exact .inr hsum
  · obtain ⟨heq, -⟩ | ⟨hsum, -⟩ := add_zero_cases x hzero
    · exact heq.symm ▸ hx
    · exact .inr hsum

theorem NonPositive.mul_of_positive (hy : NonPositive y) (hx : Carries .positive (unpacked x)) :
    NonPositive (x * y) := by
  obtain hneg | ⟨t, hzero⟩ := hy
  · exact .inl (hx.mul hneg)
  · rw [NonPositive, mul_eq, hzero]
    cases hu : unpacked x with
    | notANumber => exact .inl (Carries.packed trivial)
    | infinity s => exact .inl (Carries.packed trivial)
    | zero s => exact .inr ⟨_, unpacked_packed_zero _⟩
    | finite s m e hm => exact .inr ⟨_, unpacked_packed_zero _⟩

/-- What is never positive does not become so by adding up. -/
theorem nonPositive_sum {xs : List Float} (h : ∀ v ∈ xs, NonPositive v) : NonPositive (Scalar.sum xs) := by
  have hfold (start : Float) (hstart : NonPositive start) : NonPositive (xs.foldl (· + ·) start) := by
    induction xs generalizing start with
    | nil => exact hstart
    | cons v xs ih =>
      exact ih (fun w hw => h w (List.mem_cons_of_mem v hw)) _ (hstart.add (h v List.mem_cons_self))
  exact hfold 0 nonPositive_zero

theorem carries_sum {xs : List Float} (h : ∀ v ∈ xs, Carries .positive (unpacked v)) :
    Carries .positive (unpacked (Scalar.sum xs)) := by
  have hfold (start : Float) (hstart : Carries .positive (unpacked start)) :
      Carries .positive (unpacked (xs.foldl (· + ·) start)) := by
    induction xs generalizing start with
    | nil => exact hstart
    | cons v xs ih =>
      exact ih (fun w hw => h w (List.mem_cons_of_mem v hw)) _ (hstart.add (h v List.mem_cons_self))
  exact hfold 0 rfl

/-- What is not above a float is not rounded to the infinity above all floats. -/
theorem Settled.not_infinite {u : UnpackedFloat} (h : Settled u) {z : Float} (hle : number u ≤ value z) :
    unpacked (packed u) ≠ .infinity .positive := by
  intro htop
  cases u with
  | infinity s => exact h.elim
  | notANumber => exact h.elim
  | zero s =>
    rw [unpacked_packed_zero] at htop
    cases htop
  | finite s m e hm =>
    have hpositive : Carries s (unpacked (packed (.finite s m e hm))) := Carries.packed rfl
    rw [htop] at hpositive
    obtain rfl : .positive = s := hpositive
    have habs : |number (.finite .positive m e hm)| ≤ |value z| := by
      rw [abs_of_nonneg (show 0 ≤ number (.finite .positive m e hm) from (magnitude_pos hm e).le)]
      exact hle.trans (le_abs_self _)
    have hfinite := h.isFinite_packed habs
    rw [isFinite_eq, htop] at hfinite
    cases hfinite

theorem Nearest.le_of_le {q r g : ℚ} (h : Nearest q r) (hg : OnGrid g) (hle : q ≤ g) : r ≤ g := by
  by_contra hlt
  have hcloser := h.le g hg
  rw [abs_of_nonneg (sub_nonneg.2 hle), abs_of_nonneg (by linarith)] at hcloser
  linarith

theorem NonPositive.value_le (h : NonPositive x) : value x ≤ 0 := by
  rw [value]
  obtain hneg | ⟨s, hzero⟩ := h
  · cases hu : unpacked x with
    | finite s m e hm =>
      rw [hu] at hneg
      obtain rfl : s = .negative := hneg
      exact neg_nonpos.2 (magnitude_pos hm e).le
    | _ => exact le_rfl
  · rw [hzero]
    exact le_rfl

theorem isNumber_of_isFinite (h : x.isFinite = true) : Scalar.isNumber x = true := by
  show (!(unpacked x).isNaN) = true
  obtain ⟨s, hu⟩ | ⟨s, m, e, hm, hu, -⟩ := finite_cases h <;> rw [hu] <;> rfl

/-- A finite float is at most finite floats and the infinity above them. -/
theorem atMost_cases (hx : x.isFinite = true) (h : Scalar.atMost x y = true) :
    y.isFinite = true ∨ unpacked y = .infinity .positive := by
  rw [atMost_eq] at h
  rw [isFinite_eq] at hx ⊢
  cases hv : unpacked y with
  | zero s => exact .inl rfl
  | finite s m e hm => exact .inl rfl
  | infinity s =>
    cases s with
    | positive => exact .inr rfl
    | negative => cases hu : unpacked x <;> simp_all [UnpackedFloat.le, UnpackedFloat.compare, UnpackedFloat.isFinite]
  | notANumber => cases hu : unpacked x <;> simp_all [UnpackedFloat.le, UnpackedFloat.compare, UnpackedFloat.isFinite]

theorem atMost_top (hx : x.isFinite = true) (hy : unpacked y = .infinity .positive) : Scalar.atMost x y = true := by
  rw [atMost_eq, hy]
  obtain ⟨s, hu⟩ | ⟨s, m, e, hm, hu, -⟩ := finite_cases hx <;> rw [hu] <;> rfl

def Lowest (u : UnpackedFloat) : Prop := u = .notANumber ∨ u = .infinity .negative

theorem Lowest.packed {u : UnpackedFloat} (h : Lowest u) : Lowest (unpacked (packed u)) := by
  obtain rfl | rfl := h
  · exact .inl rfl
  · exact .inr rfl

/-- Nothing finite is at most what is lowest. -/
theorem Lowest.not_atMost (hy : Lowest (unpacked y)) (hx : x.isFinite = true) : Scalar.atMost x y ≠ true := by
  intro h
  obtain hfinite | htop := atMost_cases hx h
  · rw [isFinite_eq] at hfinite
    obtain hv | hv := hy <;> rw [hv] at hfinite <;> cases hfinite
  · obtain hv | hv := hy <;> rw [hv] at htop <;> cases htop

theorem Lowest.add_left (hy : Lowest (unpacked y)) (hx : x.isFinite = true) : Lowest (unpacked (x + y)) := by
  rw [add_eq]
  refine Lowest.packed ?_
  obtain ⟨s, hu⟩ | ⟨s, m, e, hm, hu, -⟩ := finite_cases hx <;> rw [hu] <;> obtain hv | hv := hy <;> rw [hv]
  · exact .inl rfl
  · exact .inr rfl
  · exact .inl rfl
  · exact .inr rfl

theorem Lowest.add_nonPositive (hx : Lowest (unpacked x)) (hy : NonPositive y) : Lowest (unpacked (x + y)) := by
  rw [add_eq]
  refine Lowest.packed ?_
  obtain hu | hu := hx <;> rw [hu]
  · exact .inl rfl
  · cases hv : unpacked y with
    | notANumber => exact .inl rfl
    | zero s => exact .inr rfl
    | finite s m e hm => exact .inr rfl
    | infinity s =>
      rw [NonPositive, hv] at hy
      obtain hneg | ⟨t, hzero⟩ := hy
      · obtain rfl : s = .negative := hneg
        exact .inr rfl
      · cases hzero

theorem not_finite_cases (h : ¬x.isFinite = true) : Lowest (unpacked x) ∨ unpacked x = .infinity .positive := by
  rw [isFinite_eq] at h
  cases hu : unpacked x with
  | notANumber => exact .inl (.inl rfl)
  | infinity s =>
    cases s with
    | positive => exact .inr rfl
    | negative => exact .inl (.inr rfl)
  | zero s => exact absurd (by rw [hu]; rfl) h
  | finite s m e hm => exact absurd (by rw [hu]; rfl) h

/-- What is at most a scalar to which something not above zero was added is at most the scalar. -/
theorem atMost_of_atMost_add {a d : Float} (hx : x.isFinite = true) (hd : NonPositive d)
    (h : Scalar.atMost x (a + d) = true) : Scalar.atMost x a = true := by
  by_cases ha : a.isFinite = true
  · by_cases hfinite : d.isFinite = true
    · obtain ⟨u, hsettled, hadd, hnearest⟩ := exists_settled_add ha hfinite
      have hle : number u ≤ value a :=
        hnearest.le_of_le (onGrid_value a) (by linarith [hd.value_le])
      obtain hsum | htop := atMost_cases hx h
      · have hvalue : value (a + d) = number u := by
          rw [hadd] at hsum ⊢
          exact hsettled.value_packed hsum
        rw [atMost_iff hx hsum, hvalue] at h
        exact (atMost_iff hx ha).2 (h.trans hle)
      · rw [hadd] at htop
        exact absurd htop (hsettled.not_infinite hle)
    · obtain hlowest | htop := not_finite_cases hfinite
      · exact absurd h ((hlowest.add_left ha).not_atMost hx)
      · obtain hneg | ⟨s, hzero⟩ := hd
        · rw [htop] at hneg
          cases hneg
        · rw [htop] at hzero
          cases hzero
  · obtain hlowest | htop := not_finite_cases ha
    · exact absurd h ((hlowest.add_nonPositive hd).not_atMost hx)
    · exact atMost_top hx htop

end PackageTriage.Binary
