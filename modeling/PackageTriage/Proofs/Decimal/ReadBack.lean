import PackageTriage.Proofs.Decimal.Nearest
import PackageTriage.Proofs.Decimal.Numeral
import PackageTriage.Proofs.Decimal.Shortest

/-!
# Floats are read back

Every finite float is read back from what is written for it, in each style. The text of a decimal is a numeral
of the same value, and the shortest decimal of a float is rounded to that float.
-/

namespace PackageTriage

open Float.Model UnpackedFloat
open Binary hiding nearest

namespace Decimal

variable {d : Decimal}

theorem isPower_exponent (e : ℤ) (plus : Bool) :
    IsPower ('e' :: ((if plus ∧ 0 ≤ e then "+" else "").toList ++ (toString e).toList)) e := by
  have hdigits (n : ℕ) := isDigit_toDigits n
  have hne (n : ℕ) : Nat.toDigits 10 n ≠ [] := Nat.toDigits_ne_nil
  have hvalue (n : ℕ) := digitsToNat_toDigits n
  cases e with
  | ofNat n =>
    have htext : (toString (Int.ofNat n)).toList = Nat.toDigits 10 n := Nat.toList_repr
    have hplus := IsPower.plus _ (hne n) (hdigits n)
    have hplain := IsPower.plain _ (hne n) (hdigits n)
    rw [hvalue] at hplus hplain
    rw [htext]
    split
    · exact hplus
    · exact hplain
  | negSucc n =>
    have htext : (toString (Int.negSucc n)).toList = '-' :: Nat.toDigits 10 (n + 1) := by
      show ("-" ++ (n + 1).repr).toList = _
      rw [String.toList_append, Nat.toList_repr]
      rfl
    have hnegative : ¬ (plus = true ∧ 0 ≤ Int.negSucc n) := fun h => absurd h.2 (by omega)
    rw [htext, if_neg hnegative]
    have hpower := IsPower.minus _ (hne (n + 1)) (hdigits (n + 1))
    rwa [hvalue] at hpower

theorem isWhole_of_head {cs : List Char} (hne : cs ≠ []) (hdigits : ∀ c ∈ cs, c.isDigit = true)
    (hhead : cs.head? ≠ some '0') : IsWhole cs := ⟨hne, hdigits, fun h => absurd h hhead⟩

theorem digitsToNat_digits {cs ds : List Char} (h : digitChars d.digits = cs ++ ds) :
    digitsToNat ds (digitsToNat cs 0) = d.coefficient := by
  rw [← digitsToNat_append, ← h, coefficient]

theorem exists_numeral_scientific (hd : Proper d.digits) (plus : Bool) :
    ∃ p : Numeral, (d.scientific plus).toList = p.chars ∧ p.value = d.value := by
  obtain ⟨first, rest, hdigits⟩ := List.exists_cons_of_ne_nil hd.ne_nil
  have hall := isDigit_digitChars hd.lt
  have hhead := hd.head_digitChars
  have hsplit : digitChars d.digits = [Nat.digitChar first] ++ digitChars rest := by rw [hdigits]; rfl
  rw [hsplit] at hall hhead
  refine ⟨⟨[Nat.digitChar first], isWhole_of_head (by simp) (fun c hc => hall c (List.mem_append_left _ hc)) hhead,
    digitChars rest, fun c hc => hall c (List.mem_append_right _ hc), _, _, isPower_exponent d.exponent plus⟩, ?_, ?_⟩
  · rw [scientific, hdigits]
    cases rest with
    | nil => simp [Numeral.chars, pointed, digitChars]
    | cons second rest => simp [Numeral.chars, pointed, digitChars]
  · have hlength : d.digits.length = rest.length + 1 := by rw [hdigits, List.length_cons]
    have hunit : d.exponent - rest.length = d.unit := by
      rw [unit]
      omega
    rw [Numeral.value, Numeral.significand, Numeral.scale, digitsToNat_digits hsplit, length_digitChars, hunit, value]

/-- The digits from some place on, with zeros before the first one. -/
theorem exists_numeral_small (hd : Proper d.digits) (hexponent : d.exponent < 0) (whole : String) :
    ∃ p : Numeral, (d.positional whole).toList = p.chars ∧ p.value = d.value := by
  set zeros := List.replicate ((-d.exponent).toNat - 1) '0'
  have hdigits : ∀ c ∈ zeros ++ digitChars d.digits, c.isDigit = true := by
    intro c hc
    rcases List.mem_append.1 hc with hc | hc
    · rw [List.eq_of_mem_replicate hc]
      decide
    · exact isDigit_digitChars hd.lt c hc
  have hne : zeros ++ digitChars d.digits ≠ [] := by
    have := hd.ne_nil
    simp [digitChars, this]
  refine ⟨⟨['0'], isWhole_zero, zeros ++ digitChars d.digits, hdigits, _, _, .none⟩, ?_, ?_⟩
  · rw [positional, if_pos hexponent, Numeral.chars]
    obtain ⟨c, cs, hcons⟩ := List.exists_cons_of_ne_nil hne
    dsimp only
    rw [String.toList_append, String.toList_ofList, hcons]
    simp [pointed]
  · have hzeros : digitsToNat zeros 0 = 0 := by rw [digitsToNat_zeros, mul_zero]
    have hunit : (0 : ℤ) - (zeros ++ digitChars d.digits).length = d.unit := by
      rw [List.length_append, List.length_replicate, length_digitChars, unit]
      omega
    have hnat : digitsToNat (zeros ++ digitChars d.digits) (digitsToNat ['0'] 0) = d.coefficient := by
      rw [digitsToNat_append]
      exact congrArg (digitsToNat (digitChars d.digits)) hzeros
    rw [Numeral.value, Numeral.significand, Numeral.scale, hnat, hunit, value]

/-- All digits before the point, with zeros behind the last one. -/
theorem exists_numeral_whole (hd : Proper d.digits) (hexponent : 0 ≤ d.exponent)
    (hlength : d.digits.length ≤ d.exponent.toNat + 1) {whole : String} (hwhole : whole = "" ∨ whole = ".0") :
    ∃ p : Numeral, (d.positional whole).toList = p.chars ∧ p.value = d.value := by
  set k := d.exponent.toNat + 1 - d.digits.length with hk
  set cs := digitChars d.digits ++ List.replicate k '0' with hcs
  have hdigits : ∀ c ∈ cs, c.isDigit = true := by
    intro c hc
    rcases List.mem_append.1 hc with hc | hc
    · exact isDigit_digitChars hd.lt c hc
    · rw [List.eq_of_mem_replicate hc]
      decide
  have hne : digitChars d.digits ≠ [] := by simpa [digitChars] using hd.ne_nil
  have hIsWhole : IsWhole cs := by
    refine isWhole_of_head (by simp [hcs, hne]) hdigits ?_
    rw [hcs, List.head?_append_of_ne_nil _ hne]
    exact hd.head_digitChars
  have htext : d.positional whole = String.ofList cs ++ whole := by
    rw [positional, if_neg (not_lt.2 hexponent)]
    dsimp only
    rw [length_digitChars, if_pos hlength]
  have hnat : digitsToNat cs 0 = 10 ^ k * d.coefficient := by
    rw [hcs, digitsToNat_append, digitsToNat_zeros, coefficient]
  have hunit : d.unit = k := by
    rw [unit]
    omega
  have hvalue : d.value = 10 ^ k * d.coefficient := by rw [value, hunit, zpow_natCast, mul_comm]
  rcases hwhole with rfl | rfl
  · refine ⟨⟨cs, hIsWhole, [], by simp, _, _, .none⟩, ?_, ?_⟩
    · simp [htext, Numeral.chars, pointed]
    · rw [hvalue, Numeral.value, Numeral.significand, Numeral.scale]
      show ((digitsToNat cs 0 : ℕ) : ℚ) * 10 ^ (0 : ℤ) = _
      rw [hnat]
      push_cast
      ring
  · refine ⟨⟨cs, hIsWhole, ['0'], isWhole_zero.2.1, _, _, .none⟩, ?_, ?_⟩
    · simp [htext, Numeral.chars, pointed]
    · rw [hvalue, Numeral.value, Numeral.significand, Numeral.scale]
      show ((10 * digitsToNat cs 0 + 0 : ℕ) : ℚ) * 10 ^ (-1 : ℤ) = _
      rw [hnat, zpow_neg_one]
      push_cast
      ring

/-- Some digits before the point and some behind it. -/
theorem exists_numeral_split (hd : Proper d.digits) (hexponent : 0 ≤ d.exponent)
    (hlength : d.exponent.toNat + 1 < d.digits.length) (whole : String) :
    ∃ p : Numeral, (d.positional whole).toList = p.chars ∧ p.value = d.value := by
  set count := d.exponent.toNat + 1 with hcount
  have hall := isDigit_digitChars hd.lt
  have hsplit : digitChars d.digits = (digitChars d.digits).take count ++ (digitChars d.digits).drop count :=
    (List.take_append_drop _ _).symm
  have htext : d.positional whole = String.ofList ((digitChars d.digits).take count) ++ "." ++
      String.ofList ((digitChars d.digits).drop count) := by
    rw [positional, if_neg (not_lt.2 hexponent)]
    dsimp only
    rw [length_digitChars, if_neg (not_le.2 hlength)]
  have hhead : ((digitChars d.digits).take count).head? ≠ some '0' := by
    rw [List.head?_take, if_neg (by omega)]
    exact hd.head_digitChars
  have htake : (digitChars d.digits).take count ≠ [] := by
    rw [ne_eq, ← List.length_eq_zero_iff, List.length_take, length_digitChars]
    omega
  have hdrop : (digitChars d.digits).drop count ≠ [] := by
    rw [ne_eq, ← List.length_eq_zero_iff, List.length_drop, length_digitChars]
    omega
  refine ⟨⟨_, isWhole_of_head htake (fun c hc => hall c (List.mem_of_mem_take hc)) hhead,
    (digitChars d.digits).drop count, fun c hc => hall c (List.mem_of_mem_drop hc), _, _, .none⟩, ?_, ?_⟩
  · obtain ⟨c, cs, hcons⟩ := List.exists_cons_of_ne_nil hdrop
    rw [htext, Numeral.chars]
    dsimp only
    rw [hcons]
    simp [pointed]
  · have hunit : (0 : ℤ) - ((digitChars d.digits).drop count).length = d.unit := by
      rw [List.length_drop, length_digitChars, unit]
      omega
    rw [Numeral.value, Numeral.significand, Numeral.scale, digitsToNat_digits hsplit, hunit, value]

end Decimal

namespace NumberStyle

open Decimal

/-- What follows a whole number may be read as a fraction. -/
def Readable (style : NumberStyle) : Prop := style.whole = "" ∨ style.whole = ".0"

def write (style : NumberStyle) (d : Decimal) : String :=
  if style.isPositional d.exponent then d.positional style.whole else d.scientific style.plus

/-- Both readable styles write a numeral with the value of the decimal. -/
theorem exists_numeral {style : NumberStyle} (hstyle : style.Readable) {d : Decimal} (hd : Proper d.digits) :
    ∃ p : Numeral, (style.write d).toList = p.chars ∧ p.value = d.value := by
  rw [write]
  split
  · by_cases hexponent : d.exponent < 0
    · exact exists_numeral_small hd hexponent style.whole
    · rw [not_lt] at hexponent
      by_cases hlength : d.digits.length ≤ d.exponent.toNat + 1
      · exact exists_numeral_whole hd hexponent hlength hstyle
      · exact exists_numeral_split hd hexponent (not_le.1 hlength) style.whole
  · exact exists_numeral_scientific hd style.plus

theorem exists_numeral_zero {style : NumberStyle} (hstyle : style.Readable) :
    ∃ p : Numeral, (style.write ⟨[0], 0⟩).toList = p.chars ∧ p.significand = 0 := by
  rw [write]
  split
  · rcases hstyle with h | h <;> rw [h]
    · exact ⟨⟨['0'], isWhole_zero, [], by simp, _, _, .none⟩, rfl, rfl⟩
    · exact ⟨⟨['0'], isWhole_zero, ['0'], isWhole_zero.2.1, _, _, .none⟩, rfl, rfl⟩
  · cases hplus : style.plus
    · exact ⟨⟨['0'], isWhole_zero, [], by simp, _, _, .plain ['0'] isWhole_zero.1 isWhole_zero.2.1⟩, rfl, rfl⟩
    · exact ⟨⟨['0'], isWhole_zero, [], by simp, _, _, .plus ['0'] isWhole_zero.1 isWhole_zero.2.1⟩, rfl, rfl⟩

/-- A float with the sign that is written in front of it. -/
def withSign : Sign → Float → Float
  | .negative, x => -x
  | .positive, x => x

/-- A finite float is written as a numeral with a sign, which stands for that float. -/
theorem render_eq {style : NumberStyle} (hstyle : style.Readable) {x : Float} (hx : x.isFinite = true) :
    ∃ (s : Sign) (p : Numeral), style.render x = signed s (String.ofList p.chars) ∧
      withSign s (nearest p.significand p.scale) = x := by
  rw [isFinite_eq] at hx
  have hpacked := packed_unpacked x
  cases hunpacked : unpacked x with
  | notANumber | infinity s =>
    rw [hunpacked] at hx
    simp [UnpackedFloat.isFinite] at hx
  | zero s =>
    have hrender : style.render x = signed s (style.write ⟨[0], 0⟩) := by rw [render, ← unpacked, hunpacked]; rfl
    obtain ⟨p, hchars, hsignificand⟩ := exists_numeral_zero hstyle
    refine ⟨s, p, by rw [hrender, ← hchars, String.ofList_toList], ?_⟩
    rw [hsignificand, nearest_zero, ← hpacked, hunpacked]
    cases s <;> rfl
  | finite s m e hm =>
    have hrender : style.render x = signed s (style.write (shortest style.tie m e)) := by
      rw [render, ← unpacked, hunpacked]
      rfl
    have hc := canonical_of_unpacked hunpacked
    obtain ⟨hproper, hsurrounds⟩ := shortest_spec style.tie hc
    obtain ⟨p, hchars, hvalue⟩ := exists_numeral hstyle hproper
    refine ⟨s, p, by rw [hrender, ← hchars, String.ofList_toList], ?_⟩
    rw [← hvalue] at hsurrounds
    have hpos : 0 < p.significand := by
      refine Nat.pos_of_ne_zero fun hzero => ?_
      have hpositive := hsurrounds.pos hm
      rw [Numeral.value, hzero, Nat.cast_zero, zero_mul] at hpositive
      exact hpositive.false
    rw [nearest_eq hc hpos hsurrounds, ← hpacked, hunpacked]
    cases s with
    | positive => rfl
    | negative =>
      rw [withSign, neg_eq, unpacked_packed_finite .positive hc]
      rfl

/-- What is read is the nearest float of the numeral, with its sign. -/
theorem readFloat?_signed (s : Sign) (p : Numeral) :
    readFloat? (signed s (String.ofList p.chars)) = some (withSign s (nearest p.significand p.scale)) := by
  cases s with
  | positive =>
    obtain ⟨c, cs, hchars, hc⟩ := p.chars_eq_cons
    have hminus : c ≠ '-' := by rintro rfl; exact absurd hc (by decide)
    have hplus : c ≠ '+' := by rintro rfl; exact absurd hc (by decide)
    have hread := readMagnitude_chars p
    rw [readFloat?, signed, String.toList_ofList]
    split
    · next heq => exact absurd (List.cons.inj (hchars.symm.trans heq)).1 hminus
    · next heq => exact absurd (List.cons.inj (hchars.symm.trans heq)).1 hplus
    · exact hread
  | negative =>
    have htext : (signed .negative (String.ofList p.chars)).toList = '-' :: p.chars := by simp [signed]
    rw [readFloat?, htext]
    exact congrArg (Option.map _) (readMagnitude_chars p)

/-- A finite float is read back from its text. -/
theorem readFloat?_render {style : NumberStyle} (hstyle : style.Readable) {x : Float} (hx : x.isFinite = true) :
    readFloat? (style.render x) = some x := by
  obtain ⟨s, p, hrender, hvalue⟩ := render_eq hstyle hx
  rw [hrender, readFloat?_signed, hvalue]

end NumberStyle

end PackageTriage
