import PackageTriage.Proofs.Decimal.ReadBack
import PackageTriage.Proofs.Json.Pieces

/-!
# Numbers that are read back

Whether a float survives a file depends on the reader of numbers. The quick reader rounds only once, and so is exact,
where all digits together make a number below `2 ^ 53` and the power of ten behind them is at most the twenty-second.
-/

namespace PackageTriage.Json

open Decimal
open Float.Model.UnpackedFloat (Sign)

theorem le_digitsToNat (ds : List Char) (n : ℕ) : n ≤ digitsToNat ds n := by
  induction ds generalizing n with
  | nil => exact le_rfl
  | cons d ds ih => exact le_trans (by omega) (ih (10 * n + (d.toNat - '0'.toNat)))

/-- Digits are all collected if the number that they make fits into 64 bits. -/
theorem collect_eq {ds : List Char} {n : ℕ} (h : digitsToNat ds n < 2 ^ 64) :
    collect n ds = (digitsToNat ds n, []) := by
  induction ds generalizing n with
  | nil => rfl
  | cons d ds ih =>
    have hlonger : 10 * n + (d.toNat - '0'.toNat) < Nat.pow 2 64 := (le_digitsToNat ds _).trans_lt h
    rw [collect, if_pos hlonger]
    exact ih h

/-- A numeral whose digits are all collected is scaled by its power of ten. -/
theorem readMagnitude_eq_scale (p : Numeral) (hp : p.significand < 2 ^ 64) :
    readMagnitude p.chars = scale (nearest p.significand 0) p.scale := by
  have hwhole : collect 0 p.whole = (digitsToNat p.whole 0, []) :=
    collect_eq ((le_digitsToNat p.fraction _).trans_lt hp)
  have hfraction : collect (digitsToNat p.whole 0) p.fraction = (p.significand, []) := collect_eq hp
  have hexponent := readExponent_eq p.isPower
  rw [readMagnitude, p.spanDigits_chars]
  dsimp only
  rw [hwhole, Numeral.scale]
  cases hcases : p.fraction with
  | nil =>
    rw [hcases] at hfraction
    rw [pointed, List.nil_append]
    -- the text goes on with nothing or with an `e`, and not with a point either way
    rcases p.isPower.nil_or_cons with hnone | ⟨cs, hsome⟩
    · rw [hnone] at hexponent ⊢
      simp [hfraction, hexponent]
    · rw [hsome] at hexponent ⊢
      simp [hfraction, hexponent]
  | cons d ds =>
    have hspan : spanDigits (d :: (ds ++ p.exponent)) = (d :: ds, p.exponent) :=
      spanDigits_append (hcases ▸ p.isDigit) p.isPower.endsDigits
    rw [hcases] at hfraction
    simp [pointed, hspan, hfraction, hexponent]

/-- Only one rounding is left for digits below `2 ^ 53` and a power of ten that is a float. -/
theorem scale_short {n : ℕ} (hn : n < 2 ^ 53) {k : ℤ} (hk : k.natAbs ≤ 22) :
    scale (nearest n 0) k = some (nearest n k) := by
  cases k with
  | ofNat k =>
    have hk' : k ≤ 22 := hk
    rw [scale, if_pos (hk'.trans (by decide)), power, Int.ofNat_eq_natCast, nearest_short hn hk']
  | negSucc k =>
    have hk' : k + 1 ≤ 22 := hk
    have hlt : k < greatestPower := Nat.lt_of_lt_of_le hk' (by decide)
    rw [scale, Nat.div_eq_of_lt hlt, Nat.mod_eq_of_lt hlt, lower, power, nearest_short_negSucc hn hk']

/-- The quick reader is exact where the digits make a number below `2 ^ 53` and the power of ten is small. -/
theorem readQuickly_short (s : Sign) {p : Numeral} (hp : p.significand < 2 ^ 53)
    (hscale : p.scale.natAbs ≤ 22) : readQuickly (NumberStyle.signed s (String.ofList p.chars)) =
      some (NumberStyle.withSign s (nearest p.significand p.scale)) := by
  have hread := readMagnitude_eq_scale p (hp.trans (by decide))
  rw [scale_short hp hscale] at hread
  rw [readQuickly, toList_signed]
  cases s with
  | negative => exact congrArg (Option.map (- ·)) hread
  | positive =>
    obtain ⟨c, cs, hchars, hc⟩ := p.chars_eq_cons
    have hminus : c ≠ '-' := by rintro rfl; exact absurd hc (by decide)
    rw [signedChars]
    split
    · next heq => rw [hchars] at heq; exact absurd (List.cons.inj heq).1 hminus
    · exact hread

theorem readable_settings : NumberStyle.settings.Readable := .inr rfl

/-- The number that is written for a float, where there is one, is read as that float. -/
def ReadsBack [NumberReader] (x : Float) : Prop :=
  x.isFinite = true → NumberReader.read (NumberStyle.settings.render x) = some x

instance [NumberReader] (x : Float) : Decidable (ReadsBack x) := inferInstanceAs (Decidable (_ → _))

/-- What is written in short is read back by the quick reader. -/
theorem readsBack_of_short {x : Float} {s : Sign} {p : Numeral}
    (hx : NumberStyle.settings.render x = NumberStyle.signed s (String.ofList p.chars))
    (hp : p.significand < 2 ^ 53) (hscale : p.scale.natAbs ≤ 22) : ReadsBack x := by
  intro hfinite
  have hread := NumberStyle.readFloat?_render readable_settings hfinite
  rw [hx, NumberStyle.readFloat?_signed] at hread
  rw [hx, ← hread]
  exact readQuickly_short s hp hscale

/-- Other floats may be missed. -/
example : ReadsBack (nearest 1 (-9)) ∧ ¬ ReadsBack (nearest 1 (-25)) := by decide +kernel

end PackageTriage.Json
