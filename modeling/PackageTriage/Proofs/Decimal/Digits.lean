import PackageTriage.Decimal.Reading
import PackageTriage.Decimal.Style
import Mathlib

/-!
# Digits

The digits of a number as they are written, and the number that digits stand for. A number that is not zero
begins with another digit than zero, and zeros at its end multiply what stands before them.
-/

namespace PackageTriage.Decimal

theorem digitsToNat_append (cs ds : List Char) (n : ℕ) :
    digitsToNat (cs ++ ds) n = digitsToNat ds (digitsToNat cs n) := Nat.ofDigitChars_append n

/-- Leading zeros only scale what follows them. -/
theorem digitsToNat_zeros (k n : ℕ) : digitsToNat (List.replicate k '0') n = 10 ^ k * n :=
  Nat.ofDigitChars_replicate_zero

theorem digitsToNat_toDigits (n : ℕ) : digitsToNat (Nat.toDigits 10 n) 0 = n := Nat.ofDigitChars_ten_toDigits

/-- Digits that begin without a zero, or are the one digit zero. -/
def IsWhole (cs : List Char) : Prop :=
  cs ≠ [] ∧ (∀ c ∈ cs, c.isDigit = true) ∧ (cs.head? = some '0' → cs = ['0'])

theorem isDigit_toDigits (n : ℕ) : ∀ c ∈ Nat.toDigits 10 n, c.isDigit = true :=
  fun _ hc => Nat.isDigit_of_mem_toDigits (by decide) (by decide) hc

/-- The first digit of a number is zero only if the number is. -/
theorem head_toDigits {n : ℕ} (hn : n ≠ 0) : (Nat.toDigits 10 n).head? ≠ some '0' := by
  induction n using Nat.strongRecOn with
  | ind n ih =>
    rw [Nat.toDigits_eq_if (by decide)]
    split
    · simpa using hn
    · have hdiv : n / 10 ≠ 0 := by omega
      rw [List.head?_append_of_ne_nil _ Nat.toDigits_ne_nil]
      exact ih (n / 10) (by omega) hdiv

theorem isWhole_toDigits (n : ℕ) : IsWhole (Nat.toDigits 10 n) := by
  refine ⟨Nat.toDigits_ne_nil, isDigit_toDigits n, fun hhead => ?_⟩
  by_cases hn : n = 0
  · rw [hn, Nat.toDigits_zero]
  · exact absurd hhead (head_toDigits hn)

theorem isWhole_zero : IsWhole ['0'] := isWhole_toDigits 0

theorem toNat_digit {c : Char} (hc : c.isDigit = true) : 48 ≤ c.toNat ∧ c.toNat ≤ 57 := by
  rw [Char.isDigit, Bool.and_eq_true, decide_eq_true_eq, decide_eq_true_eq, ge_iff_le, UInt32.le_iff_toNat_le,
    UInt32.le_iff_toNat_le] at hc
  exact hc

theorem digitChar_toNat {c : Char} (hc : c.isDigit = true) : Nat.digitChar (c.toNat - '0'.toNat) = c := by
  have hchars : ∀ d < 10, Nat.digitChar d = Char.ofNat (48 + d) := by decide
  obtain ⟨hlow, hhigh⟩ := toNat_digit hc
  have hback : 48 + (c.toNat - '0'.toNat) = c.toNat := Nat.add_sub_cancel' hlow
  rw [hchars _ (by omega), hback, Char.ofNat_toNat]

/-- A digit sequence that stands for a positive number: it begins with no zero. -/
structure Proper (ds : List ℕ) : Prop where
  ne_nil : ds ≠ []
  lt : ∀ d ∈ ds, d < 10
  head : ds.head? ≠ some 0

theorem digitChars_digitsOf (n : ℕ) : digitChars (digitsOf n) = Nat.toDigits 10 n := by
  rw [digitChars, digitsOf, List.map_map]
  exact (List.map_congr_left fun c hc => digitChar_toNat (isDigit_toDigits n c hc)).trans (List.map_id _)

theorem proper_digitsOf {n : ℕ} (hn : n ≠ 0) : Proper (digitsOf n) where
  ne_nil := by simp [digitsOf]
  lt d hd := by
    obtain ⟨c, hc, rfl⟩ := List.mem_map.1 hd
    obtain ⟨hlow, hhigh⟩ := toNat_digit (isDigit_toDigits n c hc)
    show c.toNat - 48 < 10
    omega
  head h := by
    rw [digitsOf, List.head?_map, Option.map_eq_some_iff] at h
    obtain ⟨c, hc, hzero⟩ := h
    refine head_toDigits hn (hc.trans (congrArg some ?_))
    rw [← digitChar_toNat (isDigit_toDigits n c (List.mem_of_head? hc)), hzero]
    rfl

theorem isDigit_digitChars {ds : List ℕ} (h : ∀ d ∈ ds, d < 10) : ∀ c ∈ digitChars ds, c.isDigit = true := by
  intro c hc
  obtain ⟨d, hd, rfl⟩ := List.mem_map.1 hc
  rw [Nat.isDigit_digitChar, decide_eq_true_eq]
  exact h d hd

theorem length_digitChars (ds : List ℕ) : (digitChars ds).length = ds.length := List.length_map _

/-- Proper digits are written without a zero in front. -/
theorem Proper.head_digitChars {ds : List ℕ} (h : Proper ds) : (digitChars ds).head? ≠ some '0' := by
  intro hhead
  rw [digitChars, List.head?_map, Option.map_eq_some_iff] at hhead
  obtain ⟨d, hd, hchar⟩ := hhead
  have hzero : ∀ d < 10, Nat.digitChar d = '0' → d = 0 := by decide
  exact h.head (hd.trans (congrArg some (hzero d (h.lt d (List.mem_of_head? hd)) hchar)))

/-- Dropping the zeros at the end and writing them again changes nothing. -/
theorem dropTrailingZeros_append (ds : List ℕ) :
    dropTrailingZeros ds ++ List.replicate (ds.length - (dropTrailingZeros ds).length) 0 = ds := by
  have hsplit := @List.takeWhile_append_dropWhile _ (· == 0) ds.reverse
  have hzeros : ds.reverse.takeWhile (· == 0) =
      List.replicate (ds.length - (dropTrailingZeros ds).length) 0 := by
    refine List.eq_replicate_iff.2 ⟨?_, fun d hd => by simpa using List.mem_takeWhile_imp hd⟩
    have hlength := congrArg List.length hsplit
    rw [List.length_append, List.length_reverse] at hlength
    rw [dropTrailingZeros, List.length_reverse]
    omega
  have hreverse := congrArg List.reverse hsplit
  rw [List.reverse_append, hzeros, List.reverse_replicate, List.reverse_reverse] at hreverse
  exact hreverse

theorem Proper.dropTrailingZeros {ds : List ℕ} (h : Proper ds) : Proper (dropTrailingZeros ds) := by
  have happend := dropTrailingZeros_append ds
  have hne : Decimal.dropTrailingZeros ds ≠ [] := by
    intro hnil
    rw [hnil, List.nil_append, List.length_nil, Nat.sub_zero] at happend
    refine h.head ?_
    rw [← happend, List.head?_replicate, if_neg (by simpa using h.ne_nil)]
  refine ⟨hne, fun d hd => h.lt d ?_, fun hhead => h.head ?_⟩
  · rw [← happend]
    exact List.mem_append_left _ hd
  · rw [← happend, List.head?_append_of_ne_nil _ hne]
    exact hhead

def coefficient (d : Decimal) : ℕ := digitsToNat (digitChars d.digits) 0

def unit (d : Decimal) : ℤ := d.exponent + 1 - d.digits.length

def value (d : Decimal) : ℚ := d.coefficient * 10 ^ d.unit

theorem value_ofScaled (n : ℕ) (u : ℤ) : (ofScaled n u).value = n * 10 ^ u := by
  have hunit : (ofScaled n u).unit = u := by
    show u + (digitsOf n).length - 1 + 1 - (digitsOf n).length = u
    omega
  rw [value, hunit, coefficient, ofScaled, digitChars_digitsOf, digitsToNat_toDigits]

theorem value_dropTrailingZeros (d : Decimal) :
    value { d with digits := dropTrailingZeros d.digits } = d.value := by
  obtain ⟨ds, exponent⟩ := d
  have happend := dropTrailingZeros_append ds
  set k := ds.length - (dropTrailingZeros ds).length with hk
  have hlength := congrArg List.length happend
  rw [List.length_append, List.length_replicate] at hlength
  have hcoefficient : (coefficient ⟨ds, exponent⟩ : ℚ) =
      10 ^ k * coefficient ⟨dropTrailingZeros ds, exponent⟩ := by
    have hnat : coefficient ⟨ds, exponent⟩ = 10 ^ k * coefficient ⟨dropTrailingZeros ds, exponent⟩ := by
      have hchars : digitChars ds = digitChars (dropTrailingZeros ds) ++ List.replicate k '0' := by
        conv_lhs => rw [← happend, digitChars, List.map_append, List.map_replicate]
        rfl
      rw [coefficient, hchars, digitsToNat_append, digitsToNat_zeros]
      rfl
    exact_mod_cast hnat
  have hunit : unit ⟨dropTrailingZeros ds, exponent⟩ = k + unit ⟨ds, exponent⟩ := by
    simp only [unit]
    omega
  rw [value, value, hcoefficient, hunit, zpow_add₀ (by norm_num), zpow_natCast]
  ring

end PackageTriage.Decimal
