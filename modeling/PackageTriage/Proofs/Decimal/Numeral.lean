import PackageTriage.Proofs.Decimal.Digits

/-!
# Numerals

A number without its sign in its parts: the whole digits, the digits behind the point and the power of ten. A
numeral is read as the decimal that its parts stand for.
-/

namespace PackageTriage.Decimal

/-- The ways a power of ten ends a number. -/
inductive IsPower : List Char → ℤ → Prop
  | none : IsPower [] 0
  | plain (ds : List Char) : ds ≠ [] → (∀ c ∈ ds, c.isDigit = true) → IsPower ('e' :: ds) (digitsToNat ds 0)
  | plus (ds : List Char) : ds ≠ [] → (∀ c ∈ ds, c.isDigit = true) → IsPower ('e' :: '+' :: ds) (digitsToNat ds 0)
  | minus (ds : List Char) : ds ≠ [] → (∀ c ∈ ds, c.isDigit = true) →
      IsPower ('e' :: '-' :: ds) (-(digitsToNat ds 0 : ℤ))

structure Numeral where
  whole : List Char
  isWhole : IsWhole whole
  /-- The digits behind the point, which is not written without any. -/
  fraction : List Char
  isDigit : ∀ c ∈ fraction, c.isDigit = true
  /-- The end of the text, from its `e` on. -/
  exponent : List Char
  power : ℤ
  isPower : IsPower exponent power

def pointed : List Char → List Char
  | [] => []
  | ds => '.' :: ds

namespace Numeral

def chars (p : Numeral) : List Char := p.whole ++ (pointed p.fraction ++ p.exponent)

def significand (p : Numeral) : ℕ := digitsToNat p.fraction (digitsToNat p.whole 0)

def scale (p : Numeral) : ℤ := p.power - p.fraction.length

def value (p : Numeral) : ℚ := p.significand * 10 ^ p.scale

theorem chars_eq_cons (p : Numeral) : ∃ c cs, p.chars = c :: cs ∧ c.isDigit = true := by
  obtain ⟨hne, hdigits, -⟩ := p.isWhole
  obtain ⟨c, cs, hwhole⟩ := List.exists_cons_of_ne_nil hne
  refine ⟨c, cs ++ (pointed p.fraction ++ p.exponent), ?_, hdigits c (by rw [hwhole]; exact List.mem_cons_self)⟩
  rw [chars, hwhole, List.cons_append]

end Numeral

/-- What follows digits does not go on with one. -/
def EndsDigits (rest : List Char) : Prop := ∀ c, rest.head? = some c → c.isDigit = false

theorem spanDigits_append {ds rest : List Char} (hds : ∀ c ∈ ds, c.isDigit = true) (hrest : EndsDigits rest) :
    spanDigits (ds ++ rest) = (ds, rest) := by
  rw [spanDigits, List.span_eq_takeWhile_dropWhile, List.takeWhile_append_of_pos hds,
    List.dropWhile_append_of_pos hds]
  cases rest with
  | nil => rw [List.takeWhile_nil, List.dropWhile_nil, List.append_nil]
  | cons c cs =>
    have hc : ¬ c.isDigit = true := by rw [hrest c rfl]; exact Bool.false_ne_true
    rw [List.takeWhile_cons_of_neg hc, List.dropWhile_cons_of_neg hc, List.append_nil]

theorem readExponent_eq {cs : List Char} {k : ℤ} (h : IsPower cs k) : readExponent cs = some k := by
  cases h with
  | none => rfl
  | plain ds hne hds =>
    obtain ⟨c, cs, rfl⟩ := List.exists_cons_of_ne_nil hne
    have hc := hds c List.mem_cons_self
    have hplus : c ≠ '+' := by rintro rfl; exact absurd hc (by decide)
    have hminus : c ≠ '-' := by rintro rfl; exact absurd hc (by decide)
    have hall : (c :: cs).all Char.isDigit = true := List.all_eq_true.2 hds
    simp only [readExponent, true_or, ↓reduceIte]
    split
    · next heq => exact absurd (List.cons.inj heq).1 hminus
    · next heq => exact absurd (List.cons.inj heq).1 hplus
    · simp [hall]
  | plus ds hne hds =>
    have hall : ds.all Char.isDigit = true := List.all_eq_true.2 hds
    simp [readExponent, hall, hne]
  | minus ds hne hds =>
    have hall : ds.all Char.isDigit = true := List.all_eq_true.2 hds
    simp [readExponent, hall, hne]

theorem IsPower.nil_or_cons {cs : List Char} {k : ℤ} (h : IsPower cs k) : cs = [] ∨ ∃ ds, cs = 'e' :: ds := by
  cases h with
  | none => exact .inl rfl
  | plain | plus | minus => exact .inr ⟨_, rfl⟩

theorem IsPower.endsDigits {cs : List Char} {k : ℤ} (h : IsPower cs k) : EndsDigits cs := by
  intro c hc
  obtain rfl | ⟨ds, rfl⟩ := h.nil_or_cons
  · simp at hc
  · obtain rfl := Option.some.inj hc
    decide

/-- A text that begins with a digit is none of the words. -/
theorem word_ne {c : Char} {cs : List Char} (hc : c.isDigit = true) {w : Char} {ws : List Char}
    (hw : w.isDigit = false) : String.ofList ((c :: cs).map Char.toLower) ≠ String.ofList (w :: ws) := by
  intro heq
  have hlower : c.toLower = c := by
    refine Char.toLower_eq_of_not_isUpper fun hupper => ?_
    obtain ⟨-, hhigh⟩ := toNat_digit hc
    rw [Char.isUpper, decide_eq_true_eq, ge_iff_le, UInt32.le_iff_toNat_le] at hupper
    have hlow : 65 ≤ c.toNat := hupper.1
    omega
  have hlist := String.ofList_injective heq
  rw [List.map_cons, hlower] at hlist
  rw [(List.cons.inj hlist).1, hw] at hc
  exact Bool.false_ne_true hc

/-- The whole digits end where the point or the power begins. -/
theorem Numeral.spanDigits_chars (p : Numeral) :
    spanDigits p.chars = (p.whole, pointed p.fraction ++ p.exponent) := by
  refine spanDigits_append p.isWhole.2.1 ?_
  cases p.fraction with
  | nil => exact p.isPower.endsDigits
  | cons d ds =>
    intro c hc
    obtain rfl := Option.some.inj hc
    decide

/-- A numeral is read as the nearest float to its decimal. -/
theorem readMagnitude_chars (p : Numeral) : readMagnitude p.chars = some (nearest p.significand p.scale) := by
  obtain ⟨c, cs, hchars, hc⟩ := p.chars_eq_cons
  have hwords : ∀ {w : Char} {ws : List Char}, w.isDigit = false →
      String.ofList (p.chars.map Char.toLower) ≠ String.ofList (w :: ws) := by
    intro w ws hw
    rw [hchars]
    exact word_ne hc hw
  have hinf : ¬ (String.ofList (p.chars.map Char.toLower) = "inf" ∨
      String.ofList (p.chars.map Char.toLower) = "infinity") :=
    not_or.2 ⟨hwords (by decide), hwords (by decide)⟩
  have hnan : ¬ String.ofList (p.chars.map Char.toLower) = "nan" := hwords (by decide)
  have hne : p.whole.isEmpty = false := by simpa using p.isWhole.1
  rw [readMagnitude]
  dsimp only
  rw [if_neg hinf, if_neg hnan, p.spanDigits_chars]
  dsimp only
  rw [hne, Bool.false_and, if_neg Bool.false_ne_true, Numeral.significand, Numeral.scale]
  have hread := readExponent_eq p.isPower
  cases hfraction : p.fraction with
  | nil =>
    rw [pointed, List.nil_append]
    rcases p.isPower.nil_or_cons with hexponent | ⟨cs, hexponent⟩ <;> rw [hexponent] at hread ⊢ <;>
      exact congrArg (Option.map _) hread
  | cons d ds =>
    have hspan : spanDigits (d :: ds ++ p.exponent) = (d :: ds, p.exponent) :=
      spanDigits_append (hfraction ▸ p.isDigit) p.isPower.endsDigits
    rw [show pointed (d :: ds) ++ p.exponent = '.' :: (d :: ds ++ p.exponent) from rfl]
    simp only [hspan, hread]
    rfl

end PackageTriage.Decimal
