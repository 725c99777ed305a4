import PackageTriage.Json.Reading
import PackageTriage.Json.Writing
import PackageTriage.Proofs.Decimal.Numeral

/-!
# Numbers and texts in JSON

A numeral with its sign is read up to whatever may follow a number, and the characters between two quotes are
read as the text that they were written for.
-/

namespace PackageTriage.Json

open Decimal
open Float.Model.UnpackedFloat (Sign)

variable {blanks cs rest : List Char}

theorem skipSpaces_append (hblanks : ∀ c ∈ blanks, isSpace c = true) (cs : List Char) :
    skipSpaces (blanks ++ cs) = skipSpaces cs := List.dropWhile_append_of_pos hblanks

theorem skipSpaces_cons {c : Char} (hc : isSpace c = false) (cs : List Char) : skipSpaces (c :: cs) = c :: cs :=
  List.dropWhile_cons_of_neg (by rw [hc]; exact Bool.false_ne_true)

/-- What follows a value does not go on with a number. -/
def EndsValue (rest : List Char) : Prop :=
  ∀ c, rest.head? = some c → c.isDigit = false ∧ c ≠ '.' ∧ c ≠ 'e' ∧ c ≠ 'E'

theorem EndsValue.endsDigits (h : EndsValue rest) : EndsDigits rest := fun c hc => (h c hc).1

theorem someDigits?_append {ds : List Char} (hne : ds ≠ []) (hds : ∀ c ∈ ds, c.isDigit = true)
    (hrest : EndsDigits rest) : someDigits? (ds ++ rest) = some (ds, rest) := by
  rw [someDigits?, spanDigits_append hds hrest]
  simp [hne]

theorem wholePart?_append {whole : List Char} (hwhole : IsWhole whole) (hrest : EndsDigits rest) :
    wholePart? (whole ++ rest) = some (whole, rest) := by
  obtain ⟨hne, hdigits, hzero⟩ := hwhole
  have hsome := someDigits?_append hne hdigits hrest
  obtain ⟨c, cs, rfl⟩ := List.exists_cons_of_ne_nil hne
  by_cases hc : c = '0'
  · obtain rfl : cs = [] := (List.cons.inj (hzero (by rw [hc]; rfl))).2
    subst hc
    have hend : (rest.head?.map Char.isDigit).getD false = false := by
      cases hhead : rest.head? with
      | none => rfl
      | some c => exact hrest c hhead
    show (if (rest.head?.map Char.isDigit).getD false then none else some (['0'], rest)) = _
    rw [hend, if_neg Bool.false_ne_true]
  · rw [wholePart?.eq_def]
    split
    · next heq => exact absurd (List.cons.inj heq).1 hc
    · exact hsome

theorem fractionPart?_append {ds : List Char} (hds : ∀ c ∈ ds, c.isDigit = true) (hrest : EndsDigits rest)
    (hpoint : rest.head? ≠ some '.') : fractionPart? (pointed ds ++ rest) = some (pointed ds, rest) := by
  cases ds with
  | nil =>
    show fractionPart? rest = _
    rw [fractionPart?.eq_def]
    split
    · exact absurd rfl hpoint
    · rfl
  | cons d ds =>
    show (someDigits? (d :: ds ++ rest)).map _ = _
    rw [someDigits?_append (by simp) hds hrest]
    rfl

theorem exponentPart?_append {cs : List Char} {k : ℤ} (hcs : IsPower cs k) (hrest : EndsValue rest) :
    exponentPart? (cs ++ rest) = some (cs, rest) := by
  cases hcs with
  | none =>
    cases rest with
    | nil => rfl
    | cons c cs =>
      obtain ⟨-, -, hsmall, hlarge⟩ := hrest c rfl
      rw [List.nil_append, exponentPart?.eq_def]
      exact if_neg (not_or.2 ⟨hsmall, hlarge⟩)
  | plain ds hne hds =>
    have hsome := someDigits?_append hne hds hrest.endsDigits
    obtain ⟨c, cs, rfl⟩ := List.exists_cons_of_ne_nil hne
    have hc := hds c List.mem_cons_self
    rw [List.cons_append, exponentPart?, hsome]
    · rfl
    · exact fun cs heq => absurd hc (by rw [(List.cons.inj heq).1]; decide)
    · exact fun cs heq => absurd hc (by rw [(List.cons.inj heq).1]; decide)
  | plus ds hne hds =>
    show (someDigits? (ds ++ rest)).map _ = _
    rw [someDigits?_append hne hds hrest.endsDigits]
    rfl
  | minus ds hne hds =>
    show (someDigits? (ds ++ rest)).map _ = _
    rw [someDigits?_append hne hds hrest.endsDigits]
    rfl

def signedChars : Sign → Numeral → List Char
  | .negative, p => '-' :: p.chars
  | .positive, p => p.chars

theorem toList_signed (s : Sign) (p : Numeral) :
    (NumberStyle.signed s (String.ofList p.chars)).toList = signedChars s p := by
  cases s <;> simp [NumberStyle.signed, signedChars]

/-- A number is taken whole, up to a character that ends values. -/
theorem readNumber_append (s : Sign) (p : Numeral) (hrest : EndsValue rest) :
    readNumber (signedChars s p ++ rest) = some (.number (String.ofList (signedChars s p)), rest) := by
  have hafter : EndsDigits (p.exponent ++ rest) ∧ (p.exponent ++ rest).head? ≠ some '.' := by
    rcases p.isPower.nil_or_cons with hexponent | ⟨cs, hexponent⟩ <;> rw [hexponent]
    · exact ⟨hrest.endsDigits, fun hpoint => (hrest '.' hpoint).2.1 rfl⟩
    · refine ⟨fun c hc => ?_, by simp⟩
      obtain rfl := Option.some.inj hc
      decide
  have hpointed : EndsDigits (pointed p.fraction ++ (p.exponent ++ rest)) := by
    cases p.fraction with
    | nil => exact hafter.1
    | cons d ds =>
      intro c hc
      obtain rfl := Option.some.inj hc
      decide
  have hsplit : p.chars ++ rest = p.whole ++ (pointed p.fraction ++ (p.exponent ++ rest)) := by
    rw [Numeral.chars, List.append_assoc, List.append_assoc]
  have hwhole := wholePart?_append p.isWhole hpointed
  have hfraction := fractionPart?_append p.isDigit hafter.1 hafter.2
  have hexponent := exponentPart?_append p.isPower hrest
  rw [← hsplit] at hwhole
  cases s with
  | positive =>
    obtain ⟨c, cs, hchars, hc⟩ := p.chars_eq_cons
    have hsign : ∀ cs, p.chars ++ rest ≠ '-' :: cs := by
      rintro cs heq
      rw [hchars] at heq
      exact absurd hc (by rw [(List.cons.inj heq).1]; decide)
    show readNumber (p.chars ++ rest) = _
    rw [readNumber, hwhole]
    · simp only [Option.bind_eq_bind, Option.bind_some, hfraction, hexponent]
      rw [signedChars, Numeral.chars, List.nil_append, List.append_assoc]
    · exact hsign
  | negative =>
    show readNumber ('-' :: (p.chars ++ rest)) = _
    rw [readNumber, hwhole]
    simp only [Option.bind_eq_bind, Option.bind_some, hfraction, hexponent]
    rw [signedChars, Numeral.chars, List.append_assoc, List.append_assoc, List.singleton_append]

theorem hexValue?_digitChar : ∀ k < 16, hexValue? (Nat.digitChar k) = some k := by decide

/-- A control character in base sixteen is read as itself. -/
theorem escape?_control {c : Char} (hc : c.toNat < 0x20) (rest : List Char) :
    escape? ('u' :: '0' :: '0' :: Nat.digitChar (c.toNat / 16) :: Nat.digitChar (c.toNat % 16) :: rest) =
      some (some c, rest) := by
  have hunit : codeUnit? ('0' :: '0' :: Nat.digitChar (c.toNat / 16) :: Nat.digitChar (c.toNat % 16) :: rest) =
      some (c.toNat, rest) := by
    have hzero : hexValue? '0' = some 0 := rfl
    rw [codeUnit?, hzero, hexValue?_digitChar _ (by omega), hexValue?_digitChar _ (by omega)]
    show some (_, rest) = _
    congr 2
    omega
  have hhigh : isHighHalf c.toNat = false := by
    rw [isHighHalf, Bool.and_eq_false_iff, decide_eq_false_iff_not, decide_eq_false_iff_not]
    omega
  have hlow : isLowHalf c.toNat = false := by
    rw [isLowHalf, Bool.and_eq_false_iff, decide_eq_false_iff_not, decide_eq_false_iff_not]
    omega
  show escapedUnit? _ = _
  rw [escapedUnit?, hunit]
  simp [hhigh, hlow]

/-- An escaped character is read in one step. -/
theorem readText_escapeChar (fuel : ℕ) (c : Char) (rest seen : List Char) :
    readText (fuel + 1) (escapeChar c ++ rest) (some seen) = readText fuel rest (some (c :: seen)) := by
  rw [escapeChar]
  split
  · next h => rw [h]; rfl
  split
  · next h => rw [h]; rfl
  split
  · next h => rw [h]; rfl
  split
  · next h => rw [h]; rfl
  split
  · next h => rw [h]; rfl
  split
  · next h => rw [h]; rfl
  split
  · next h => rw [h]; rfl
  split
  · next h =>
    have hescape := escape?_control h rest
    show readText (fuel + 1) ('\\' :: 'u' :: '0' :: '0' :: Nat.digitChar (c.toNat / 16) ::
      Nat.digitChar (c.toNat % 16) :: rest) (some seen) = _
    rw [readText, if_neg (by decide), if_pos rfl, hescape]
  · next hquote hbackslash _ _ _ _ _ hcontrol =>
    show readText (fuel + 1) (c :: rest) (some seen) = _
    rw [readText, if_neg hquote, if_neg hbackslash, if_neg hcontrol]
    rfl

theorem escapeChar_ne_nil (c : Char) : escapeChar c ≠ [] := by
  rw [escapeChar]
  repeat' split
  all_goals simp

/-- A text is taken up to its closing quote, every escaped character undone. -/
theorem readText_escaped {fuel : ℕ} {cs : List Char} (hfuel : (cs.flatMap escapeChar).length + 1 ≤ fuel)
    (rest seen : List Char) :
    readText fuel (cs.flatMap escapeChar ++ '"' :: rest) (some seen) =
      some (some (String.ofList (seen.reverse ++ cs)), rest) := by
  induction cs generalizing fuel seen with
  | nil =>
    obtain ⟨fuel, rfl⟩ : ∃ k, fuel = k + 1 := ⟨fuel - 1, by simp at hfuel; omega⟩
    rw [List.flatMap_nil, List.nil_append, readText, if_pos rfl, List.append_nil]
    rfl
  | cons c cs ih =>
    have hlong := List.length_pos_of_ne_nil (escapeChar_ne_nil c)
    rw [List.flatMap_cons, List.length_append] at hfuel
    obtain ⟨fuel, rfl⟩ : ∃ k, fuel = k + 1 := ⟨fuel - 1, by omega⟩
    rw [List.flatMap_cons, List.append_assoc, readText_escapeChar, ih (by omega), List.reverse_cons,
      List.append_assoc, List.singleton_append]

end PackageTriage.Json
