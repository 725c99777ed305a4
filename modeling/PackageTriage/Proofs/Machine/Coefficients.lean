import PackageTriage.Proofs.Json.Entries

/-!
# Coefficients in a file

A coefficient is written as a number or as the text of its name. A name has no blanks at its ends and is not
written as a number, so reading it gives the name again. A coefficient that was spelled out as an infinity or as
no number has no value in the file.
-/

namespace PackageTriage

namespace Text

/-- Trimming leaves nothing to trim. -/
theorem trimBlanks_trimBlanks (cs : List Char) : trimBlanks (trimBlanks cs) = trimBlanks cs := by
  set front := cs.dropWhile isBlank with hfront
  set back := front.reverse.dropWhile isBlank with hback
  have htrim : trimBlanks cs = back.reverse := rfl
  have hbegin : back.reverse.dropWhile isBlank = back.reverse := by
    have hprefix : back.reverse <+: front := by
      rw [← List.reverse_reverse front, List.reverse_prefix, hback]
      exact List.dropWhile_suffix isBlank
    cases hreverse : back.reverse with
    | nil => rfl
    | cons c ds =>
      rw [hreverse] at hprefix
      obtain ⟨rest, hrest⟩ := hprefix
      have hhead := List.head?_dropWhile_not isBlank cs
      rw [← hfront, ← hrest] at hhead
      exact List.dropWhile_cons_of_neg (by rw [hhead]; exact Bool.false_ne_true)
  rw [htrim, trimBlanks, hbegin, List.reverse_reverse, hback, List.dropWhile_idempotent]

theorem trim_trim (s : String) : trim (trim s) = trim s := by
  rw [trim, trim, String.toList_ofList, trimBlanks_trimBlanks]

end Text

namespace Gamma

open Json Decimal

def isWritten : Gamma Float → Bool
  | .value v => v.isFinite
  | .named _ => true

theorem parse_named {raw name : String} (h : parse raw = .named name) : parse name = .named name := by
  rw [parse] at h
  split at h
  · cases h
  · next hnone =>
    obtain rfl := Gamma.named.inj h
    rw [parse, Text.trim_trim, hnone]

def numbers : Gamma Float → List Float
  | .value v => [v]
  | .named _ => []

variable [NumberReader]

/-- A coefficient given by value lasts where its number does. -/
theorem lasts_value {v : Float} (hback : ReadsBack v) : Lasts ofJson? toJson isWritten (.value v) := by
  by_cases hv : v.isFinite = true
  · obtain ⟨hreadable, hread⟩ := lasts_float hv hback
    refine ⟨hreadable, ?_⟩
    have hnumber : ofJson? (Json.ofFloat v) = (Json.ofFloat v).float?.map .value := by
      rw [Json.ofFloat, if_pos hv]
      rfl
    rw [toJson, hnumber, hread, isWritten, if_pos hv]
    rfl
  · have hnull : Json.ofFloat v = .null := if_neg hv
    refine ⟨?_, ?_⟩ <;> rw [toJson, hnull]
    · exact .null
    · rw [isWritten, if_neg hv]
      rfl

/-- A named coefficient lasts under its trimmed name. -/
theorem lasts_named {name : String} (h : parse name = .named name) : Lasts ofJson? toJson isWritten (.named name) :=
  ⟨.text name, congrArg some h⟩

/-- Whatever coefficient is read is read again if the file can hold it. -/
theorem lasts_of_ofJson? {j : Json} {g : Gamma Float} (h : ofJson? j = some g)
    (hback : ∀ x ∈ g.numbers, ReadsBack x) : Lasts ofJson? toJson isWritten g := by
  cases g with
  | value v => exact lasts_value (hback v (List.mem_singleton_self v))
  | named name =>
    refine lasts_named ?_
    cases j with
    | text s =>
      obtain ⟨raw, -, hraw⟩ := Option.map_eq_some_iff.1 h
      exact parse_named hraw
    | number w =>
      obtain ⟨v, -, hv⟩ := Option.map_eq_some_iff.1 h
      cases hv
    | null | bool | list | object => simp [ofJson?, float?] at h

end Gamma

end PackageTriage
