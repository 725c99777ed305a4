import PackageTriage.Proofs.Json.Pieces

/-!
# Laid out values are read back

A value that is laid out over several lines is read back, whatever follows it: blanks are skipped wherever a
value, a comma or a bracket may stand, and every step of the reader takes a character of the text.
-/

namespace PackageTriage.Json

open Decimal
open Float.Model.UnpackedFloat (Sign)

/-- The values whose text is read back: every number is a numeral and no text has a faulty escape. -/
inductive Readable : Json → Prop
  | null : Readable .null
  | bool (b : Bool) : Readable (.bool b)
  | number (s : Sign) (p : Numeral) : Readable (.number (String.ofList (signedChars s p)))
  | text (s : String) : Readable (.text (some s))
  | list {items : List Json} : (∀ item ∈ items, Readable item) → Readable (.list items)
  | object {fields : List (Option String × Json)} : (∀ field ∈ fields, field.1.isSome = true) →
      (∀ field ∈ fields, Readable field.2) → Readable (.object fields)

section

variable {fuel : ℕ} {cs after rest : List Char}

theorem readValue_quote (fuel : ℕ) (rest : List Char) :
    readValue (fuel + 1) ('"' :: rest) = (readText fuel rest (some [])).map fun (s, rest) => (.text s, rest) := rfl

/-- A list that is not empty. -/
theorem readValue_list {c : Char} (h : skipSpaces rest = c :: cs) (hc : c ≠ ']') :
    readValue (fuel + 1) ('[' :: rest) = (readItems fuel (c :: cs)).map fun (items, rest) => (.list items, rest) := by
  have hbracket : skipSpaces ('[' :: rest) = '[' :: rest := rfl
  rw [readValue, hbracket]
  split
  case h_5 heq =>
    rw [← (List.cons.inj heq).2, h]
    split
    · next heq => exact absurd (List.cons.inj heq).1 hc
    · rfl
  case h_7 hlist _ => exact absurd rfl (hlist rest)
  all_goals next heq => simp at heq

/-- An object that is not empty. -/
theorem readValue_object {c : Char} (h : skipSpaces rest = c :: cs) (hc : c ≠ '\x7d') :
    readValue (fuel + 1) ('\x7b' :: rest) =
      (readFields fuel (c :: cs)).map fun (fields, rest) => (.object fields, rest) := by
  have hbrace : skipSpaces ('\x7b' :: rest) = '\x7b' :: rest := rfl
  rw [readValue, hbrace]
  split
  case h_6 heq =>
    rw [← (List.cons.inj heq).2, h]
    split
    · next heq => exact absurd (List.cons.inj heq).1 hc
    · rfl
  case h_7 hobject => exact absurd rfl (hobject rest)
  all_goals next heq => simp at heq

theorem readItems_last {item : Json} (h : readValue fuel cs = some (item, after))
    (hafter : skipSpaces after = ']' :: rest) : readItems (fuel + 1) cs = some ([item], rest) := by
  rw [readItems, h]
  dsimp only
  rw [hafter]
  rfl

theorem readItems_next {item : Json} (h : readValue fuel cs = some (item, after))
    (hafter : skipSpaces after = ',' :: rest) :
    readItems (fuel + 1) cs = (readItems fuel rest).map fun (items, rest) => (item :: items, rest) := by
  rw [readItems, h]
  dsimp only
  rw [hafter]
  rfl

/-- The name of a field, a colon and the value. -/
theorem readFields_field {name : Option String} {value : Json} {colon behind : List Char}
    (hname : readText fuel cs (some []) = some (name, colon)) (hcolon : skipSpaces colon = ':' :: behind)
    (hvalue : readValue fuel behind = some (value, after)) :
    (skipSpaces after = '\x7d' :: rest → readFields (fuel + 1) ('"' :: cs) = some ([(name, value)], rest)) ∧
    (skipSpaces after = ',' :: rest → readFields (fuel + 1) ('"' :: cs) =
      (readFields fuel rest).map fun (fields, rest) => ((name, value) :: fields, rest)) := by
  have hquote : skipSpaces ('"' :: cs) = '"' :: cs := rfl
  rw [readFields, hquote]
  split
  case h_2 hfield => exact absurd rfl (hfield cs)
  case h_1 heq =>
    rw [← (List.cons.inj heq).2, hname]
    dsimp only
    rw [hcolon]
    split
    case h_2 hvalue => exact absurd rfl (hvalue behind)
    case h_1 heq =>
      rw [← (List.cons.inj heq).2, hvalue]
      dsimp only
      constructor <;> intro hafter
      all_goals rw [hafter]; rfl

end

variable {blanks cs rest : List Char}

theorem readValue_append (fuel : ℕ) (hblanks : ∀ c ∈ blanks, isSpace c = true) (cs : List Char) :
    readValue fuel (blanks ++ cs) = readValue fuel cs := by
  cases fuel with
  | zero => rfl
  | succ fuel => rw [readValue, readValue, skipSpaces_append hblanks]

theorem readItems_append (fuel : ℕ) (hblanks : ∀ c ∈ blanks, isSpace c = true) (cs : List Char) :
    readItems fuel (blanks ++ cs) = readItems fuel cs := by
  cases fuel with
  | zero => rfl
  | succ fuel => rw [readItems, readItems, readValue_append fuel hblanks]

theorem readFields_append (fuel : ℕ) (hblanks : ∀ c ∈ blanks, isSpace c = true) (cs : List Char) :
    readFields fuel (blanks ++ cs) = readFields fuel cs := by
  cases fuel with
  | zero => rfl
  | succ fuel => rw [readFields, readFields, skipSpaces_append hblanks]

theorem isSpace_indent (level : ℕ) : ∀ c ∈ (indent level).toList, isSpace c = true := by
  intro c hc
  rw [indent, String.toList_ofList] at hc
  rcases List.mem_cons.1 hc with rfl | hc
  · decide
  · rw [List.eq_of_mem_replicate hc]
    decide

/-- Blanks, commas and brackets may follow a value. -/
theorem endsValue_append (hblanks : ∀ c ∈ blanks, isSpace c = true) {c : Char} (hc : c ∈ [',', ']', '\x7d'])
    (rest : List Char) : EndsValue (blanks ++ c :: rest) := by
  have hends : ∀ d, isSpace d = true ∨ d ∈ [',', ']', '\x7d'] →
      d.isDigit = false ∧ d ≠ '.' ∧ d ≠ 'e' ∧ d ≠ 'E' := by
    intro d hd
    simp only [isSpace, Bool.or_eq_true, decide_eq_true_eq, List.mem_cons, List.not_mem_nil, or_false] at hd
    rcases hd with (((rfl | rfl) | rfl) | rfl) | rfl | rfl | rfl <;> decide
  intro d hd
  cases blanks with
  | nil =>
    obtain rfl := Option.some.inj hd
    exact hends c (.inr hc)
  | cons b bs =>
    obtain rfl := Option.some.inj hd
    exact hends b (.inl (hblanks b List.mem_cons_self))

theorem endsValue_cons {c : Char} (hc : c ∈ [',', ']', '\x7d']) (rest : List Char) : EndsValue (c :: rest) :=
  @endsValue_append [] (by simp) c hc rest

/-- These characters are read as the value, whatever follows them. -/
structure ReadsAs (cs : List Char) (j : Json) : Prop where
  begins : ∃ c ds, cs = c :: ds ∧ isSpace c = false ∧ c ≠ ']'
  reads : ∀ fuel rest, cs.length ≤ fuel → EndsValue rest → readValue fuel (cs ++ rest) = some (j, rest)

def quoted (s : String) : List Char := s.toList.flatMap escapeChar ++ ['"']

theorem toList_writeText (s : String) : (writeText (some s)).toList = '"' :: quoted s := String.toList_ofList

/-- A written text is read back once the fuel covers its characters. -/
theorem readText_quoted {fuel : ℕ} {s : String} (hfuel : (quoted s).length ≤ fuel) (rest : List Char) :
    readText fuel (quoted s ++ rest) (some []) = some (some s, rest) := by
  rw [quoted, List.length_append, List.length_singleton] at hfuel
  rw [quoted, List.append_assoc, List.singleton_append, readText_escaped hfuel, List.reverse_nil, List.nil_append,
    String.ofList_toList]

/-- These characters are read as the field, a brace or a comma behind them. -/
structure ReadsAsField (line : List Char) (field : Option String × Json) : Prop where
  begins : ∃ ds, line = '"' :: ds
  last : ∀ fuel after rest, line.length ≤ fuel → EndsValue after → skipSpaces after = '\x7d' :: rest →
    readFields (fuel + 1) (line ++ after) = some ([field], rest)
  next : ∀ fuel after rest, line.length ≤ fuel → EndsValue after → skipSpaces after = ',' :: rest →
    readFields (fuel + 1) (line ++ after) = (readFields fuel rest).map fun (fields, rest) => (field :: fields, rest)

theorem readsAsField {cs : List Char} {value : Json} (h : ReadsAs cs value) (name : String) :
    ReadsAsField ('"' :: (quoted name ++ ':' :: ' ' :: cs)) (some name, value) := by
  have hstep (fuel : ℕ) (after rest : List Char)
      (hfuel : ('"' :: (quoted name ++ ':' :: ' ' :: cs)).length ≤ fuel) (hafter : EndsValue after) :=
    have hlength : (quoted name).length + cs.length ≤ fuel := by
      simp only [List.length_cons, List.length_append] at hfuel
      omega
    @readFields_field fuel _ after rest (some name) value _ _
      (readText_quoted (by omega) (':' :: ' ' :: (cs ++ after))) (skipSpaces_cons (by decide) _)
      ((@readValue_append [' '] fuel (by simp [isSpace]) (cs ++ after)).trans
        (h.reads fuel after (by omega) hafter))
  have hline (after : List Char) : '"' :: (quoted name ++ ':' :: ' ' :: cs) ++ after =
      '"' :: (quoted name ++ ':' :: ' ' :: (cs ++ after)) := by simp
  refine ⟨⟨_, rfl⟩, fun fuel after rest hfuel hafter => ?_, fun fuel after rest hfuel hafter => ?_⟩
  · rw [hline]
    exact (hstep fuel after rest hfuel hafter).1
  · rw [hline]
    exact (hstep fuel after rest hfuel hafter).2

def joined (blanks : List Char) (lines : List (List Char)) : List Char := (',' :: blanks).intercalate lines

theorem joined_singleton (blanks line : List Char) : joined blanks [line] = line := by
  simp [joined, List.intercalate]

theorem joined_cons_cons (blanks line line' : List Char) (lines : List (List Char)) :
    joined blanks (line :: line' :: lines) = line ++ ',' :: (blanks ++ joined blanks (line' :: lines)) := by
  rw [joined, List.intercalate_cons_cons, joined, List.append_assoc, List.cons_append]

/-- Items laid out with blanks between them are read back in their order. -/
theorem readItems_joined {lines : List (List Char)} {items : List Json} (h : List.Forall₂ ReadsAs lines items)
    (hne : items ≠ []) (hblanks : ∀ c ∈ blanks, isSpace c = true) {after : List Char}
    (hafter : ∀ c ∈ after, isSpace c = true) (fuel : ℕ) (hfuel : (joined blanks lines).length + 1 ≤ fuel)
    (rest : List Char) :
    readItems fuel (joined blanks lines ++ (after ++ ']' :: rest)) = some (items, rest) := by
  induction h generalizing fuel with
  | nil => exact absurd rfl hne
  | @cons line item lines items hline htail ih =>
    obtain ⟨fuel, rfl⟩ : ∃ k, fuel = k + 1 := ⟨fuel - 1, by omega⟩
    cases htail with
    | nil =>
      rw [joined_singleton] at hfuel ⊢
      exact readItems_last (hline.reads fuel _ (by omega) (endsValue_append hafter (by simp) rest))
        (by rw [skipSpaces_append hafter, skipSpaces_cons (by decide)])
    | cons hline' htail' =>
      rw [joined_cons_cons] at hfuel ⊢
      rw [List.length_append, List.length_cons, List.length_append] at hfuel
      rw [List.append_assoc, List.cons_append, List.append_assoc,
        readItems_next (hline.reads fuel _ (by omega) (endsValue_cons (by simp) _)) (skipSpaces_cons (by decide) _),
        readItems_append fuel hblanks, ih (by simp) fuel (by omega)]
      rfl

theorem readFields_joined {lines : List (List Char)} {fields : List (Option String × Json)}
    (h : List.Forall₂ ReadsAsField lines fields) (hne : fields ≠ []) (hblanks : ∀ c ∈ blanks, isSpace c = true)
    {after : List Char} (hafter : ∀ c ∈ after, isSpace c = true) (fuel : ℕ)
    (hfuel : (joined blanks lines).length + 1 ≤ fuel) (rest : List Char) :
    readFields fuel (joined blanks lines ++ (after ++ '\x7d' :: rest)) = some (fields, rest) := by
  induction h generalizing fuel with
  | nil => exact absurd rfl hne
  | @cons line field lines fields hline htail ih =>
    obtain ⟨fuel, rfl⟩ : ∃ k, fuel = k + 1 := ⟨fuel - 1, by omega⟩
    cases htail with
    | nil =>
      rw [joined_singleton] at hfuel ⊢
      exact hline.last fuel _ rest (by omega) (endsValue_append hafter (by simp) rest)
        (by rw [skipSpaces_append hafter, skipSpaces_cons (by decide)])
    | cons hline' htail' =>
      rw [joined_cons_cons] at hfuel ⊢
      rw [List.length_append, List.length_cons, List.length_append] at hfuel
      rw [List.append_assoc, List.cons_append, List.append_assoc,
        hline.next fuel _ _ (by omega) (endsValue_cons (by simp) _) (skipSpaces_cons (by decide) _),
        readFields_append fuel hblanks, ih (by simp) fuel (by omega)]
      rfl

theorem layOutItems_eq (level : ℕ) (items : List Json) : layOutItems level items = items.map (layOut level) := by
  induction items with
  | nil => rfl
  | cons item items ih => rw [layOutItems, ih, List.map_cons]

theorem layOutFields_eq (level : ℕ) (fields : List (Option String × Json)) :
    layOutFields level fields =
      fields.map fun field => writeText field.1 ++ ": " ++ layOut level field.2 := by
  induction fields with
  | nil => rfl
  | cons field fields ih => rw [layOutFields, ih, List.map_cons]

/-- The characters between the brackets. -/
theorem toList_block {opening closing : Char} (level : ℕ) {lines : List String} (hne : lines ≠ []) :
    (block (String.singleton opening) (String.singleton closing) level lines).toList =
      opening :: ((indent (level + 1)).toList ++
        (joined (indent (level + 1)).toList (lines.map String.toList) ++ ((indent level).toList ++ [closing]))) := by
  rw [block, if_neg (by simpa using hne)]
  simp [joined, String.toList_intercalate]

/-- A value that begins with a digit or a minus sign is a number. -/
theorem readValue_number {c : Char} (hc : c.isDigit = true ∨ c = '-') (fuel : ℕ) (cs : List Char) :
    isSpace c = false ∧ c ≠ ']' ∧ readValue (fuel + 1) (c :: cs) = readNumber (c :: cs) := by
  have hne : ∀ d, d.isDigit = false → d ≠ '-' → c ≠ d := by
    rintro d hdigit hminus rfl
    rcases hc with hc | hc
    · rw [hdigit] at hc
      exact Bool.false_ne_true hc
    · exact hminus hc
  have hspace : isSpace c = false := by
    simp [isSpace, hne ' ' (by decide) (by decide), hne '\n' (by decide) (by decide),
      hne '\t' (by decide) (by decide), hne '\r' (by decide) (by decide)]
  refine ⟨hspace, hne _ (by decide) (by decide), ?_⟩
  rw [readValue, skipSpaces_cons hspace]
  -- Every other kind of value begins with a character of its own.
  split <;> first
    | rfl
    | next heq => exact absurd (List.cons.inj heq).1 (hne _ (by decide) (by decide))

theorem readsAs_number (s : Sign) (p : Numeral) :
    ReadsAs (signedChars s p) (.number (String.ofList (signedChars s p))) := by
  obtain ⟨c, ds, hchars, hc⟩ : ∃ c ds, signedChars s p = c :: ds ∧ (c.isDigit = true ∨ c = '-') := by
    cases s with
    | negative => exact ⟨'-', p.chars, rfl, .inr rfl⟩
    | positive =>
      obtain ⟨c, cs, hchars, hc⟩ := p.chars_eq_cons
      exact ⟨c, cs, hchars, .inl hc⟩
  obtain ⟨hspace, hbracket, -⟩ := readValue_number hc 0 []
  refine ⟨⟨c, ds, hchars, hspace, hbracket⟩, fun fuel rest hfuel hrest => ?_⟩
  obtain ⟨fuel, rfl⟩ : ∃ k, fuel = k + 1 := ⟨fuel - 1, by rw [hchars, List.length_cons] at hfuel; omega⟩
  have hnumber := readNumber_append s p hrest
  rw [hchars, List.cons_append] at hnumber ⊢
  exact (readValue_number hc fuel _).2.2.trans hnumber

theorem readsAs_text (s : String) : ReadsAs (writeText (some s)).toList (.text (some s)) := by
  rw [toList_writeText]
  refine ⟨⟨_, _, rfl, by decide, by decide⟩, fun fuel rest hfuel _ => ?_⟩
  rw [List.length_cons] at hfuel
  obtain ⟨fuel, rfl⟩ : ∃ k, fuel = k + 1 := ⟨fuel - 1, by omega⟩
  rw [List.cons_append, readValue_quote, readText_quoted (by omega)]
  rfl

/-- A text that is read in one step, as the three words are. -/
theorem readsAs_word {c : Char} {cs : List Char} {j : Json} (hspace : isSpace c = false) (hc : c ≠ ']')
    (hread : ∀ fuel rest, readValue (fuel + 1) (c :: cs ++ rest) = some (j, rest)) : ReadsAs (c :: cs) j := by
  refine ⟨⟨c, cs, rfl, hspace, hc⟩, fun fuel rest hfuel _ => ?_⟩
  obtain ⟨fuel, rfl⟩ : ∃ k, fuel = k + 1 := ⟨fuel - 1, by rw [List.length_cons] at hfuel; omega⟩
  exact hread fuel rest

section

variable {lines : List (List Char)} {after : List Char} (hblanks : ∀ c ∈ blanks, isSpace c = true)
  (hafter : ∀ c ∈ after, isSpace c = true)

include hblanks hafter

theorem readsAs_list {items : List Json} (h : List.Forall₂ ReadsAs lines items) (hne : items ≠ []) :
    ReadsAs ('[' :: (blanks ++ (joined blanks lines ++ (after ++ [']'])))) (.list items) := by
  refine ⟨⟨_, _, rfl, by decide, by decide⟩, fun fuel rest hfuel _ => ?_⟩
  have hlength : (joined blanks lines).length + 2 ≤ fuel := by
    simp only [List.length_cons, List.length_append] at hfuel
    omega
  obtain ⟨fuel, rfl⟩ : ∃ k, fuel = k + 1 := ⟨fuel - 1, by omega⟩
  have hitems := readItems_joined h hne hblanks hafter fuel (by omega) rest
  obtain ⟨c, ds, hjoined, hspace, hc⟩ : ∃ c ds, joined blanks lines = c :: ds ∧ isSpace c = false ∧ c ≠ ']' := by
    cases h with
    | nil => exact absurd rfl hne
    | cons hline htail =>
      obtain ⟨c, ds, rfl, hspace, hc⟩ := hline.begins
      cases htail with
      | nil => exact ⟨c, ds, joined_singleton _ _, hspace, hc⟩
      | cons _ _ => exact ⟨c, _, joined_cons_cons _ _ _ _, hspace, hc⟩
  have hskip : skipSpaces (blanks ++ (joined blanks lines ++ (after ++ ']' :: rest))) =
      c :: (ds ++ (after ++ ']' :: rest)) := by
    rw [skipSpaces_append hblanks, hjoined, List.cons_append, skipSpaces_cons hspace]
  rw [hjoined, List.cons_append] at hitems
  simp only [List.cons_append, List.append_assoc, List.nil_append]
  rw [readValue_list hskip hc, hitems]
  rfl

theorem readsAs_object {fields : List (Option String × Json)} (h : List.Forall₂ ReadsAsField lines fields)
    (hne : fields ≠ []) :
    ReadsAs ('\x7b' :: (blanks ++ (joined blanks lines ++ (after ++ ['\x7d'])))) (.object fields) := by
  refine ⟨⟨_, _, rfl, by decide, by decide⟩, fun fuel rest hfuel _ => ?_⟩
  have hlength : (joined blanks lines).length + 2 ≤ fuel := by
    simp only [List.length_cons, List.length_append] at hfuel
    omega
  obtain ⟨fuel, rfl⟩ : ∃ k, fuel = k + 1 := ⟨fuel - 1, by omega⟩
  have hfields := readFields_joined h hne hblanks hafter fuel (by omega) rest
  obtain ⟨ds, hjoined⟩ : ∃ ds, joined blanks lines = '"' :: ds := by
    cases h with
    | nil => exact absurd rfl hne
    | cons hline htail =>
      obtain ⟨ds, rfl⟩ := hline.begins
      cases htail with
      | nil => exact ⟨ds, joined_singleton _ _⟩
      | cons _ _ => exact ⟨_, joined_cons_cons _ _ _ _⟩
  have hskip : skipSpaces (blanks ++ (joined blanks lines ++ (after ++ '\x7d' :: rest))) =
      '"' :: (ds ++ (after ++ '\x7d' :: rest)) := by
    rw [skipSpaces_append hblanks, hjoined, List.cons_append, skipSpaces_cons (by decide)]
  rw [hjoined, List.cons_append] at hfields
  simp only [List.cons_append, List.append_assoc, List.nil_append]
  rw [readValue_object hskip (by decide), hfields]
  rfl

end

theorem forall₂_layOutItems {level : ℕ} {items : List Json}
    (h : ∀ item ∈ items, ReadsAs (layOut level item).toList item) :
    List.Forall₂ ReadsAs ((layOutItems level items).map String.toList) items := by
  rw [layOutItems_eq, List.map_map, List.forall₂_map_left_iff, List.forall₂_same]
  exact h

theorem forall₂_layOutFields {level : ℕ} {fields : List (Option String × Json)}
    (hnames : ∀ field ∈ fields, field.1.isSome = true)
    (h : ∀ field ∈ fields, ReadsAs (layOut level field.2).toList field.2) :
    List.Forall₂ ReadsAsField ((layOutFields level fields).map String.toList) fields := by
  rw [layOutFields_eq, List.map_map, List.forall₂_map_left_iff, List.forall₂_same]
  rintro ⟨name, value⟩ hfield
  obtain ⟨name, rfl⟩ := Option.isSome_iff_exists.1 (hnames _ hfield)
  have hline : (writeText (some name) ++ ": " ++ layOut level value).toList =
      '"' :: (quoted name ++ ':' :: ' ' :: (layOut level value).toList) := by
    rw [String.toList_append, String.toList_append, toList_writeText]
    simp
  show ReadsAsField (writeText (some name) ++ ": " ++ layOut level value).toList _
  rw [hline]
  exact readsAsField (h _ hfield) name

/-- Whatever can be read is read back from its indented text. -/
theorem readsAs_layOut {j : Json} (h : Readable j) (level : ℕ) : ReadsAs (layOut level j).toList j := by
  induction h generalizing level with
  | null =>
    have htext : (layOut level .null).toList = ['n', 'u', 'l', 'l'] := by simp [layOut]
    rw [htext]
    exact readsAs_word (by decide) (by decide) fun _ _ => rfl
  | bool b =>
    cases b with
    | true =>
      have htext : (layOut level (.bool true)).toList = ['t', 'r', 'u', 'e'] := by simp [layOut]
      rw [htext]
      exact readsAs_word (by decide) (by decide) fun _ _ => rfl
    | false =>
      have htext : (layOut level (.bool false)).toList = ['f', 'a', 'l', 's', 'e'] := by simp [layOut]
      rw [htext]
      exact readsAs_word (by decide) (by decide) fun _ _ => rfl
  | number s p =>
    rw [layOut, String.toList_ofList]
    exact readsAs_number s p
  | text s => exact readsAs_text s
  | @list items hitems ih =>
    by_cases hempty : items = []
    · have htext : (layOut level (.list [])).toList = ['[', ']'] := by simp [layOut, layOutItems, block]
      rw [hempty, htext]
      exact readsAs_word (by decide) (by decide) fun _ _ => rfl
    · have hne : layOutItems (level + 1) items ≠ [] := by simpa [layOutItems_eq] using hempty
      have htext : (layOut level (.list items)).toList = _ := @toList_block '[' ']' level _ hne
      rw [htext]
      exact readsAs_list (isSpace_indent _) (isSpace_indent _)
        (forall₂_layOutItems fun item hitem => ih item hitem (level + 1)) hempty
  | @object fields hnames hvalues ih =>
    by_cases hempty : fields = []
    · have htext : (layOut level (.object [])).toList = ['\x7b', '\x7d'] := by simp [layOut, layOutFields, block]
      rw [hempty, htext]
      exact readsAs_word (by decide) (by decide) fun _ _ => rfl
    · have hne : layOutFields (level + 1) fields ≠ [] := by simpa [layOutFields_eq] using hempty
      have htext : (layOut level (.object fields)).toList = _ := @toList_block '\x7b' '\x7d' level _ hne
      rw [htext]
      exact readsAs_object (isSpace_indent _) (isSpace_indent _)
        (forall₂_layOutFields hnames fun field hfield => ih field hfield (level + 1)) hempty

/-- A value is read back from its text. -/
theorem read?_pretty {j : Json} (h : Readable j) : read? j.pretty = some j := by
  have hreads := (readsAs_layOut h 0).reads (2 * (layOut 0 j).toList.length + 2) [] (by omega) (by simp [EndsValue])
  rw [List.append_nil] at hreads
  rw [read?, pretty, hreads]
  rfl

end PackageTriage.Json
