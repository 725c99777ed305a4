import PackageTriage.Proofs.Csv.Rows

/-!
# Records counted against lines

The lines of a text are what line feeds end, its records what the reader ends, and the two differ in three ways. A
line that begins in a quoted part belongs to the record of the line before. A carriage return ends a record, and with
something behind it on the line another record begins there. A line on which nothing but the mark of the byte order
stands has no record. Where no line is blank there is no other difference, so the numbers balance.
-/

namespace PackageTriage

namespace Text

variable {c : Char} {text : List Char}

/-- On the line at hand stands something else than carriage returns. -/
def goesOn (text : List Char) : Bool := !isBlankLine ((splitLines text).headD [])

def linesBehind (text : List Char) : Nat := (splitLines text).tail.length

theorem splitLines_cons_of_ne (hc : c ≠ '\n') (text : List Char) :
    splitLines (c :: text) = (c :: (splitLines text).headD []) :: (splitLines text).tail := by
  rw [splitLines_cons]
  cases splitLines text with
  | nil => rw [consLine, if_neg hc]; rfl
  | cons line lines => rw [consLine, if_neg hc]; rfl

theorem splitLines_ne_nil (hne : text ≠ []) : splitLines text ≠ [] := by
  obtain ⟨c, text, rfl⟩ := List.exists_cons_of_ne_nil hne
  by_cases hc : c = '\n'
  · subst hc
    exact List.cons_ne_nil _ _
  · rw [splitLines_cons_of_ne hc]
    exact List.cons_ne_nil _ _

theorem goesOn_return (text : List Char) : goesOn ('\r' :: text) = goesOn text := by
  rw [goesOn, splitLines_cons_of_ne (by decide)]
  rfl

theorem goesOn_other (hreturn : c ≠ '\r') (hfeed : c ≠ '\n') (text : List Char) : goesOn (c :: text) = true := by
  rw [goesOn, splitLines_cons_of_ne hfeed]
  simp [isBlankLine, hreturn]

theorem linesBehind_other (hc : c ≠ '\n') (text : List Char) : linesBehind (c :: text) = linesBehind text := by
  rw [linesBehind, splitLines_cons_of_ne hc]
  rfl

/-- No line behind the one at hand is blank. -/
def NoneBlankBehind (text : List Char) : Prop := ∀ line ∈ (splitLines text).tail, isBlankLine line = false

theorem NoneBlankBehind.of_cons (h : NoneBlankBehind (c :: text)) : NoneBlankBehind text := by
  by_cases hc : c = '\n'
  · subst hc
    exact fun line hline => h line (List.mem_of_mem_tail hline)
  · rwa [NoneBlankBehind, splitLines_cons_of_ne hc] at h

/-- Lines of which none is blank: if there is one at hand, it goes on. -/
theorem length_splitLines (h : ∀ line ∈ splitLines text, isBlankLine line = false) :
    (splitLines text).length = linesBehind text + (goesOn text).toNat ∧ (goesOn text = true ↔ text ≠ []) := by
  rcases eq_or_ne text [] with rfl | hne
  · exact ⟨rfl, by decide⟩
  · obtain ⟨line, lines, hlines⟩ := List.exists_cons_of_ne_nil (splitLines_ne_nil hne)
    have hgoes : goesOn text = true := by
      rw [goesOn, hlines]
      simpa using h line (hlines ▸ List.mem_cons_self)
    exact ⟨by rw [hgoes, linesBehind, hlines]; rfl, by simp [hgoes, hne]⟩

end Text

namespace Csv

namespace Reader

variable {r : Reader} {c : Char} {text : List Char}

/-- Characters that end a record outside quoted parts. -/
abbrev EndsRecord (c : Char) : Prop := c = '\r' ∨ c = '\n'

/-- The reader is inside a record and outside its quoted parts. -/
abbrev Open (r : Reader) : Prop := r.place ≠ .recordStart ∧ r.place ≠ .quoted

/-- What a character can do: it is passed over between two records, or ends one, or belongs to one. -/
inductive Reads (r : Reader) (c : Char) : Prop
  | passed (hc : EndsRecord c) (hplace : r.place = .recordStart) (hafter : (r.step c).place = .recordStart)
      (hrecords : (r.step c).records.length = r.records.length)
  | ended (hc : EndsRecord c) (hopen : r.Open) (hafter : (r.step c).place = .recordStart)
      (hrecords : (r.step c).records.length = r.records.length + 1)
  | kept (hc : EndsRecord c → r.place = .quoted) (hafter : (r.step c).place ≠ .recordStart)
      (hrecords : (r.step c).records.length = r.records.length)

theorem plain_of_ends (hc : EndsRecord c) : r.plain c = r.endRecord := by
  rw [plain, if_neg (by rintro rfl; revert hc; decide), if_pos hc]

theorem first_of_ends (hc : EndsRecord c) : r.first c = r.endRecord := by
  rw [first, if_neg (by rintro rfl; revert hc; decide), plain_of_ends hc]

theorem plain_of_not_ends (hc : ¬EndsRecord c) :
    (r.plain c).place ≠ .recordStart ∧ (r.plain c).records = r.records := by
  rw [plain, if_neg hc]
  split
  · exact ⟨by rintro ⟨⟩, rfl⟩
  · exact ⟨by rintro ⟨⟩, rfl⟩

theorem first_of_not_ends (hc : ¬EndsRecord c) :
    (r.first c).place ≠ .recordStart ∧ (r.first c).records = r.records := by
  rw [first]
  split
  · exact ⟨by rintro ⟨⟩, rfl⟩
  · exact plain_of_not_ends hc

/-- The reader that has counted the character if it ends a line. -/
def counted (r : Reader) (c : Char) : Reader := if c = '\n' then { r with line := r.line + 1 } else r

@[simp] theorem place_counted (r : Reader) (c : Char) : (r.counted c).place = r.place := by
  rw [counted]
  split <;> rfl

@[simp] theorem records_counted (r : Reader) (c : Char) : (r.counted c).records = r.records := by
  rw [counted]
  split <;> rfl

/-- A step in terms of the rows counted so far, with the states and the quotes apart. -/
theorem step_eq (r : Reader) (c : Char) : r.step c =
    match r.place with
    | .recordStart => if EndsRecord c then r.counted c else (r.counted c).first c
    | .fieldStart => (r.counted c).first c
    | .field => (r.counted c).plain c
    | .quoted => if c = '"' then { r.counted c with place := .quote } else (r.counted c).keep .quoted c
    | .quote => if c = '"' then (r.counted c).keep .quoted c else (r.counted c).plain c := by
  rw [← place_counted r c]
  rfl

theorem step_of_ends (hc : EndsRecord c) : r.step c =
    match r.place with
    | .recordStart => r.counted c
    | .quoted => (r.counted c).keep .quoted c
    | _ => (r.counted c).endRecord := by
  have hquote : c ≠ '"' := by rintro rfl; revert hc; decide
  rw [step_eq, if_pos hc, if_neg hquote, if_neg hquote, plain_of_ends hc, first_of_ends hc]
  cases r.place with
  | _ => rfl

theorem step_of_not_ends (hc : ¬EndsRecord c) :
    (r.step c).place ≠ .recordStart ∧ (r.step c).records = r.records := by
  rw [step_eq, if_neg hc, ← records_counted r c]
  cases r.place with
  | recordStart => exact first_of_not_ends hc
  | fieldStart => exact first_of_not_ends hc
  | field => exact plain_of_not_ends hc
  | quoted =>
    dsimp only
    split
    · exact ⟨by rintro ⟨⟩, rfl⟩
    · exact ⟨by rintro ⟨⟩, rfl⟩
  | quote =>
    dsimp only
    split
    · exact ⟨by rintro ⟨⟩, rfl⟩
    · exact plain_of_not_ends hc

/-- Every character is passed over, ends a row or belongs to one. -/
theorem reads (r : Reader) (c : Char) : r.Reads c := by
  by_cases hc : EndsRecord c
  · have hstep := step_of_ends (r := r) hc
    have hrecords := congrArg List.length (r.records_counted c)
    by_cases hstart : r.place = .recordStart
    · rw [hstart] at hstep
      exact .passed hc hstart (by rw [hstep, place_counted, hstart]) (by rw [hstep, hrecords])
    by_cases hquoted : r.place = .quoted
    · rw [hquoted] at hstep
      exact .kept (fun _ => hquoted) (by rw [hstep]; rintro ⟨⟩) (by rw [hstep]; exact hrecords)
    · have hended : r.step c = (r.counted c).endRecord := by
        rw [hstep]
        split
        · next h => exact absurd h hstart
        · next h => exact absurd h hquoted
        · rfl
      exact .ended hc ⟨hstart, hquoted⟩ (by rw [hended]; rfl) (by rw [hended]; exact congrArg (· + 1) hrecords)
  · obtain ⟨hplace, hrecords⟩ := step_of_not_ends (r := r) hc
    exact .kept (fun h => absurd h hc) hplace (congrArg List.length hrecords)

/-- A line begins in a quoted part when this line feed is read, since something stands behind it. -/
def beginsQuoted (r : Reader) (c : Char) (text : List Char) : Bool :=
  c = '\n' ∧ r.place = .quoted ∧ text ≠ []

/-- A record ends at this carriage return, in the middle of a line. -/
def endsWithinLine (r : Reader) (c : Char) (text : List Char) : Bool :=
  c = '\r' ∧ r.Open ∧ Text.goesOn text = true

/-- How many lines of the rest of a text begin in a quoted part. -/
def quotedLines (r : Reader) : List Char → Nat
  | [] => 0
  | c :: text => (r.beginsQuoted c text).toNat + (r.step c).quotedLines text

/-- How many records of the rest of a text end in the middle of a line. -/
def earlyEnds (r : Reader) : List Char → Nat
  | [] => 0
  | c :: text => (r.endsWithinLine c text).toNat + (r.step c).earlyEnds text

/-- The records that a rest of a text has by its lines: one for every line behind the one at hand, and one for that
line if the reader is inside a record or the line goes on. -/
def recordsDue (r : Reader) (text : List Char) : Nat :=
  Text.linesBehind text + if r.place = .recordStart then (Text.goesOn text).toNat else 1

/-- The records read and due change at a character by the line that begins in a quoted part and the record that ends
within a line. -/
def Balanced (r : Reader) (c : Char) (text : List Char) : Prop :=
  (r.step c).records.length + (r.step c).recordsDue text + (r.beginsQuoted c text).toNat =
    r.records.length + r.recordsDue (c :: text) + (r.endsWithinLine c text).toNat

theorem balanced_feed (h : Text.NoneBlankBehind ('\n' :: text)) : r.Balanced '\n' text := by
  have hlines : ∀ line ∈ Text.splitLines text, Text.isBlankLine line = false := h
  obtain ⟨hlength, hgoes⟩ := Text.length_splitLines hlines
  have hbehind : Text.linesBehind ('\n' :: text) = Text.linesBehind text + (Text.goesOn text).toNat := hlength
  have hhand : Text.goesOn ('\n' :: text) = false := rfl
  have hearly : r.endsWithinLine '\n' text = false := by simp [endsWithinLine]
  rw [Balanced, recordsDue, recordsDue, hbehind, hhand, hearly]
  cases r.reads '\n' with
  | passed _ hplace hafter hrecords => simp [beginsQuoted, hplace, hafter, hrecords]
  | ended _ hopen hafter hrecords =>
    have hbegins : r.beginsQuoted '\n' text = false := by simp [beginsQuoted, hopen.2]
    rw [if_pos hafter, if_neg hopen.1, hrecords, hbegins, Bool.toNat_false]
    omega
  | kept hquoted hafter hrecords =>
    have hplace := hquoted (.inr rfl)
    have hbegins : r.beginsQuoted '\n' text = Text.goesOn text := by
      rw [Bool.eq_iff_iff, hgoes]
      simp [beginsQuoted, hplace]
    rw [if_neg hafter, if_neg (by rw [hplace]; decide), hrecords, hbegins, Bool.toNat_false]
    omega

theorem balanced_of_ne (hfeed : c ≠ '\n') (r : Reader) (text : List Char) : r.Balanced c text := by
  have hbegins : r.beginsQuoted c text = false := by simp [beginsQuoted, hfeed]
  rw [Balanced, recordsDue, recordsDue, Text.linesBehind_other hfeed, hbegins]
  cases r.reads c with
  | passed hc hplace hafter hrecords =>
    obtain rfl : c = '\r' := hc.resolve_right hfeed
    have hearly : r.endsWithinLine '\r' text = false := by simp [endsWithinLine, hplace]
    rw [Text.goesOn_return, hearly, if_pos hafter, if_pos hplace, hrecords]
  | ended hc hopen hafter hrecords =>
    obtain rfl : c = '\r' := hc.resolve_right hfeed
    have hearly : r.endsWithinLine '\r' text = Text.goesOn text := by simp [endsWithinLine, hopen.1, hopen.2]
    rw [hearly, if_pos hafter, if_neg hopen.1, hrecords, Bool.toNat_false]
    omega
  | kept hquoted hafter hrecords =>
    have hearly : r.endsWithinLine c text = false := by
      rw [endsWithinLine, decide_eq_false_iff_not]
      exact fun hends => hends.2.1.2 (hquoted (.inl hends.1))
    have hhand : (if r.place = .recordStart then (Text.goesOn (c :: text)).toNat else 1) = 1 := by
      split
      · next hplace =>
        have hreturn : c ≠ '\r' := fun hc => by cases hplace.symm.trans (hquoted (.inl hc))
        rw [Text.goesOn_other hreturn hfeed, Bool.toNat_true]
      · rfl
    rw [hearly, hhand, if_neg hafter, hrecords]

theorem length_finish (r : Reader) :
    r.finish.length = r.records.length + if r.place = .recordStart then 0 else 1 := by
  rw [finish]
  split
  · next hplace => rw [if_pos hplace, List.length_reverse, Nat.add_zero]
  · next hplace =>
    rw [if_neg hplace, List.length_reverse]
    rfl

/-- What is read of a text has a record for every line, except where a line begins in a quoted part, and one more for
every record that ends within a line. -/
theorem length_finish_foldl (h : Text.NoneBlankBehind text) :
    (text.foldl step r).finish.length + r.quotedLines text =
      r.records.length + r.recordsDue text + r.earlyEnds text := by
  -- The reader is general: every character leaves another one to read the rest.
  induction text generalizing r with
  | nil =>
    have hlines : Text.linesBehind [] = 0 := rfl
    have hhand : (Text.goesOn []).toNat = 0 := rfl
    rw [List.foldl_nil, recordsDue, length_finish, hlines, hhand, Nat.zero_add]
    rfl
  | cons c text ih =>
    have hstep : r.Balanced c text := by
      rcases eq_or_ne c '\n' with rfl | hfeed
      · exact balanced_feed h
      · exact balanced_of_ne hfeed r text
    have hrest := ih (r := r.step c) h.of_cons
    rw [Balanced] at hstep
    rw [List.foldl_cons, quotedLines, earlyEnds]
    omega

theorem unquoted_step (hr : r.Unquoted) (hquote : c ≠ '"') : (r.step c).Unquoted := by
  by_cases hc : EndsRecord c
  · rw [step_of_ends hc]
    split
    · rwa [Unquoted, place_counted]
    · next hplace => exact absurd hplace hr.1
    · exact ⟨by rintro ⟨⟩, by rintro ⟨⟩⟩
  · rw [step_plain hr hquote (fun h => hc (.inl h)) (fun h => hc (.inr h))]
    split
    · exact ⟨by rintro ⟨⟩, by rintro ⟨⟩⟩
    · exact ⟨by rintro ⟨⟩, by rintro ⟨⟩⟩

/-- Without quotation marks no line end is swallowed by a field. -/
theorem quotedLines_eq_zero (hr : r.Unquoted) (hquote : '"' ∉ text) : r.quotedLines text = 0 := by
  induction text generalizing r with
  | nil => rfl
  | cons c text ih =>
    rw [List.mem_cons, not_or] at hquote
    have hbegins : r.beginsQuoted c text = false := by simp [beginsQuoted, hr.1]
    rw [quotedLines, hbegins, ih (unquoted_step hr (Ne.symm hquote.1)) hquote.2]
    rfl

/-- Without a lone carriage return no row ends before its line does. -/
theorem earlyEnds_eq_zero (hreturn : Text.ReturnsBeforeFeeds text) : r.earlyEnds text = 0 := by
  induction text generalizing r with
  | nil => rfl
  | cons c text ih =>
    have hends : r.endsWithinLine c text = false := by
      rw [endsWithinLine, decide_eq_false_iff_not]
      rintro ⟨rfl, -, hgoes⟩
      have hnext : text[0]? = some '\n' := hreturn 0 rfl
      cases text with
      | nil => cases hnext
      | cons d text =>
        obtain rfl : d = '\n' := Option.some.inj hnext
        cases hgoes
    have happend : Text.ReturnsBeforeFeeds ([c] ++ text) := hreturn
    rw [earlyEnds, hends, ih happend.of_append]
    rfl

end Reader

variable {text : List Char}

def quotedLines (text : List Char) : Nat := Reader.initial.quotedLines (dropMark text)

def earlyEnds (text : List Char) : Nat := Reader.initial.earlyEnds (dropMark text)

/-- Whether nothing but the mark of the byte order stands on the first line of a text. -/
def bareMark (text : List Char) : Bool := text.head? = some '\ufeff' ∧ Text.goesOn text.tail = false

/-- A text without blank lines has a record for every line, except for lines that begin in a quoted part or hold
nothing but the mark, and one more for every record that ends in the middle of a line. -/
theorem length_read (h : ∀ line ∈ Text.splitLines text, Text.isBlankLine line = false) :
    (read text).length + quotedLines text + (bareMark text).toNat =
      (Text.splitLines text).length + earlyEnds text := by
  have hread (rest : List Char) (hrest : Text.NoneBlankBehind rest) :
      (rest.foldl Reader.step Reader.initial).finish.length + Reader.initial.quotedLines rest =
        Text.linesBehind rest + (Text.goesOn rest).toNat + Reader.initial.earlyEnds rest := by
    rw [Reader.length_finish_foldl hrest, Reader.recordsDue, if_pos (show Reader.initial.place = .recordStart from rfl)]
    show 0 + _ + _ = _
    omega
  have hbehind : Text.NoneBlankBehind text := fun line hline => h line (List.mem_of_mem_tail hline)
  rw [read, quotedLines, earlyEnds, (Text.length_splitLines h).1]
  by_cases hmark : text.head? = some '\ufeff'
  · obtain ⟨rest, rfl⟩ : ∃ rest, text = '\ufeff' :: rest := by
      cases text with
      | nil => cases hmark
      | cons c rest => exact ⟨rest, by rw [Option.some.inj hmark]⟩
    have hbare : (bareMark ('\ufeff' :: rest)).toNat + (Text.goesOn rest).toNat = 1 := by
      cases hgoes : Text.goesOn rest <;> simp [bareMark, hgoes]
    have hmarked : Text.goesOn ('\ufeff' :: rest) = true := Text.goesOn_other (by decide) (by decide) rest
    have hrest := hread rest hbehind.of_cons
    rw [hmarked, Text.linesBehind_other (by decide), Bool.toNat_true]
    show (rest.foldl Reader.step Reader.initial).finish.length + Reader.initial.quotedLines rest + _ =
      _ + Reader.initial.earlyEnds rest
    omega
  · have hbare : bareMark text = false := by simp [bareMark, hmark]
    rw [dropMark_of_ne hmark, hbare, Bool.toNat_false, Nat.add_zero]
    exact hread text hbehind

end Csv

end PackageTriage
