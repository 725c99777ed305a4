import PackageTriage.Csv.Reading
import PackageTriage.Proofs.Text.Rows

/-!
# Records of plain rows

Without quotes a row is one record, and its fields are what the commas in it part. At the end of the row, whether
it is a line feed, a carriage return with a line feed or the end of the text, the reader stands between two records
again, and has one more of them.
-/

namespace PackageTriage.Csv

namespace Reader

structure Between (r : Reader) : Prop where
  place : r.place = .recordStart
  field : r.field = []
  fields : r.fields = []

def Unquoted (r : Reader) : Prop := r.place ≠ .quoted ∧ r.place ≠ .quote

/-- The fields of the unfinished record, the unfinished one included. -/
def pieces (r : Reader) : List (List Char) := (r.field.reverse :: r.fields).reverse

def finished (r : Reader) (line start : Nat) (fields : List (List Char)) : Reader where
  place := .recordStart
  line := line
  start := start
  field := []
  fields := []
  records := ⟨r.start, fields⟩ :: r.records

variable {r : Reader} {row rest : List Char}

theorem between_finished (line start : Nat) (fields : List (List Char)) :
    (r.finished line start fields).Between := ⟨rfl, rfl, rfl⟩

/-- Outside quoted parts a character that is neither a quote nor the end of a row is read as it stands. -/
theorem step_plain (hr : r.Unquoted) {c : Char} (hquote : c ≠ '"') (hreturn : c ≠ '\r') (hfeed : c ≠ '\n') :
    r.step c = if c = ',' then { r.endField with place := .fieldStart } else r.keep .field c := by
  have hplain : r.plain c = if c = ',' then { r.endField with place := .fieldStart } else r.keep .field c := by
    rw [plain, if_neg (not_or.2 ⟨hreturn, hfeed⟩)]
  have hfirst : r.first c = r.plain c := if_neg hquote
  rw [step, if_neg hfeed, ← hplain]
  split
  · rw [if_neg (not_or.2 ⟨hreturn, hfeed⟩), hfirst]
  · exact hfirst
  · rfl
  · next hplace => exact absurd hplace hr.1
  · next hplace => exact absurd hplace hr.2

/-- In a row the reader only goes on with the fields of its record: the first piece of the row belongs to the
field at hand. -/
theorem foldl_step_row (hr : r.Unquoted) (hrow : Text.Unbroken row) (hquote : '"' ∉ row) :
    ∃ place field fields, row.foldl step r = { r with place, field, fields } ∧
      Unquoted { r with place, field, fields } ∧ (row ≠ [] → place ≠ .recordStart) ∧
      pieces { r with place, field, fields } =
        r.fields.reverse ++ (row.splitOn ',').modifyHead (r.field.reverse ++ ·) := by
  induction row generalizing r with
  | nil =>
    refine ⟨r.place, r.field, r.fields, rfl, hr, absurd rfl, ?_⟩
    rw [pieces, List.reverse_cons, List.splitOn_nil, List.modifyHead_cons, List.append_nil]
  | cons c row ih =>
    obtain ⟨hreturn, hfeed⟩ := hrow
    rw [List.mem_cons, not_or] at hquote hreturn hfeed
    rw [List.foldl_cons, step_plain hr (Ne.symm hquote.1) (Ne.symm hreturn.1) (Ne.symm hfeed.1)]
    rw [List.splitOn_cons_eq_if_modifyHead]
    simp only [beq_iff_eq]
    by_cases hc : c = ','
    · rw [if_pos hc, if_pos hc]
      have hr' : Unquoted { r.endField with place := .fieldStart } := ⟨nofun, nofun⟩
      obtain ⟨place, field, fields, hfold, hunquoted, hplace, hpieces⟩ := ih hr' ⟨hreturn.2, hfeed.2⟩ hquote.2
      refine ⟨place, field, fields, hfold, hunquoted, fun _ => ?_, hpieces.trans ?_⟩
      · rcases eq_or_ne row [] with rfl | hne
        · obtain rfl : Place.fieldStart = place := congrArg Reader.place hfold
          nofun
        · exact hplace hne
      · show (r.field.reverse :: r.fields).reverse ++ (row.splitOn ',').modifyHead ([] ++ ·) = _
        rw [List.reverse_cons, List.append_assoc, List.modifyHead_cons, List.append_nil]
        exact congrArg (r.fields.reverse ++ r.field.reverse :: ·) (List.modifyHead_id ▸ rfl)
    · rw [if_neg hc, if_neg hc]
      have hr' : Unquoted (r.keep .field c) := ⟨nofun, nofun⟩
      obtain ⟨place, field, fields, hfold, hunquoted, hplace, hpieces⟩ := ih hr' ⟨hreturn.2, hfeed.2⟩ hquote.2
      refine ⟨place, field, fields, hfold, hunquoted, fun _ => ?_, hpieces.trans ?_⟩
      · rcases eq_or_ne row [] with rfl | hne
        · obtain rfl : Place.field = place := congrArg Reader.place hfold
          nofun
        · exact hplace hne
      · show r.fields.reverse ++ (row.splitOn ',').modifyHead ((c :: r.field).reverse ++ ·) = _
        rw [List.modifyHead_modifyHead, List.reverse_cons]
        congr 2
        funext piece
        exact List.append_assoc _ _ _

section

variable (hr : r.Between) (hrow : Text.Unbroken row) (hne : row ≠ []) (hquote : '"' ∉ row)

include hr hrow hne hquote

/-- A row is read from between two records into a record of its own. -/
theorem exists_foldl_step_row : ∃ place field fields, row.foldl step r = { r with place, field, fields } ∧
    (place = .fieldStart ∨ place = .field) ∧ pieces { r with place, field, fields } = row.splitOn ',' := by
  have hunquoted : r.Unquoted := by
    rw [Unquoted, hr.place]
    exact ⟨nofun, nofun⟩
  obtain ⟨place, field, fields, hfold, hunquoted', hplace, hpieces⟩ := foldl_step_row hunquoted hrow hquote
  refine ⟨place, field, fields, hfold, ?_, hpieces.trans ?_⟩
  · cases place with
    | recordStart => exact absurd rfl (hplace hne)
    | quoted => exact absurd rfl hunquoted'.1
    | quote => exact absurd rfl hunquoted'.2
    | fieldStart => exact .inl rfl
    | field => exact .inr rfl
  · rw [hr.fields, hr.field]
    exact List.modifyHead_id ▸ rfl

/-- A row without quotes or line ends, and the feed behind it, make one record. -/
theorem foldl_step_feed (rest : List Char) :
    (row ++ '\n' :: rest).foldl step r = rest.foldl step (r.finished (r.line + 1) (r.line + 1) (row.splitOn ',')) := by
  obtain ⟨place, field, fields, hfold, hplace, hpieces⟩ := exists_foldl_step_row hr hrow hne hquote
  rw [List.foldl_append, List.foldl_cons, hfold, ← hpieces]
  congr 1
  obtain rfl | rfl := hplace
  · rfl
  · rfl

/-- The line feed behind the carriage return is counted when the next record has already begun. -/
theorem foldl_step_returnFeed (rest : List Char) :
    (row ++ '\r' :: '\n' :: rest).foldl step r =
      rest.foldl step (r.finished (r.line + 1) r.line (row.splitOn ',')) := by
  obtain ⟨place, field, fields, hfold, hplace, hpieces⟩ := exists_foldl_step_row hr hrow hne hquote
  rw [List.foldl_append, List.foldl_cons, List.foldl_cons, hfold, ← hpieces]
  congr 1
  obtain rfl | rfl := hplace
  · rfl
  · rfl

theorem finish_foldl_step : (row.foldl step r).finish = (⟨r.start, row.splitOn ','⟩ :: r.records).reverse := by
  obtain ⟨place, field, fields, hfold, hplace, hpieces⟩ := exists_foldl_step_row hr hrow hne hquote
  rw [hfold, ← hpieces]
  obtain rfl | rfl := hplace
  · rfl
  · rfl

end

/-- The records of lines without quotes. The first line has the number `line`, its record the number `start`. Behind
a carriage return a record has the number of the line before: the line feed is counted when it has already begun. -/
def recordsOf (line start : Nat) : (lines : List (List Char)) → List Record
  | [] => []
  | l :: lines => ⟨start, (Text.dropReturn l).splitOn ','⟩ ::
      recordsOf (line + 1) (if l.getLast? = some '\r' then line else line + 1) lines

/-- The records of plain lines are the lines cut at their commas. -/
theorem fields_recordsOf (line start : Nat) (lines : List (List Char)) :
    (recordsOf line start lines).map (·.fields) = (lines.map Text.dropReturn).map (·.splitOn ',') := by
  induction lines generalizing line start with
  | nil => rfl
  | cons l lines ih => rw [recordsOf, List.map_cons, ih, List.map_cons, List.map_cons]

/-- A record has the number of its line if the line before is ended by a line feed alone. -/
theorem line_recordsOf {line start k : Nat} {lines : List (List Char)} {record : Record}
    (hrecord : (recordsOf line start lines)[k]? = some record) (hstart : k = 0 → start = line)
    (hbefore : ∀ before ∈ (lines.take k).getLast?, before.getLast? ≠ some '\r') : record.line = line + k := by
  induction lines generalizing line start k with
  | nil => cases hrecord
  | cons l lines ih =>
    cases k with
    | zero =>
      obtain rfl : _ = record := Option.some.inj hrecord
      exact hstart rfl
    | succ k =>
      rw [recordsOf, List.getElem?_cons_succ] at hrecord
      rw [List.take_succ_cons, List.getLast?_cons] at hbefore
      rw [ih hrecord, Nat.add_right_comm, Nat.add_assoc]
      · rintro rfl
        exact if_neg (hbefore l rfl)
      · intro before hmem
        refine hbefore before ?_
        rw [Option.mem_def.1 hmem]
        rfl

/-- The records of a text of plain rows, behind those that were read before it. -/
theorem finish_eq {text : List Char} {rows : List (List Char)} (htext : Text.MadeOf text rows)
    (hr : r.Between) (hblank : [] ∉ rows) (hquote : '"' ∉ text) :
    (text.foldl step r).finish = r.records.reverse ++ recordsOf r.line r.start (Text.splitLines text) := by
  induction htext generalizing r with
  | nil => rw [List.foldl_nil, finish, hr.place, Text.splitLines_nil, recordsOf, List.append_nil]
  | @last row hrow hne =>
    rw [finish_foldl_step hr hrow hne hquote, Text.splitLines_of_not_mem hrow.no_feed hne, recordsOf, recordsOf,
      hrow.dropReturn_eq, List.reverse_cons]
  | @feed row text rows hrow _ ih =>
    simp only [List.mem_append, List.mem_cons, not_or] at hquote hblank
    have hlast : row.getLast? ≠ some '\r' := fun h => hrow.no_return (List.mem_of_getLast? h)
    rw [foldl_step_feed hr hrow (Ne.symm hblank.1) hquote.1, ih (between_finished _ _ _) hblank.2 hquote.2.2,
      Text.splitLines_append hrow.no_feed, recordsOf, hrow.dropReturn_eq, if_neg hlast]
    simp [finished]
  | @returnFeed row text rows hrow _ ih =>
    simp only [List.mem_append, List.mem_cons, not_or] at hquote hblank
    have hfeed : '\n' ∉ row ++ ['\r'] := by simpa using hrow.no_feed
    rw [foldl_step_returnFeed hr hrow (Ne.symm hblank.1) hquote.1, ih (between_finished _ _ _) hblank.2 hquote.2.2.2,
      List.append_cons, Text.splitLines_append hfeed, recordsOf, Text.dropReturn_concat,
      if_pos List.getLast?_concat]
    simp [finished]

end Reader

theorem dropMark_of_ne {text : List Char} (h : text.head? ≠ some '\ufeff') : dropMark text = text := by
  cases text with
  | nil => rfl
  | cons c text =>
    rw [dropMark.eq_def]
    split
    · next heq => exact absurd (congrArg some (List.cons.inj heq).1) h
    · rfl

section

variable {text : List Char} {rows : List (List Char)} (htext : Text.MadeOf text rows) (hblank : [] ∉ rows)
  (hquote : '"' ∉ text) (hmark : text.head? ≠ some '\ufeff')

include htext hblank hquote hmark

/-- A text of plain rows, none of them empty, has a record for every line. -/
theorem read_eq : read text = Reader.recordsOf 1 1 (Text.splitLines text) := by
  rw [read, dropMark_of_ne hmark, Reader.finish_eq htext ⟨rfl, rfl, rfl⟩ hblank hquote]
  rfl

/-- The fields of the records are what the commas part. -/
theorem fields_read : (read text).map (·.fields) = rows.map (·.splitOn ',') := by
  rw [read_eq htext hblank hquote hmark, Reader.fields_recordsOf, ← Text.rowsOf, htext.splitLines_eq.1]

end

end PackageTriage.Csv
