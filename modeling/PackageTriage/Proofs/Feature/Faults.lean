import PackageTriage.Proofs.Feature.Grammar

/-!
# The fault that is reported

A malformed text is reported by one of its rows. Blank rows come first: the first of them is the fault, whatever
stands before it. If no row is blank it is the first row of another number of fields than two, and it is found by its
own number wherever the line before it is ended by a line feed alone.
-/

namespace PackageTriage

namespace FeatureFile

variable {text : List Char} {rows : List (List Char)} {k : Nat}

/-- The number of fields of a row: a blank row has none. -/
def fieldCount (row : List Char) : Nat := if row.isEmpty then 0 else (row.splitOn ',').length

def isMalformed (row : List Char) : Bool := fieldCount row != 2

/-- No line stands before the row, or one that is ended by a line feed alone. -/
def BehindFeed (text : List Char) (k : Nat) : Prop :=
  ∀ before ∈ ((Text.splitLines text).take k).getLast?, before.getLast? ≠ some '\r'

instance (text : List Char) (k : Nat) : Decidable (BehindFeed text k) :=
  match h : ((Text.splitLines text).take k).getLast? with
  | none => isTrue fun _ hmem => by rw [h] at hmem; cases hmem
  | some before =>
    decidable_of_iff (before.getLast? ≠ some '\r')
      ⟨fun hne _ hmem => Option.some.inj (h.symm.trans hmem) ▸ hne, fun hall => hall before h⟩

theorem fieldCount_of_ne_nil {row : List Char} (h : row ≠ []) : fieldCount row = (row.splitOn ',').length :=
  if_neg (mt List.isEmpty_iff.1 h)

/-- A text with blank rows is reported by the first of them. -/
theorem parse_of_blank (path : String) (htext : Text.MadeOf text rows) (hblank : rows.findIdx? List.isEmpty = some k) :
    parse path text = .error (.malformedRow path (k + 1) 0) := by
  rw [parse, blankLine?_eq htext, hblank]
  rfl

section

variable (htext : Text.MadeOf text rows) (hblank : [] ∉ rows) (hquote : '"' ∉ text)
  (hmark : text.head? ≠ some '\ufeff')

include htext hblank hquote hmark

/-- The record of a row has its fields. -/
theorem exists_record {row : List Char} (hrow : rows[k]? = some row) :
    ∃ record, (Csv.read text)[k]? = some record ∧ record.fields.length = fieldCount row := by
  have hfields : ((Csv.read text).map (·.fields))[k]? = some (row.splitOn ',') := by
    rw [Csv.fields_read htext hblank hquote hmark, List.getElem?_map, hrow]
    rfl
  rw [List.getElem?_map, Option.map_eq_some_iff] at hfields
  obtain ⟨record, hrecord, heq⟩ := hfields
  exact ⟨record, hrecord, by rw [heq, fieldCount_of_ne_nil fun hnil => hblank (hnil ▸ List.mem_of_getElem? hrow)]⟩

/-- A text without blank rows is reported by the first one that is malformed. -/
theorem parse_of_malformed (path : String) (hfirst : rows.findIdx? isMalformed = some k) :
    ∃ line, parse path text = .error (.malformedRow path line (fieldCount (rows.getD k []))) ∧
      (BehindFeed text k → line = k + 1) := by
  have hnone : blankLine? text = none := by
    rw [blankLine?_eq htext, Option.map_eq_none_iff, List.findIdx?_eq_none_iff]
    intro row hrow
    exact List.isEmpty_eq_false_iff.2 fun hnil => hblank (hnil ▸ hrow)
  obtain ⟨hk, hbad, hgood⟩ := List.findIdx?_eq_some_iff_getElem.1 hfirst
  obtain ⟨record, hrecord, hcount⟩ := exists_record htext hblank hquote hmark (List.getElem?_eq_getElem hk)
  have hfails : value path record = .error (.malformedRow path record.line (fieldCount (rows.getD k []))) := by
    rw [value_eq, if_neg (by rw [hcount]; simpa [isMalformed] using hbad), hcount, List.getD_eq_getElem _ _ hk]
  have hbefore : ∀ i < k, ∀ r, (Csv.read text)[i]? = some r → ∃ v, value path r = .ok v := by
    intro i hi r hr
    obtain ⟨r', hr', hfields⟩ :=
      exists_record htext hblank hquote hmark (List.getElem?_eq_getElem (hi.trans hk))
    obtain rfl : r = r' := Option.some.inj (hr.symm.trans hr')
    exact ⟨_, by rw [value_eq, if_pos (by rw [hfields]; simpa [isMalformed] using hgood i hi)]⟩
  refine ⟨record.line, ?_, fun hfeed => ?_⟩
  · rw [parse, hnone]
    exact mapM_eq_error_of_first hrecord hfails hbefore
  · rw [Csv.read_eq htext hblank hquote hmark] at hrecord
    rw [Csv.Reader.line_recordsOf hrecord (fun _ => rfl) hfeed, Nat.add_comm]

end

/-- A malformed text without quotes, in which carriage returns stand only before line feeds, is reported by its first
blank row. If no row is blank, it is the first malformed row, with the number of its fields, and with its own number
unless a carriage return stands before the line feed in front of it. -/
theorem read_first_fault {path text : String} {d : Disk} (hfile : d.bytes? path = some text.toUTF8.toList)
    (hquote : '"' ∉ text.toList) (hmark : text.toList.head? ≠ some '\ufeff')
    (hreturn : Text.ReturnsBeforeFeeds text.toList)
    (hfirst : (Text.rowsOf text.toList).findIdx? isMalformed = some k) :
    (∀ b, (Text.rowsOf text.toList).findIdx? List.isEmpty = some b →
      (FeatureFile.read path).on d = (.error (.malformedRow path (b + 1) 0), d)) ∧
    ([] ∉ Text.rowsOf text.toList →
      ∃ line, (FeatureFile.read path).on d =
        (.error (.malformedRow path line (fieldCount ((Text.rowsOf text.toList).getD k []))), d) ∧
        (BehindFeed text.toList k → line = k + 1)) := by
  have htext := hreturn.madeOf
  rw [on_read hfile]
  refine ⟨fun b hb => ?_, fun hblank => ?_⟩
  · rw [parse_of_blank path htext hb]
  · obtain ⟨line, hparse, hline⟩ := parse_of_malformed htext hblank hquote hmark path hfirst
    exact ⟨line, by rw [hparse], hline⟩

end FeatureFile

/-- A disk with three malformed files: the rows of `p` have two, one and three fields, `q` has a blank row behind one
of one field, and in `r` the row of one field stands behind a carriage return and a line feed. -/
def Disk.malformedFiles : Disk where
  entries := [(["home", "p"], .file "f,1\ng\nh,2,3\n".toUTF8.toList), (["home", "q"], .file "f\n\n".toUTF8.toList),
    (["home", "r"], .file "f,1\r\ng".toUTF8.toList), (["home"], .directory)]
  home := ["home"]

namespace FeatureFile

/-- The second row of one file is reported, and the blank one of another. -/
theorem read_first_fault_two :
    Disk.malformedFiles.bytes? "p" = some "f,1\ng\nh,2,3\n".toUTF8.toList ∧
    '"' ∉ "f,1\ng\nh,2,3\n".toList ∧ "f,1\ng\nh,2,3\n".toList.head? ≠ some '\ufeff' ∧
    Text.ReturnsBeforeFeeds "f,1\ng\nh,2,3\n".toList ∧
    (Text.rowsOf "f,1\ng\nh,2,3\n".toList).findIdx? isMalformed = some 1 ∧
    (FeatureFile.read "p").on .malformedFiles = (.error (.malformedRow "p" 2 1), .malformedFiles) ∧
    Disk.malformedFiles.bytes? "q" = some "f\n\n".toUTF8.toList ∧
    (FeatureFile.read "q").on .malformedFiles = (.error (.malformedRow "q" 2 0), .malformedFiles) := by
  have hp : Disk.malformedFiles.bytes? "p" = some "f,1\ng\nh,2,3\n".toUTF8.toList := by decide +kernel
  have hq : Disk.malformedFiles.bytes? "q" = some "f\n\n".toUTF8.toList := by decide +kernel
  have hquote : '"' ∉ "f,1\ng\nh,2,3\n".toList := by decide +kernel
  have hmark : "f,1\ng\nh,2,3\n".toList.head? ≠ some '\ufeff' := by decide +kernel
  have hreturn : Text.ReturnsBeforeFeeds "f,1\ng\nh,2,3\n".toList := by decide +kernel
  have hfirst : (Text.rowsOf "f,1\ng\nh,2,3\n".toList).findIdx? isMalformed = some 1 := by decide +kernel
  have hcount : fieldCount ((Text.rowsOf "f,1\ng\nh,2,3\n".toList).getD 1 []) = 1 := by decide +kernel
  obtain ⟨line, hread, hline⟩ := (read_first_fault hp hquote hmark hreturn hfirst).2 (by decide +kernel)
  obtain rfl : line = 2 := hline (by decide +kernel)
  rw [hcount] at hread
  exact ⟨hp, hquote, hmark, hreturn, hfirst, hread, hq,
    (read_first_fault hq (by decide +kernel) (by decide +kernel) (by decide +kernel)
      (show (Text.rowsOf "f\n\n".toList).findIdx? isMalformed = some 0 by decide +kernel)).1 1 (by decide +kernel)⟩

/-- The first malformed row is not always the one that is reported: a blank row behind it is, and behind a carriage
return and a line feed it is taken to be on the line before. -/
theorem misses_first_fault :
    (Disk.malformedFiles.bytes? "q" = some "f\n\n".toUTF8.toList ∧
      '"' ∉ "f\n\n".toList ∧ "f\n\n".toList.head? ≠ some '\ufeff' ∧ Text.ReturnsBeforeFeeds "f\n\n".toList ∧
      (Text.rowsOf "f\n\n".toList).findIdx? isMalformed = some 0 ∧
      (FeatureFile.read "q").on .malformedFiles = (.error (.malformedRow "q" 2 0), .malformedFiles)) ∧
    Disk.malformedFiles.bytes? "r" = some "f,1\r\ng".toUTF8.toList ∧
      '"' ∉ "f,1\r\ng".toList ∧ "f,1\r\ng".toList.head? ≠ some '\ufeff' ∧
      Text.ReturnsBeforeFeeds "f,1\r\ng".toList ∧
      (Text.rowsOf "f,1\r\ng".toList).findIdx? isMalformed = some 1 ∧
      (FeatureFile.read "r").on .malformedFiles = (.error (.malformedRow "r" 1 1), .malformedFiles) := by
  have hq : Disk.malformedFiles.bytes? "q" = some "f\n\n".toUTF8.toList := by decide +kernel
  have hr : Disk.malformedFiles.bytes? "r" = some "f,1\r\ng".toUTF8.toList := by decide +kernel
  have hblank : parse "q" "f\n\n".toList = .error (.malformedRow "q" 2 0) := by decide +kernel
  have hreturn : parse "r" "f,1\r\ng".toList = .error (.malformedRow "r" 1 1) := by decide +kernel
  refine ⟨⟨hq, ?_, ?_, ?_, ?_, ?_⟩, hr, ?_, ?_, ?_, ?_, ?_⟩
  · decide +kernel
  · decide +kernel
  · decide +kernel
  · decide +kernel
  · rw [on_read hq, hblank]
  · decide +kernel
  · decide +kernel
  · decide +kernel
  · decide +kernel
  · rw [on_read hr, hreturn]

end FeatureFile

end PackageTriage
