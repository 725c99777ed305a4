import PackageTriage.Proofs.Bytes.Lawful
import PackageTriage.Proofs.Csv.Rows
import PackageTriage.Proofs.Sequences
import PackageTriage.Proofs.Storage.Slots

/-!
# The grammar of feature files

A text without quotes is read exactly if every row has one comma, and then the values are what stands behind the
commas, row by row. The search for blank lines and the reader of records see the same rows there: a blank row has no
comma, and where no row is blank each is one record.
-/

namespace PackageTriage

namespace FeatureFile

variable {row : List Char}

def behindComma (row : List Char) : List Char := (row.dropWhile (· != ',')).tail

theorem length_splitOn (row : List Char) : (row.splitOn ',').length = row.count ',' + 1 := by
  induction row with
  | nil => rfl
  | cons c row ih =>
    rw [List.splitOn_cons_eq_if_modifyHead, List.count_cons]
    split
    · rw [List.length_cons, ih]
    · rw [List.length_modifyHead, ih, Nat.add_zero]

theorem splitOn_of_count (h : row.count ',' = 1) : ∃ name, row.splitOn ',' = [name, behindComma row] := by
  have hmem : ',' ∈ row := List.count_pos_iff.1 (by omega)
  have hsplit : row = row.takeWhile (· != ',') ++ row.dropWhile (· != ',') := List.takeWhile_append_dropWhile.symm
  have hname : ',' ∉ row.takeWhile (· != ',') := by
    intro hcomma
    simpa using List.mem_takeWhile_imp hcomma
  cases hrest : row.dropWhile (· != ',') with
  | nil =>
    rw [hrest, List.append_nil] at hsplit
    exact absurd (hsplit ▸ hmem) hname
  | cons c value =>
    obtain rfl : c = ',' := by
      have hhead := List.head?_dropWhile_not (· != ',') row
      simpa [hrest] using hhead
    have hbehind : behindComma row = value := by rw [behindComma, hrest, List.tail_cons]
    rw [hrest] at hsplit
    have hvalue : ',' ∉ value := by
      rw [hsplit, List.count_append, List.count_cons_self, List.count_eq_zero_of_not_mem hname] at h
      exact List.count_eq_zero.1 (by omega)
    refine ⟨row.takeWhile (· != ','), ?_⟩
    rw [hbehind]
    conv_lhs => rw [hsplit]
    rw [List.splitOn_append_cons_self_of_not_mem hname, List.splitOn_eq_singleton hvalue]

/-- A record of two fields is a value, and no other is one. -/
theorem value_eq (path : String) (r : Csv.Record) : value path r =
    if r.fields.length = 2 then .ok (.parse (String.ofList (r.fields.getD 1 [])))
    else .error (.malformedRow path r.line r.fields.length) := by
  obtain ⟨line, fields⟩ := r
  match fields with
  | [_, _] => rfl
  | [] => rfl
  | [_] => rfl
  | _ :: _ :: _ :: fields => rfl

variable {text : List Char} {rows : List (List Char)}

/-- The first blank line is a row on which nothing stands. -/
theorem blankLine?_eq (htext : Text.MadeOf text rows) : blankLine? text = (rows.findIdx? List.isEmpty).map (· + 1) := by
  have hfind : ∀ {β : Type} (p : β → Bool) (bs : List β), bs.findIdx? p = (bs.map p).findIdx? id := by
    intro β p bs
    rw [List.findIdx?_map]
    rfl
  rw [blankLine?, hfind, htext.splitLines_eq.2, ← hfind]

/-- With one comma in every row the values are what stands behind the commas. -/
theorem parse_of_count (path : String) (htext : Text.MadeOf text rows) (hquote : '"' ∉ text)
    (hmark : text.head? ≠ some '\ufeff') (hcount : ∀ row ∈ rows, row.count ',' = 1) :
    parse path text = .ok (rows.map fun row => .parse (String.ofList (behindComma row))) := by
  have hne : [] ∉ rows := fun hmem => by simpa using hcount [] hmem
  have hblank : blankLine? text = none := by
    rw [blankLine?_eq htext, Option.map_eq_none_iff, List.findIdx?_eq_none_iff]
    intro row hrow
    exact List.isEmpty_eq_false_iff.2 fun hnil => hne (hnil ▸ hrow)
  have hfields := Csv.fields_read htext hne hquote hmark
  have hvalue : ∀ r ∈ Csv.read text, value path r = .ok (.parse (String.ofList (r.fields.getD 1 []))) := by
    intro r hr
    have hmem : r.fields ∈ rows.map (·.splitOn ',') := hfields ▸ List.mem_map_of_mem hr
    obtain ⟨row, hrow, heq⟩ := List.mem_map.1 hmem
    rw [value_eq, if_pos (by rw [← heq, length_splitOn, hcount row hrow])]
  rw [parse, hblank]
  show (Csv.read text).mapM (value path) = _
  rw [mapM_eq_ok_map hvalue]
  have hmap : (Csv.read text).map (fun r => FeatureValue.parse (String.ofList (r.fields.getD 1 []))) =
      ((Csv.read text).map (·.fields)).map fun fields => .parse (String.ofList (fields.getD 1 [])) := by
    rw [List.map_map]
    rfl
  rw [hmap, hfields, List.map_map]
  refine congrArg Except.ok (List.map_congr_left fun row hrow => ?_)
  obtain ⟨name, hsplit⟩ := splitOn_of_count (hcount row hrow)
  rw [Function.comp_apply, hsplit]
  rfl

/-- A row with no comma or more than one makes the text malformed. -/
theorem exists_parse_eq_error (path : String) (htext : Text.MadeOf text rows) (hquote : '"' ∉ text)
    (hmark : text.head? ≠ some '\ufeff') (hcount : ∃ row ∈ rows, row.count ',' ≠ 1) :
    ∃ line fields, parse path text = .error (.malformedRow path line fields) := by
  rw [parse]
  cases hblank : blankLine? text with
  | some line => exact ⟨line, 0, rfl⟩
  | none =>
    have hne : [] ∉ rows := by
      rw [blankLine?_eq htext, Option.map_eq_none_iff, List.findIdx?_eq_none_iff] at hblank
      intro hmem
      exact Bool.noConfusion (hblank [] hmem)
    have hfields := Csv.fields_read htext hne hquote hmark
    obtain ⟨row, hrow, hone⟩ := hcount
    have hmem : row.splitOn ',' ∈ (Csv.read text).map (·.fields) := hfields ▸ List.mem_map_of_mem hrow
    obtain ⟨r, hr, heq⟩ := List.mem_map.1 hmem
    have hfails : value path r = .error (.malformedRow path r.line r.fields.length) := by
      rw [value_eq, if_neg]
      rw [heq, length_splitOn]
      omega
    obtain ⟨before, first, behind, e, -, -, hfirst, hall⟩ := exists_first_error ⟨r, hr, _, hfails⟩
    rw [value_eq] at hfirst
    split at hfirst
    · cases hfirst
    · cases hfirst
      exact ⟨_, _, hall⟩

/-- Reading a file is parsing the text that it holds. -/
theorem on_read {path text : String} {d : Disk} (hfile : d.bytes? path = some text.toUTF8.toList) :
    (FeatureFile.read path).on d = (parse path text.toList, d) := by
  have hthere : (Run.isFile path : Run (StateM Disk) Bool).on d = (.ok true, d) := by
    rw [Store.on_isFile, hfile]
    rfl
  have hbytes : (Run.readBytes path : Run (StateM Disk) (List UInt8)).on d = (.ok text.toUTF8.toList, d) := by
    rw [Store.on_readBytes, hfile]
  have htext : (Run.readText path : Run (StateM Disk) String).on d = (.ok text, d) := by
    rw [Run.readText, Run.on_bind_of_ok hbytes, LawfulLayout.fromUTF8?_toUTF8]
    rfl
  rw [FeatureFile.read, Run.on_bind_of_ok hthere]
  show (do Run.ofExcept (parse path (← Run.readText path).toList) : Run (StateM Disk) _).on d = _
  rw [Run.on_bind_of_ok htext]
  rfl

/-- A text without quotes in which carriage returns stand only before line feeds is read exactly if every row has
one comma, and the values are what stands behind the commas. If a row has none or more, it is malformed. -/
theorem read_rows {path text : String} {d : Disk} (hfile : d.bytes? path = some text.toUTF8.toList)
    (hquote : '"' ∉ text.toList) (hmark : text.toList.head? ≠ some '\ufeff')
    (hreturn : Text.ReturnsBeforeFeeds text.toList) :
    (∀ values, (FeatureFile.read path).on d = (.ok values, d) ↔
      (∀ row ∈ Text.rowsOf text.toList, row.count ',' = 1) ∧
        values = (Text.rowsOf text.toList).map fun row => .parse (String.ofList (behindComma row))) ∧
    ((∃ row ∈ Text.rowsOf text.toList, row.count ',' ≠ 1) →
      ∃ line fields, (FeatureFile.read path).on d = (.error (.malformedRow path line fields), d)) := by
  have htext := hreturn.madeOf
  rw [on_read hfile]
  by_cases hcount : ∀ row ∈ Text.rowsOf text.toList, row.count ',' = 1
  · rw [parse_of_count path htext hquote hmark hcount]
    refine ⟨fun values => ⟨fun hread => ⟨hcount, ?_⟩, fun hvalues => ?_⟩,
      fun ⟨row, hrow, hne⟩ => absurd (hcount row hrow) hne⟩
    · exact (Except.ok.inj (congrArg Prod.fst hread)).symm
    · rw [hvalues.2]
  · have hsome : ∃ row ∈ Text.rowsOf text.toList, row.count ',' ≠ 1 := by simpa using hcount
    obtain ⟨line, fields, hfails⟩ := exists_parse_eq_error path htext hquote hmark hsome
    rw [hfails]
    exact ⟨fun values => by simp [hcount], fun _ => ⟨line, fields, rfl⟩⟩

end FeatureFile

def Disk.twoFiles : Disk where
  entries := [(["home", "p"], .file "f,true\r\n,\ng,no".toUTF8.toList),
    (["home", "q"], .file "f,1\r\n\r\ng,2\n".toUTF8.toList), (["home"], .directory)]
  home := ["home"]

/-- Of two files one is read, each row ended in another way, and one is malformed. -/
theorem FeatureFile.read_rows_three :
    Disk.twoFiles.bytes? "p" = some "f,true\r\n,\ng,no".toUTF8.toList ∧
    '"' ∉ "f,true\r\n,\ng,no".toList ∧ "f,true\r\n,\ng,no".toList.head? ≠ some '\ufeff' ∧
    Text.ReturnsBeforeFeeds "f,true\r\n,\ng,no".toList ∧
    (FeatureFile.read "p").on .twoFiles = (.ok [.flag true, .text "", .text "no"], .twoFiles) ∧
    Disk.twoFiles.bytes? "q" = some "f,1\r\n\r\ng,2\n".toUTF8.toList ∧
    ∃ line fields, (FeatureFile.read "q").on .twoFiles = (.error (.malformedRow "q" line fields), .twoFiles) := by
  have hp : Disk.twoFiles.bytes? "p" = some "f,true\r\n,\ng,no".toUTF8.toList := by decide +kernel
  have hq : Disk.twoFiles.bytes? "q" = some "f,1\r\n\r\ng,2\n".toUTF8.toList := by decide +kernel
  have hquote : '"' ∉ "f,true\r\n,\ng,no".toList := by decide +kernel
  have hmark : "f,true\r\n,\ng,no".toList.head? ≠ some '\ufeff' := by decide +kernel
  have hreturn : Text.ReturnsBeforeFeeds "f,true\r\n,\ng,no".toList := by decide +kernel
  have hvalues : [.flag true, .text "", .text "no"] = (Text.rowsOf "f,true\r\n,\ng,no".toList).map fun row =>
      FeatureValue.parse (String.ofList (behindComma row)) := by decide +kernel
  refine ⟨hp, hquote, hmark, hreturn, ?_, hq, ?_⟩
  · exact ((read_rows hp hquote hmark hreturn).1 _).2 ⟨by decide +kernel, hvalues⟩
  · exact (read_rows hq (by decide +kernel) (by decide +kernel) (by decide +kernel)).2 (by decide +kernel)

end PackageTriage
