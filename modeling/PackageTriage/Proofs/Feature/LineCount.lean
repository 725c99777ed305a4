import PackageTriage.Proofs.Csv.LineCount
import PackageTriage.Proofs.Feature.Grammar

/-!
# Values counted against lines

A file that is read has a value for every record, so its values differ from its lines exactly as the records do: a line
that begins in a quoted part has no value of its own, nor has a first line on which nothing but the mark of the byte
order stands, and a record that ends in the middle of a line leaves the line a further value.
-/

namespace PackageTriage

namespace FeatureFile

variable {path text : String} {values : List FeatureValue} {d : Disk}

/-- A text is read only if no line is blank, and has a value for every record. -/
theorem of_parse_eq_ok {text : List Char} (h : parse path text = .ok values) :
    (∀ line ∈ Text.splitLines text, Text.isBlankLine line = false) ∧ values.length = (Csv.read text).length := by
  rw [parse] at h
  cases hblank : blankLine? text with
  | some line =>
    rw [hblank] at h
    cases h
  | none =>
    rw [hblank] at h
    rw [blankLine?, Option.map_eq_none_iff, List.findIdx?_eq_none_iff] at hblank
    exact ⟨hblank, (forall₂_of_mapM h).length_eq.symm⟩

/-- The values of a file that is read, counted against its lines. Without quotes and mark, and with carriage returns
only before line feeds, there are as many. -/
theorem length_values (hfile : d.bytes? path = some text.toUTF8.toList)
    (hread : (FeatureFile.read path).on d = (.ok values, d)) :
    values.length + Csv.quotedLines text.toList + (Csv.bareMark text.toList).toNat =
      (Text.splitLines text.toList).length + Csv.earlyEnds text.toList ∧
    ('"' ∉ text.toList → text.toList.head? ≠ some '\ufeff' → Text.ReturnsBeforeFeeds text.toList →
      values.length = (Text.splitLines text.toList).length) := by
  rw [on_read hfile] at hread
  obtain ⟨hblank, hlength⟩ := of_parse_eq_ok (congrArg Prod.fst hread)
  have hbalance := Csv.length_read hblank
  rw [← hlength] at hbalance
  refine ⟨hbalance, fun hquote hmark hreturn => ?_⟩
  have hquoted : Csv.quotedLines text.toList = 0 := by
    rw [Csv.quotedLines, Csv.dropMark_of_ne hmark]
    exact Csv.Reader.quotedLines_eq_zero ⟨by decide, by decide⟩ hquote
  have hearly : Csv.earlyEnds text.toList = 0 := by
    rw [Csv.earlyEnds, Csv.dropMark_of_ne hmark]
    exact Csv.Reader.earlyEnds_eq_zero hreturn
  have hbare : Csv.bareMark text.toList = false := by simp [Csv.bareMark, hmark]
  rw [hquoted, hearly, hbare] at hbalance
  exact hbalance

end FeatureFile

/-- A disk with three files. In `p` a quoted name has a line feed, `q` has two records on one line, and the first line
of `r` holds nothing but the mark of the byte order. -/
def Disk.oddFiles : Disk where
  entries := [(["home", "p"], .file "\"a\nb\",1\n".toUTF8.toList), (["home", "q"], .file "a,1\rb,2\n".toUTF8.toList),
    (["home", "r"], .file "\ufeff\na,1\n".toUTF8.toList), (["home"], .directory)]
  home := ["home"]

namespace FeatureFile

/-- One value on two lines, since the second one begins in a quoted part. -/
theorem length_values_quoted :
    Disk.oddFiles.bytes? "p" = some "\"a\nb\",1\n".toUTF8.toList ∧
    (FeatureFile.read "p").on .oddFiles = (.ok [.text "1"], .oddFiles) ∧
    Csv.quotedLines "\"a\nb\",1\n".toList = 1 ∧
    [FeatureValue.text "1"].length + Csv.quotedLines "\"a\nb\",1\n".toList +
      (Csv.bareMark "\"a\nb\",1\n".toList).toNat =
        (Text.splitLines "\"a\nb\",1\n".toList).length + Csv.earlyEnds "\"a\nb\",1\n".toList := by
  have hfile : Disk.oddFiles.bytes? "p" = some "\"a\nb\",1\n".toUTF8.toList := by decide +kernel
  have hparse : parse "p" "\"a\nb\",1\n".toList = .ok [.text "1"] := by decide +kernel
  have hread : (FeatureFile.read "p").on .oddFiles = (.ok [.text "1"], .oddFiles) := by rw [on_read hfile, hparse]
  exact ⟨hfile, hread, by decide +kernel, (length_values hfile hread).1⟩

/-- Two lines may become one value, one line two, and a line may be passed over. -/
theorem miscounts_lines :
    (Disk.oddFiles.bytes? "p" = some "\"a\nb\",1\n".toUTF8.toList ∧
      (Text.splitLines "\"a\nb\",1\n".toList).length = 2 ∧
      (FeatureFile.read "p").on .oddFiles = (.ok [.text "1"], .oddFiles)) ∧
    (Disk.oddFiles.bytes? "q" = some "a,1\rb,2\n".toUTF8.toList ∧
      (Text.splitLines "a,1\rb,2\n".toList).length = 1 ∧
      (FeatureFile.read "q").on .oddFiles = (.ok [.text "1", .text "2"], .oddFiles)) ∧
    (Disk.oddFiles.bytes? "r" = some "\ufeff\na,1\n".toUTF8.toList ∧
      (Text.splitLines "\ufeff\na,1\n".toList).length = 2 ∧
      (FeatureFile.read "r").on .oddFiles = (.ok [.text "1"], .oddFiles)) := by
  have hp : Disk.oddFiles.bytes? "p" = some "\"a\nb\",1\n".toUTF8.toList := by decide +kernel
  have hq : Disk.oddFiles.bytes? "q" = some "a,1\rb,2\n".toUTF8.toList := by decide +kernel
  have hr : Disk.oddFiles.bytes? "r" = some "\ufeff\na,1\n".toUTF8.toList := by decide +kernel
  have hmerged : parse "p" "\"a\nb\",1\n".toList = .ok [.text "1"] := by decide +kernel
  have hparted : parse "q" "a,1\rb,2\n".toList = .ok [.text "1", .text "2"] := by decide +kernel
  have hpassed : parse "r" "\ufeff\na,1\n".toList = .ok [.text "1"] := by decide +kernel
  refine ⟨⟨hp, by decide +kernel, ?_⟩, ⟨hq, by decide +kernel, ?_⟩, hr, by decide +kernel, ?_⟩
  · rw [on_read hp, hmerged]
  · rw [on_read hq, hparted]
  · rw [on_read hr, hpassed]

end FeatureFile

end PackageTriage
