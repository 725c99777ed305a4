import PackageTriage.Bytes.Matrix
import Mathlib

/-!
# Values are read back

Reading what was written gives the value and the bytes behind it, as long as every length and number
fits its word. The statement carries over from the parts of a value to the value, so each layout only
needs its own step.
-/

namespace PackageTriage

/-- A layout that gives its values back, if they fit. -/
class LawfulLayout (α : Type) [Layout α] where
  /-- All lengths and numbers in the value fit their words. -/
  Fits : α → Prop
  decidableFits : DecidablePred Fits := by infer_instance
  read_write : ∀ a, Fits a → ∀ rest, Layout.read (Layout.write a ++ rest) = some (a, rest)

attribute [reducible, instance] LawfulLayout.decidableFits

namespace LawfulLayout

open Layout

variable {α β : Type} [Layout α] [Layout β] [LawfulLayout α] [LawfulLayout β]

theorem decode_write {a : α} (h : Fits a) : decode? (write a) = some a := by
  have hread := read_write a h []
  rw [List.append_nil] at hread
  rw [decode?, hread, Option.map_some]

theorem readTag_writeTag {n : Nat} (h : n < 2 ^ 32) (rest : List UInt8) :
    readTag (writeTag n ++ rest) = some (n, rest) := by
  apply readWord_writeWord
  rw [Nat.pow_eq]
  omega

instance : LawfulLayout Nat where
  Fits n := n < 2 ^ 64
  read_write n h rest := by
    apply readWord_writeWord
    rw [Nat.pow_eq]
    omega

instance : LawfulLayout UInt64 where
  Fits _ := True
  read_write w _ rest := by
    show (readWord 8 (writeWord 8 w.toNat ++ rest)).map _ = _
    have hword : w.toNat < Nat.pow 256 8 := w.toNat_lt
    rw [readWord_writeWord hword]
    simp

instance : LawfulLayout Float where
  Fits _ := True
  read_write x _ rest := by
    show (read (write x.toBits ++ rest)).map _ = _
    rw [read_write x.toBits trivial rest]
    simp

instance : LawfulLayout Bool where
  Fits _ := True
  read_write b _ rest := by cases b <;> rfl

instance : LawfulLayout UInt8 where
  Fits _ := True
  read_write _ _ _ := rfl

omit [LawfulLayout α] [LawfulLayout β] in
theorem read_pair (bs : List UInt8) : (read bs : Option ((α × β) × List UInt8)) =
    (read bs).bind fun p => (read p.2).bind fun q => some ((p.1, q.1), q.2) := rfl

instance : LawfulLayout (α × β) where
  Fits p := Fits p.1 ∧ Fits p.2
  read_write p h rest := by
    show read (write p.1 ++ write p.2 ++ rest) = _
    rw [read_pair, List.append_assoc, read_write p.1 h.1, Option.bind_some, read_write p.2 h.2,
      Option.bind_some]

instance : LawfulLayout (Option α) where
  Fits o := ∀ a ∈ o, Fits a
  read_write o h rest := by
    cases o with
    | none => rfl
    | some a =>
      show (read (write a ++ rest)).map _ = _
      rw [read_write a (h a rfl)]
      rfl

/-- So many values are read back one after the other. -/
theorem readMany_flatMap_write {as : List α} (h : ∀ a ∈ as, Fits a) (rest : List UInt8) :
    readMany as.length (as.flatMap write ++ rest) = some (as, rest) := by
  induction as with
  | nil => rfl
  | cons a as ih =>
    rw [List.flatMap_cons, List.append_assoc, List.length_cons, readMany, read_write a (h a (by simp))]
    simp [ih fun b hb => h b (by simp [hb])]

instance : LawfulLayout (List α) where
  Fits as := as.length < 2 ^ 64 ∧ ∀ a ∈ as, Fits a
  read_write as h rest := by
    show ((read (write as.length ++ as.flatMap write ++ rest) : Option (Nat × List UInt8)).bind fun q =>
      readMany q.1 q.2) = _
    rw [List.append_assoc, read_write as.length h.1]
    exact readMany_flatMap_write h.2 rest

theorem toList_loop (bytes : ByteArray) (i : Nat) (read : List UInt8) :
    ByteArray.toList.loop bytes i read = read.reverse ++ bytes.data.toList.drop i := by
  fun_induction ByteArray.toList.loop bytes i read with
  | case1 i read hi ih =>
    have hlt : i < bytes.data.toList.length := hi
    have hget : bytes.get! i = bytes.data.toList[i] := getElem!_pos bytes.data i hi
    rw [ih, List.drop_eq_getElem_cons hlt, hget, List.reverse_cons, List.append_assoc,
      List.singleton_append]
  | case2 i read hi =>
    have hle : bytes.data.toList.length ≤ i := Nat.le_of_not_lt hi
    rw [List.drop_eq_nil_of_le hle, List.append_nil]

/-- A byte array and its list hold the same bytes, so that files can be lists throughout. -/
theorem toList_eq_data (bytes : ByteArray) : bytes.toList = bytes.data.toList := by
  rw [ByteArray.toList, toList_loop, List.reverse_nil, List.nil_append, List.drop_zero]

/-- The bytes of a text spell it. -/
theorem fromUTF8?_toUTF8 (s : String) : String.fromUTF8? ⟨s.toUTF8.toList.toArray⟩ = some s := by
  have hbytes : (⟨s.toUTF8.toList.toArray⟩ : ByteArray) = s.toUTF8 := by
    rw [toList_eq_data]
  rw [hbytes]
  exact dif_pos s.isValidUTF8

instance : LawfulLayout String where
  Fits s := s.utf8ByteSize < 2 ^ 64
  read_write s h rest := by
    have hlength : s.toUTF8.toList.length = s.utf8ByteSize := by
      rw [toList_eq_data]
      rfl
    have hbytes : Fits s.toUTF8.toList := ⟨hlength ▸ h, fun _ _ => trivial⟩
    show ((read (write s.toUTF8.toList ++ rest) : Option (List UInt8 × List UInt8)).bind fun q =>
      (String.fromUTF8? ⟨q.1.toArray⟩).bind fun t => some (t, q.2)) = _
    rw [read_write _ hbytes, Option.bind_some, fromUTF8?_toUTF8, Option.bind_some]

@[reducible] def ofChoice {α : Type} [Choice α] [DecidableEq α]
    (hmem : ∀ a : α, a ∈ (Choice.all : List α)) (hlength : (Choice.all : List α).length < 2 ^ 32) :
    @LawfulLayout α (Layout.ofChoice α) :=
  letI := Layout.ofChoice α
  { Fits _ := True
    read_write a _ rest := by
      have hplace := List.idxOf_lt_length_of_mem (hmem a)
      show ((readTag (writeTag ((Choice.all : List α).idxOf a) ++ rest)).bind fun q =>
        ((Choice.all : List α)[q.1]?).bind fun b => some (b, q.2)) = _
      rw [readTag_writeTag (by omega)]
      simp [hplace] }

/-- Rows that were put one behind the other are cut apart again. -/
theorem cut_flatten {γ : Type} {width : Nat} {rows : List (List γ)} (h : ∀ r ∈ rows, r.length = width) :
    Matrix.cut width rows.length rows.flatten = rows := by
  induction rows with
  | nil => rfl
  | cons r rows ih =>
    have hr : r.length = width := h r (by simp)
    rw [List.length_cons, List.flatten_cons, Matrix.cut, ← hr, List.take_left, List.drop_left, hr,
      ih fun s hs => h s (by simp [hs])]

theorem length_entries {γ : Type} (x : Matrix γ) : x.entries.length = x.height * x.width := by
  have hwidths : x.rows.map List.length = List.replicate x.rows.length x.width :=
    List.eq_replicate_iff.2 ⟨by simp, by simpa using x.rows_width⟩
  rw [Matrix.entries, List.length_flatten, hwidths, List.sum_replicate_nat, Matrix.height]

/-- The entries of a matrix, row after row, say all of it beside its height and width. -/
theorem ofEntries?_entries {γ : Type} (x : Matrix γ) :
    Matrix.ofEntries? x.height x.width x.entries = some x := by
  have hlength := length_entries x
  have hcut : Matrix.cut x.width x.height x.entries = x.rows := cut_flatten x.rows_width
  rw [Matrix.ofEntries?, dif_pos hlength]
  simp only [hcut]

instance : LawfulLayout (Matrix α) where
  Fits x := isShape x.height x.width ∧ Fits (x.height, x.width, x.entries)
  read_write x h rest := by
    show ((guard (arrayFormat = arrayFormat) : Option Unit).bind fun _ =>
      (read (write (x.height, x.width, x.entries) ++ rest) :
        Option ((Nat × Nat × List α) × List UInt8)).bind fun q =>
      (guard (isShape q.1.1 q.1.2.1) : Option Unit).bind fun _ =>
      (Matrix.ofEntries? q.1.1 q.1.2.1 q.1.2.2).bind fun z => some (z, q.2)) = _
    rw [read_write _ h.2]
    simp [h.1, ofEntries?_entries, guard]

instance : LawfulLayout (AsVector α) where
  Fits v := Fits v.entries
  read_write v h rest := by
    have hpair : Fits (v.entries.length, v.entries) := ⟨h.1, h⟩
    show ((guard (arrayFormat = arrayFormat) : Option Unit).bind fun _ =>
      (read (write (v.entries.length, v.entries) ++ rest) :
        Option ((Nat × List α) × List UInt8)).bind fun q =>
      (guard (q.1.2.length = q.1.1) : Option Unit).bind fun _ => some (AsVector.mk q.1.2, q.2)) = _
    rw [read_write _ hpair]
    simp [guard]

end LawfulLayout

end PackageTriage
