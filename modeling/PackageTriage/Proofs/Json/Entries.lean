import PackageTriage.Choice
import PackageTriage.Grids.Json
import PackageTriage.Proofs.Json.Number
import PackageTriage.Proofs.Json.ReadBack

/-!
# Entries of a file

What an entry was read as lasts: it is written as a value whose text is read back, and reading that value gives
the entry again. An entry that the writer has no value for is not read again. A float lasts if the reader of numbers
takes what is written for it as that float.
-/

namespace PackageTriage.Json

open Decimal

variable {α β : Type} {read : Json → Option α} {write : α → Json} {kept : α → Bool}

/-- What is written for an entry is read as that entry if it is kept, and refused otherwise. -/
structure Lasts (read : Json → Option α) (write : α → Json) (kept : α → Bool) (a : α) : Prop where
  readable : Readable (write a)
  read_write : read (write a) = if kept a then some a else none

def always (_ : α) : Bool := true

theorem Lasts.eq_some {a : α} (h : Lasts read write always a) : read (write a) = some a :=
  h.read_write.trans (if_pos rfl)

def Lasting (read : Json → Option α) (write : α → Json) (kept : α → Bool) : Prop :=
  ∀ {j a}, read j = some a → Lasts read write kept a

theorem readable_number {w : String} {s : Float.Model.UnpackedFloat.Sign} {p : Numeral}
    (h : w.toList = signedChars s p) : Readable (.number w) := by
  rw [← String.ofList_toList (s := w), h]
  exact .number s p

theorem lasts_natural {n : ℕ} (hn : n < 2 ^ 64) : Lasts natural? ofNat always n where
  readable := by
    refine @readable_number _ .positive ⟨Nat.toDigits 10 n, isWhole_toDigits n, [], by simp, [], 0, .none⟩ ?_
    show (toString n).toList = Nat.toDigits 10 n ++ ([] ++ [])
    rw [List.append_nil, List.append_nil]
    exact Nat.toList_repr
  read_write := by
    have hdigits : (toString n).toList = Nat.toDigits 10 n := Nat.toList_repr
    have hall : (Nat.toDigits 10 n).all Char.isDigit = true := List.all_eq_true.2 (isDigit_toDigits n)
    rw [ofNat, natural?, hdigits, if_pos hall, digitsToNat_toDigits]
    exact if_pos hn

theorem lasting_natural : Lasting natural? ofNat always := by
  intro j n h
  cases j with
  | number w =>
    rw [natural?] at h
    split at h
    · dsimp only at h
      split at h
      · next hlt => exact lasts_natural (Option.some.inj h ▸ hlt)
      · simp at h
    · simp at h
  | null | bool | text | list | object => simp [natural?] at h

/-- A float that is finite and read back by the reader lasts through the file. -/
theorem lasts_float [NumberReader] {x : Float} (hx : x.isFinite = true) (hback : ReadsBack x) :
    Lasts float? ofFloat always x where
  readable := by
    obtain ⟨s, p, hrender, -⟩ := NumberStyle.render_eq readable_settings hx
    rw [ofFloat, if_pos hx]
    exact readable_number (hrender ▸ toList_signed s p)
  read_write := by
    rw [ofFloat, if_pos hx, float?, hback hx]
    exact Option.filter_some_pos hx

/-- Whatever the reader of numbers gives, no infinite float is taken from a file. -/
theorem isFinite_of_float? [NumberReader] {j : Json} {x : Float} (h : float? j = some x) : x.isFinite = true := by
  cases j with
  | number w => exact (Option.filter_eq_some_iff.1 h).2
  | null | bool | text | list | object => simp [float?] at h

theorem lasts_string (s : String) : Lasts string? ofString always s := ⟨.text s, rfl⟩

theorem lasts_choice [Choice α] (hname : ∀ a : α, Choice.ofName? (Choice.name a) = some a) (a : α) :
    Lasts Choice.ofJson? Choice.toJson always a := ⟨.text _, hname a⟩

/-- A list is read back where its members are. -/
theorem lasts_list {as : List α} (h : ∀ a ∈ as, Lasts read write kept a) :
    Lasts (listOf? read) (ofList write) (·.all kept) as where
  readable := .list fun item hitem => by
    obtain ⟨a, ha, rfl⟩ := List.mem_map.1 hitem
    exact (h a ha).readable
  read_write := by
    rw [ofList, listOf?]
    induction as with
    | nil => rfl
    | cons a as ih =>
      rw [List.map_cons, List.mapM_cons, (h a (by simp)).read_write, ih fun a' ha' => h a' (by simp [ha']),
        List.all_cons]
      cases kept a <;> cases as.all kept <;> rfl

theorem mem_of_mapM {items : List Json} {as : List α} (h : items.mapM read = some as) :
    ∀ a ∈ as, ∃ j, read j = some a := by
  induction items generalizing as with
  | nil =>
    obtain rfl : [] = as := by simpa using h
    simp
  | cons item items ih =>
    rw [List.mapM_cons] at h
    obtain ⟨a, ha, h⟩ := Option.bind_eq_some_iff.1 h
    obtain ⟨as', has', h⟩ := Option.bind_eq_some_iff.1 h
    obtain rfl := Option.some.inj h
    rintro a' ha'
    rcases List.mem_cons.1 ha' with rfl | ha'
    · exact ⟨item, ha⟩
    · exact ih has' a' ha'

/-- Every item of a list was read from something. -/
theorem exists_of_mem_listOf? {j : Json} {as : List α} (h : listOf? read j = some as) :
    ∀ a ∈ as, ∃ item, read item = some a := by
  cases j with
  | list items => exact mem_of_mapM h
  | null | bool | number | text | object => simp [listOf?] at h

theorem lasting_list (h : Lasting read write kept) : Lasting (listOf? read) (ofList write) (·.all kept) := by
  intro j as hread
  refine lasts_list fun a ha => ?_
  obtain ⟨item, hitem⟩ := exists_of_mem_listOf? hread a ha
  exact h hitem

theorem all_always (as : List α) : as.all always = true := List.all_eq_true.2 fun _ _ => rfl

/-- A list of entries of which none is lost. -/
theorem lasts_all {as : List α} (h : ∀ a ∈ as, Lasts read write always a) :
    Lasts (listOf? read) (ofList write) always as :=
  ⟨(lasts_list h).readable, by rw [(lasts_list h).read_write, all_always]; rfl⟩

theorem lasting_all (h : Lasting read write always) : Lasting (listOf? read) (ofList write) always := by
  intro j as hread
  have hlast := lasting_list h hread
  exact ⟨hlast.readable, by rw [hlast.read_write, all_always]; rfl⟩

/-- A list of floats lasts if each of them is read back, be it the default or not. -/
theorem lasts_floats [NumberReader] {default xs : List Float} (hdefault : ∀ x ∈ default, x.isFinite = true)
    {o : Option Json} (hread : orDefault? (listOf? float?) default o = some xs) (hback : ∀ x ∈ xs, ReadsBack x) :
    Lasts (listOf? float?) (ofList ofFloat) always xs := by
  have hfinite : ∀ x ∈ xs, x.isFinite = true := by
    intro x hx
    cases o with
    | none =>
      obtain rfl := Option.some.inj hread
      exact hdefault x hx
    | some j =>
      obtain ⟨item, hitem⟩ := exists_of_mem_listOf? hread x hx
      exact isFinite_of_float? hitem
  exact lasts_all fun x hx => lasts_float (hfinite x hx) (hback x hx)

theorem lasts_none : Lasts (optional? read) (ofOption write) always none := ⟨.null, rfl⟩

/-- A value that is written as something is told apart from a missing one. -/
theorem lasts_some {a : α} (h : Lasts read write always a) (hnull : write a ≠ .null) :
    Lasts (optional? read) (ofOption write) always (some a) where
  readable := h.readable
  read_write := by
    have hread : optional? read (write a) = (read (write a)).map some := by
      rw [optional?]
      exact hnull
    rw [ofOption, hread, h.eq_some]
    rfl

theorem lasting_optional (h : Lasting read write always) (hnull : ∀ a, write a ≠ .null) :
    Lasting (optional? read) (ofOption write) always := by
  intro j o hread
  cases o with
  | none => exact lasts_none
  | some a =>
    refine lasts_some ?_ (hnull a)
    cases j with
    | null => simp [optional?] at hread
    | bool | number | text | list | object =>
      obtain ⟨a', ha', hsome⟩ := Option.map_eq_some_iff.1 hread
      obtain rfl := Option.some.inj hsome
      exact h ha'

/-- A field left out takes its default, which has to last as well. -/
theorem lasts_orDefault {default : α} (h : Lasting read write kept) (hdefault : Lasts read write kept default)
    {o : Option Json} {a : α} (hread : orDefault? read default o = some a) : Lasts read write kept a := by
  cases o with
  | none =>
    obtain rfl := Option.some.inj hread
    exact hdefault
  | some j => exact h hread

/-- A default that is read from something stands for an entry that is not left out. -/
theorem exists_of_orDefault? {default a : α} {o : Option Json} (hread : orDefault? read default o = some a)
    (hdefault : ∃ j, read j = some default) : ∃ j, read j = some a := by
  cases o with
  | none =>
    obtain rfl := Option.some.inj hread
    exact hdefault
  | some j => exact ⟨j, hread⟩

theorem readable_record {fields : List (String × Json)} (h : ∀ field ∈ fields, Readable field.2) :
    Readable (record fields) := by
  refine .object (fun field hfield => ?_) fun field hfield => ?_
  · obtain ⟨_, _, rfl⟩ := List.mem_map.1 hfield
    rfl
  · obtain ⟨field, hmem, rfl⟩ := List.mem_map.1 hfield
    exact h field hmem

/-- The only field with one of the names. -/
theorem filter_eq_singleton {fields : List (String × Json)} {names : List String} {field : String × Json}
    (hmem : field ∈ fields) (h : (fields.map Prod.fst).filter names.contains = [field.1]) :
    fields.filter (fun f => names.contains f.1) = [field] := by
  have hmap : (fields.filter (fun f => names.contains f.1)).map Prod.fst = [field.1] := by
    rw [← h, List.filter_map]
    rfl
  obtain ⟨other, hother, -⟩ := List.map_eq_singleton_iff.1 hmap
  have hname : field.1 ∈ (fields.map Prod.fst).filter names.contains := by simp [h]
  have hfield : field ∈ fields.filter (fun f => names.contains f.1) :=
    List.mem_filter.2 ⟨hmem, (List.mem_filter.1 hname).2⟩
  rw [hother] at hfield ⊢
  rw [List.mem_singleton.1 hfield]

theorem mapM_names (fields : List (String × Json)) :
    (fields.map fun (name, value) => (some name, value)).mapM
      (fun (name, value) => name.map (·, value)) = some fields := by
  induction fields with
  | nil => rfl
  | cons field fields ih =>
    rw [List.map_cons, List.mapM_cons, ih]
    rfl

/-- Each name finds its own field in a record without repetitions. -/
theorem mapM_givenTo? {fields part : List (String × Json)} (hpart : part ⊆ fields) {names : List (List String)}
    (h : names.map (fun ns => (fields.map Prod.fst).filter ns.contains) = part.map fun field => [field.1]) :
    names.mapM (fun ns => givenTo? ns fields) = some (part.map fun field => some field.2) := by
  induction part generalizing names with
  | nil =>
    obtain rfl : names = [] := by simpa using h
    rfl
  | cons field part ih =>
    obtain ⟨ns, names, rfl⟩ : ∃ ns names', names = ns :: names' :=
      List.exists_cons_of_ne_nil (by rintro rfl; simp at h)
    rw [List.map_cons, List.map_cons, List.cons.injEq] at h
    have hgiven : givenTo? ns fields = some (some field.2) := by
      rw [givenTo?, filter_eq_singleton (hpart (by simp)) h.1]
    rw [List.mapM_cons, hgiven, ih (fun f hf => hpart (by simp [hf])) h.2]
    rfl

/-- A record gives every field its value, where each field is written under a name that no other one goes by. -/
theorem fields?_record {names : List (List String)} {fields : List (String × Json)}
    (h : names.map (fun ns => (fields.map Prod.fst).filter ns.contains) = fields.map fun field => [field.1]) :
    fields? names (record fields) = some (fields.map fun field => some field.2) := by
  rw [record, fields?, mapM_names]
  exact mapM_givenTo? (fun _ hmem => hmem) h

end PackageTriage.Json
