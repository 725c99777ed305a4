import PackageTriage.Proofs.Storage.Aim

/-!
# Changes to a disk

Writing a file changes what one place holds and nothing else. Making directories changes no file at all.
Neither touches a link, so paths lead on to where they led. All this is stated of paths: what a path
holds is what stands where it leads.
-/

namespace PackageTriage.Disk

/-- What stands on a disk stands in a directory. -/
structure WellFormed (d : Disk) : Prop where
  home_directory : d.at? d.home = some .directory
  parent_directory : ∀ p, (d.at? p).isSome → d.at? p.dropLast = some .directory

@[simp] theorem at?_root (d : Disk) : d.at? [] = some .directory := rfl

/-- It is enough to look at the entries. -/
theorem wellFormed_of_entries {d : Disk} (hhome : d.at? d.home = some .directory)
    (hentries : ∀ x ∈ d.entries, d.at? x.1.dropLast = some .directory) : d.WellFormed := by
  refine ⟨hhome, fun p hp => ?_⟩
  by_cases hroot : p = []
  · rw [hroot, List.dropLast_nil, at?_root]
  · rw [at?, if_neg hroot, List.lookup_isSome_iff] at hp
    obtain ⟨x, hx, hpx⟩ := hp
    rw [eq_of_beq hpx]
    exact hentries x hx

theorem linkAt?_of_directory {d : Disk} {p : Place} (h : d.at? p = some .directory) :
    d.linkAt? p = none := by
  simp [linkAt?, h]

/-- A place that a way can end at: it is in a directory, and no link that should have been followed. -/
structure IsEnd (d : Disk) (follow : Bool) (p : Place) : Prop where
  parent_directory : d.at? p.dropLast = some .directory
  not_link : follow = true → d.linkAt? p = none

theorem isEnd_of_directory {d : Disk} (hd : d.WellFormed) (follow : Bool) {p : Place}
    (h : d.at? p = some .directory) : d.IsEnd follow p :=
  ⟨hd.parent_directory p (by simp [h]), fun _ => linkAt?_of_directory h⟩

theorem descend_isEnd {d : Disk} (hd : d.WellFormed) {follow : Bool}
    {jump : Place → List String → Option Place}
    (hjump : ∀ p pieces q, d.IsEnd follow p → jump p pieces = some q → d.IsEnd follow q)
    {p q : Place} {pieces : List String} (hp : d.IsEnd follow p)
    (h : d.descend follow jump p pieces = some q) : d.IsEnd follow q := by
  induction pieces generalizing p with
  | nil =>
    obtain rfl : p = q := by simpa [descend] using h
    exact hp
  | cons piece pieces ih =>
    by_cases hdirectory : d.at? p = some .directory
    · cases hleads : Path.leads piece with
      | false =>
        rw [descend_skip hdirectory hleads] at h
        exact ih hp h
      | true =>
        by_cases hup : piece = ".."
        · rw [hup, descend_up hdirectory] at h
          exact ih (isEnd_of_directory hd follow hp.parent_directory) h
        · rw [descend_step hdirectory hleads hup] at h
          have hparent : d.at? (p ++ [piece]).dropLast = some .directory := by
            rw [List.dropLast_concat]
            exact hdirectory
          cases hlink : d.linkAt? (p ++ [piece]) with
          | none =>
            rw [hlink] at h
            exact ih ⟨hparent, fun _ => hlink⟩ h
          | some target =>
            simp only [hlink] at h
            split at h
            · next hlast =>
              obtain rfl := Option.some.inj h
              refine ⟨hparent, fun hfollow => ?_⟩
              simp [hfollow] at hlast
            · split at h
              · contradiction
              · refine hjump _ _ _ ?_ h
                split
                · exact isEnd_of_directory hd follow rfl
                · exact isEnd_of_directory hd follow hdirectory
    · rw [descend_not_directory hdirectory] at h
      contradiction

theorem follow_isEnd {d : Disk} (hd : d.WellFormed) {follow : Bool} {links : Nat} {p q : Place}
    {pieces : List String} (hp : d.IsEnd follow p) (h : d.follow follow links p pieces = some q) :
    d.IsEnd follow q := by
  induction links generalizing p q pieces with
  | zero => exact descend_isEnd hd (by simp) hp h
  | succ links ih => exact descend_isEnd hd (fun _ _ _ hstart hjump => ih hstart hjump) hp h

/-- The place that a path leads to is in a directory. -/
theorem place?_isEnd {d : Disk} (hd : d.WellFormed) {follow : Bool} {path : String} {q : Place}
    (h : d.place? follow path = some q) : d.IsEnd follow q := by
  rw [place?] at h
  split at h
  · contradiction
  · refine follow_isEnd hd ?_ h
    split
    · exact isEnd_of_directory hd follow rfl
    · exact isEnd_of_directory hd follow hd.home_directory

/-- A place in a directory can be filled if no directory is lost by it. -/
theorem set_wellFormed {d : Disk} (hd : d.WellFormed) {q : Place} (entry : Entry)
    (hparent : d.at? q.dropLast = some .directory) (hq : d.at? q ≠ some .directory) :
    (d.set q entry).WellFormed := by
  have hdirectory : ∀ p, d.at? p = some .directory → (d.set q entry).at? p = some .directory := by
    intro p hp
    have hpq : p ≠ q := by
      rintro rfl
      exact hq hp
    rw [at?_set_of_ne d hpq, hp]
  refine ⟨hdirectory _ hd.home_directory, fun p hp => hdirectory _ ?_⟩
  by_cases hpq : p = q
  · exact hpq ▸ hparent
  · rw [at?_set_of_ne d hpq] at hp
    exact hd.parent_directory p hp

def fileAt? (d : Disk) (p : Place) : Option (List UInt8) :=
  match d.at? p with
  | some (.file bytes) => some bytes
  | _ => none

def holds? (d : Disk) (path : String) : Option (List UInt8) := (d.aim? path).bind d.fileAt?

theorem bytes?_of_place? {d : Disk} {path : String} {q : Place} (h : d.place? true path = some q) :
    d.bytes? path = d.holds? path := by
  rw [bytes?, find?, holds?, h, aim?_of_place? h, Option.bind_some, Option.bind_some]
  rfl

theorem exists_place?_of_bytes? {d : Disk} {path : String} (h : (d.bytes? path).isSome) :
    ∃ q, d.place? true path = some q := by
  cases hplace : d.place? true path with
  | none => simp [bytes?, find?, hplace] at h
  | some q => exact ⟨q, rfl⟩

theorem holds?_of_bytes? {d : Disk} {path : String} {bytes : List UInt8}
    (h : d.bytes? path = some bytes) :
    d.holds? path = some bytes := by
  obtain ⟨q, hplace⟩ := exists_place?_of_bytes? (Option.isSome_of_eq_some h)
  rw [← bytes?_of_place? hplace, h]

structure SameFiles (d e : Disk) : Prop extends SameLinks d e where
  file_eq : ∀ p, e.fileAt? p = d.fileAt? p

theorem SameFiles.refl (d : Disk) : SameFiles d d := ⟨.refl d, fun _ => rfl⟩

theorem SameFiles.trans {d e f : Disk} (h : SameFiles d e) (h' : SameFiles e f) : SameFiles d f :=
  ⟨h.toSameLinks.trans h'.toSameLinks, fun p => (h'.file_eq p).trans (h.file_eq p)⟩

theorem SameFiles.holds?_eq {d e : Disk} (h : SameFiles d e) (path : String) :
    e.holds? path = d.holds? path := by
  rw [holds?, holds?, h.aim?_eq]
  exact Option.bind_congr fun q _ => h.file_eq q

theorem sameFiles_set_directory {d : Disk} {q : Place} (hq : d.at? q = none) :
    SameFiles d (d.set q .directory) := by
  have hne : q ≠ [] := by
    rintro rfl
    simp at hq
  have hself := at?_set_self d hne .directory
  refine ⟨⟨rfl, fun p => ?_⟩, fun p => ?_⟩
  all_goals by_cases hpq : p = q
  · rw [hpq, linkAt?, linkAt?, hself, hq]
  · rw [linkAt?, linkAt?, at?_set_of_ne d hpq]
  · rw [hpq, fileAt?, fileAt?, hself, hq]
  · rw [fileAt?, fileAt?, at?_set_of_ne d hpq]

/-- One directory is there already, or is made where nothing stands. -/
theorem makeOne_eq_some {d e : Disk} {path : String} (h : d.makeOne path = some e) :
    e = d ∨ ∃ q, d.place? false path = some q ∧ d.at? q = none ∧ e = d.set q .directory := by
  rw [makeOne] at h
  split at h
  · exact .inl (Option.some.inj h).symm
  · cases hplace : d.place? false path with
    | none => simp [hplace] at h
    | some q =>
      cases hq : d.at? q with
      | some entry => simp [hplace, hq] at h
      | none => exact .inr ⟨q, rfl, hq, by simpa [hplace, hq, eq_comm] using h⟩

/-- Making a directory touches no file. -/
theorem makeOne_sameFiles {d e : Disk} (hd : d.WellFormed) {path : String} (h : d.makeOne path = some e) :
    SameFiles d e ∧ e.WellFormed := by
  obtain rfl | ⟨q, hplace, hq, rfl⟩ := makeOne_eq_some h
  · exact ⟨.refl e, hd⟩
  · have hparent := (place?_isEnd hd hplace).parent_directory
    exact ⟨sameFiles_set_directory hq, set_wellFormed hd _ hparent (by simp [hq])⟩

theorem makeAll_sameFiles {d : Disk} (hd : d.WellFormed) (paths : List String) :
    SameFiles d (d.makeAll paths).1 ∧ (d.makeAll paths).1.WellFormed := by
  induction paths generalizing d with
  | nil => exact ⟨.refl d, hd⟩
  | cons path paths ih =>
    rw [makeAll]
    cases hone : d.makeOne path with
    | none => exact ⟨.refl d, hd⟩
    | some e =>
      obtain ⟨hsame, he⟩ := makeOne_sameFiles hd hone
      obtain ⟨hsame', hall⟩ := ih he
      exact ⟨hsame.trans hsame', hall⟩

/-- Making directories keeps all files and links. -/
theorem make_sameFiles {d : Disk} (hd : d.WellFormed) (path : String) :
    SameFiles d (d.make path).1 ∧ (d.make path).1.WellFormed := by
  rw [make]
  split
  · exact ⟨.refl d, hd⟩
  · exact makeAll_sameFiles hd _

/-- A file is put where its path leads, but never over a directory. -/
theorem put?_eq_some {d e : Disk} {path : String} {bytes : List UInt8} (h : d.put? path bytes = some e) :
    ∃ q, d.place? true path = some q ∧ d.at? q ≠ some .directory ∧ e = d.set q (.file bytes) := by
  rw [put?] at h
  cases hplace : d.place? true path with
  | none => simp [hplace] at h
  | some q =>
    rw [hplace] at h
    refine ⟨q, rfl, ?_⟩
    cases hq : d.at? q with
    | none => exact ⟨by simp, by simpa [hq, eq_comm] using h⟩
    | some entry =>
      cases entry with
      | directory => simp [hq] at h
      | file old => exact ⟨by simp, by simpa [hq, eq_comm] using h⟩
      | link target => exact ⟨by simp, by simpa [hq, eq_comm] using h⟩

theorem put?_sameLinks {d e : Disk} (hd : d.WellFormed) {path : String} {bytes : List UInt8}
    (h : d.put? path bytes = some e) : SameLinks d e ∧ e.WellFormed := by
  obtain ⟨q, hplace, hq, rfl⟩ := put?_eq_some h
  have hend := place?_isEnd hd hplace
  have hne : q ≠ [] := by
    rintro rfl
    exact hq rfl
  refine ⟨⟨rfl, fun p => ?_⟩, set_wellFormed hd _ hend.parent_directory hq⟩
  by_cases hpq : p = q
  · rw [hpq, hend.not_link rfl, linkAt?, at?_set_self d hne]
  · rw [linkAt?, linkAt?, at?_set_of_ne d hpq]

/-- A path holds what was written to it. -/
theorem holds?_put? {d e : Disk} (hd : d.WellFormed) {path : String} {bytes : List UInt8}
    (h : d.put? path bytes = some e) : e.holds? path = some bytes := by
  have hlinks := (put?_sameLinks hd h).1
  obtain ⟨q, hplace, hq, rfl⟩ := put?_eq_some h
  have hne : q ≠ [] := by
    rintro rfl
    exact hq rfl
  rw [holds?, hlinks.aim?_eq, aim?_of_place? hplace, Option.bind_some, fileAt?, at?_set_self d hne]

/-- Files at places that the path does not lead to stay as they are. -/
theorem fileAt?_put?_of_ne {d e : Disk} {path : String} {bytes : List UInt8} (h : d.put? path bytes = some e)
    {p : Place} (hne : d.aim? path ≠ some p) : e.fileAt? p = d.fileAt? p := by
  obtain ⟨q, hplace, -, rfl⟩ := put?_eq_some h
  have hpq : p ≠ q := by
    rintro rfl
    exact hne (aim?_of_place? hplace)
  rw [fileAt?, fileAt?, at?_set_of_ne d hpq]

/-- A disk that has gained directories, with the same links. -/
structure Grows (d e : Disk) : Prop extends SameLinks d e where
  directory_kept : ∀ p, d.at? p = some .directory → e.at? p = some .directory

theorem Grows.trans {d e f : Disk} (h : Grows d e) (h' : Grows e f) : Grows d f :=
  ⟨h.toSameLinks.trans h'.toSameLinks, fun p hp => h'.directory_kept p (h.directory_kept p hp)⟩

theorem grows_set {d : Disk} {q : Place} {entry : Entry} (hlinks : SameLinks d (d.set q entry))
    (hq : d.at? q ≠ some .directory) : Grows d (d.set q entry) := by
  refine ⟨hlinks, fun p hp => ?_⟩
  have hpq : p ≠ q := by
    rintro rfl
    exact hq hp
  rw [at?_set_of_ne d hpq, hp]

theorem makeOne_grows {d e : Disk} {path : String} (h : d.makeOne path = some e) : Grows d e := by
  obtain rfl | ⟨q, -, hq, rfl⟩ := makeOne_eq_some h
  · exact ⟨.refl e, fun _ hp => hp⟩
  · exact grows_set (sameFiles_set_directory hq).toSameLinks (by simp [hq])

/-- Directories are only added. -/
theorem makeAll_grows (d : Disk) (paths : List String) : Grows d (d.makeAll paths).1 := by
  induction paths generalizing d with
  | nil => exact ⟨.refl d, fun _ hp => hp⟩
  | cons path paths ih =>
    rw [makeAll]
    cases hone : d.makeOne path with
    | none => exact ⟨.refl d, fun _ hp => hp⟩
    | some e => exact (makeOne_grows hone).trans (ih e)

theorem make_grows (d : Disk) (path : String) : Grows d (d.make path).1 := by
  rw [make]
  split
  · exact ⟨.refl d, fun _ hp => hp⟩
  · exact makeAll_grows d _

theorem put?_grows {d e : Disk} (hd : d.WellFormed) {path : String} {bytes : List UInt8}
    (h : d.put? path bytes = some e) : Grows d e := by
  have hlinks := (put?_sameLinks hd h).1
  obtain ⟨q, -, hq, rfl⟩ := put?_eq_some h
  exact grows_set hlinks hq

theorem Grows.descend_eq {d e : Disk} (h : Grows d e) {follow : Bool}
    {jump jump' : Place → List String → Option Place}
    (hjump : ∀ p pieces q, jump p pieces = some q → jump' p pieces = some q) {p q : Place}
    {pieces : List String} (hq : d.descend follow jump p pieces = some q) :
    e.descend follow jump' p pieces = some q := by
  induction pieces generalizing p with
  | nil => exact hq
  | cons piece pieces ih =>
    by_cases hdirectory : d.at? p = some .directory
    · have hdirectory' := h.directory_kept p hdirectory
      cases hleads : Path.leads piece with
      | false =>
        rw [descend_skip hdirectory hleads] at hq
        rw [descend_skip hdirectory' hleads]
        exact ih hq
      | true =>
        by_cases hup : piece = ".."
        · rw [hup, descend_up hdirectory] at hq
          rw [hup, descend_up hdirectory']
          exact ih hq
        · rw [descend_step hdirectory hleads hup] at hq
          rw [descend_step hdirectory' hleads hup, h.link_eq]
          cases hlink : d.linkAt? (p ++ [piece]) with
          | none =>
            rw [hlink] at hq
            exact ih hq
          | some target =>
            simp only [hlink] at hq ⊢
            split at hq
            · next hlast => rw [if_pos hlast, hq]
            · next hlast =>
              rw [if_neg hlast]
              split at hq
              · contradiction
              · next htarget =>
                rw [if_neg htarget]
                exact hjump _ _ _ hq
    · rw [descend_not_directory hdirectory] at hq
      contradiction

/-- A path that led somewhere leads there on a disk that has grown. -/
theorem Grows.follow_eq {d e : Disk} (h : Grows d e) {last : Bool} {links : Nat} {p q : Place}
    {pieces : List String} (hq : d.follow last links p pieces = some q) :
    e.follow last links p pieces = some q := by
  induction links generalizing p q pieces with
  | zero => exact h.descend_eq (fun _ _ _ hjump => hjump) hq
  | succ links ih => exact h.descend_eq (fun _ _ _ hjump => ih hjump) hq

/-- A path that led somewhere still does. -/
theorem Grows.place?_eq {d e : Disk} (h : Grows d e) {last : Bool} {path : String} {q : Place}
    (hq : d.place? last path = some q) : e.place? last path = some q := by
  rw [place?] at hq ⊢
  split at hq
  · contradiction
  · next hempty =>
    rw [if_neg hempty, h.home_eq]
    exact h.follow_eq hq

/-- A path to a file that could be read can be read again. -/
theorem Grows.bytes?_eq_holds? {d e : Disk} (h : Grows d e) {path : String}
    (hbytes : (d.bytes? path).isSome) : e.bytes? path = e.holds? path := by
  obtain ⟨q, hplace⟩ := exists_place?_of_bytes? hbytes
  exact bytes?_of_place? (h.place?_eq hplace)

/-- What was written can be read. -/
theorem bytes?_put? {d e : Disk} (hd : d.WellFormed) {path : String} {bytes : List UInt8}
    (h : d.put? path bytes = some e) : e.bytes? path = some bytes := by
  obtain ⟨q, hplace, -, -⟩ := put?_eq_some h
  rw [bytes?_of_place? ((put?_grows hd h).place?_eq hplace), holds?_put? hd h]

end PackageTriage.Disk
