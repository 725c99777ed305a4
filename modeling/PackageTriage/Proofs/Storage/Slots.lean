import PackageTriage.Proofs.Storage.Runs

/-!
# Saving and loading

A slot holds what was saved last, and loading gives back what the slot holds. Saving that fails may have
made the directory of models, which no path notices.
-/

namespace PackageTriage

open Run

/-- From one disk to the other at most one path was written, and there these bytes, if any. -/
structure Writes (d e : Disk) (path : String) (stored : Option (List UInt8)) : Prop where
  wellFormed : e.WellFormed
  grows : d.Grows e
  holds_eq : e.holds? path = stored.or (d.holds? path)
  file_other : ∀ p, d.aim? path ≠ some p → e.fileAt? p = d.fileAt? p
  /-- What was written is found by its path. -/
  readable : stored.isSome → e.bytes? path = e.holds? path

theorem Disk.SameFiles.writes {d e : Disk} (h : d.SameFiles e) (he : e.WellFormed) (hgrows : d.Grows e)
    (path : String) : Writes d e path none :=
  ⟨he, hgrows, h.holds?_eq path, fun p _ => h.file_eq p, fun hnone => nomatch hnone⟩

theorem writes_make {d : Disk} (hd : d.WellFormed) (directory path : String) :
    Writes d (d.make directory).1 path none := by
  obtain ⟨hsame, hwellFormed⟩ := Disk.make_sameFiles hd directory
  exact hsame.writes hwellFormed (Disk.make_grows d directory) path

theorem writes_refl {d : Disk} (hd : d.WellFormed) (path : String) : Writes d d path none :=
  (Disk.SameFiles.refl d).writes hd ⟨.refl d, fun _ hp => hp⟩ path

theorem writes_put? {d e : Disk} (hd : d.WellFormed) {path : String} {bytes : List UInt8}
    (h : d.put? path bytes = some e) : Writes d e path (some bytes) where
  wellFormed := (Disk.put?_sameLinks hd h).2
  grows := Disk.put?_grows hd h
  holds_eq := Disk.holds?_put? hd h
  file_other _ hne := Disk.fileAt?_put?_of_ne h hne
  readable _ := by rw [Disk.bytes?_put? hd h, Disk.holds?_put? hd h]

namespace Writes

variable {d e f : Disk} {path : String} {stored stored' : Option (List UInt8)}

/-- A path that leads elsewhere holds what it held before. -/
theorem holds_other (h : Writes d e path stored) (other : String)
    (hne : ∀ q, d.aim? path = some q → d.aim? other ≠ some q) : e.holds? other = d.holds? other := by
  rw [Disk.holds?, Disk.holds?, h.grows.aim?_eq]
  exact Option.bind_congr fun p hp => h.file_other p fun hq => hne p hq hp

/-- Of paths that lead to places of their own, writing to one changes no other. -/
theorem holds?_among {ι : Type} [DecidableEq ι] {paths : ι → String} {i : ι}
    (h : Writes d e (paths i) stored)
    (hapart : ∀ i j, i ≠ j → ∀ q, d.aim? (paths i) = some q → d.aim? (paths j) ≠ some q) (j : ι) :
    e.holds? (paths j) = (if j = i then stored else none).or (d.holds? (paths j)) := by
  by_cases hji : j = i
  · rw [if_pos hji, hji, h.holds_eq]
  · rw [if_neg hji, Option.none_or]
    exact h.holds_other _ (hapart i j (Ne.symm hji))

/-- One write after another stores the later one. -/
theorem trans (h : Writes d e path stored) (h' : Writes e f path stored') :
    Writes d f path (stored'.or stored) := by
  refine ⟨h'.wellFormed, h.grows.trans h'.grows, ?_, fun p hne => ?_, fun hstored => ?_⟩
  · rw [h'.holds_eq, h.holds_eq, Option.or_assoc]
  · rw [h'.file_other p (by rwa [h.grows.aim?_eq]), h.file_other p hne]
  · cases stored' with
    | some bytes => exact h'.readable rfl
    | none =>
      have hsome : stored.isSome := hstored
      refine h'.grows.bytes?_eq_holds? ?_
      rw [h.readable hsome, h.holds_eq, Option.or_of_isSome hsome]
      exact hsome

/-- If nothing was written, all files are what they were. -/
theorem sameFiles (h : Writes d e path none) : d.SameFiles e where
  toSameLinks := h.grows.toSameLinks
  file_eq p := by
    by_cases hp : d.aim? path = some p
    · have hholds := h.holds_eq
      rwa [Option.none_or, Disk.holds?, Disk.holds?, h.grows.aim?_eq, hp] at hholds
    · exact h.file_other p hp

end Writes

@[simp] theorem Run.on_ensureDirectory (path : String) (d : Disk) :
    (ensureDirectory path : Run (StateM Disk) Unit).on d =
      (if (d.make path).2 then .ok () else .error .storage, (d.make path).1) := by
  have hask : (ask (FileSystem.makeDirectory path) : Run (StateM Disk) Bool).on d =
      (.ok (d.make path).2, (d.make path).1) := rfl
  rw [ensureDirectory, on_bind_of_ok hask]
  cases (d.make path).2 <;> rfl

theorem put_run (path : String) (bytes : List UInt8) (d : Disk) :
    (FileSystem.put path bytes : StateM Disk Bool).run d = match d.put? path bytes with
      | some e => (true, e)
      | none => (false, d) := by
  show ((match d.put? path bytes with
    | some e => do
      set e
      return true
    | none => return false) : StateM Disk Bool).run d = _
  cases d.put? path bytes <;> rfl

@[simp] theorem Run.on_writeBytes (path : String) (bytes : List UInt8) (d : Disk) :
    (writeBytes path bytes : Run (StateM Disk) Unit).on d = match d.put? path bytes with
      | some e => (.ok (), e)
      | none => (.error .storage, d) := by
  rw [writeBytes, on_bind, on_ask, put_run]
  cases d.put? path bytes <;> rfl

namespace Store

variable {β : Type} [Layout β]

/-- What a run leaves in a slot: the value if it succeeds, nothing new if it fails. -/
def left {γ : Type} (b : β) (outcome : Except Error γ) : Option (List UInt8) :=
  outcome.toOption.map fun _ => Layout.write b

theorem on_save (models path : String) (b : β) (d : Disk) :
    (save models path b).on d = match (d.make models).2, (d.make models).1.put? path (Layout.write b) with
      | true, some e => (.ok path, e)
      | _, _ => (.error .storage, (d.make models).1) := by
  rw [save, on_bind, on_ensureDirectory]
  cases (d.make models).2 with
  | false => rfl
  | true =>
    simp only [↓reduceIte]
    rw [on_bind, on_writeBytes]
    cases (d.make models).1.put? path (Layout.write b) <;> rfl

/-- Saving writes its own file and no other. -/
theorem writes_save {d : Disk} (hd : d.WellFormed) (models path : String) (b : β) :
    Writes d ((save models path b).on d).2 path (left b ((save models path b).on d).1) := by
  have hmake := writes_make hd models path
  rw [on_save]
  cases (d.make models).2 with
  | false => exact hmake
  | true =>
    cases hput : (d.make models).1.put? path (Layout.write b) with
    | none => exact hmake
    | some e => exact hmake.trans (writes_put? hmake.wellFormed hput)

/-- What was saved is in its slot. -/
theorem save_eq_ok {d e : Disk} (hd : d.WellFormed) {models path written : String} {b : β}
    (h : (save models path b).on d = (.ok written, e)) :
    written = path ∧ e.bytes? path = some (Layout.write b) := by
  rw [on_save] at h
  cases hmade : (d.make models).2 with
  | false => simp [hmade] at h
  | true =>
    cases hput : (d.make models).1.put? path (Layout.write b) with
    | none => simp [hmade, hput] at h
    | some e' =>
      obtain ⟨rfl, rfl⟩ : path = written ∧ e' = e := by simpa [hmade, hput] using h
      exact ⟨rfl, Disk.bytes?_put? (Disk.make_sameFiles hd models).2 hput⟩

theorem on_isFile (path : String) (d : Disk) :
    (isFile path : Run (StateM Disk) Bool).on d = (.ok (d.bytes? path).isSome, d) := by
  have hkind : decide (d.kind? path = some .file) = (d.bytes? path).isSome := by
    rw [Disk.kind?, Disk.bytes?]
    cases d.find? path with
    | none => rfl
    | some entry => cases entry <;> rfl
  rw [← hkind]
  rfl

theorem on_readBytes (path : String) (d : Disk) :
    (readBytes path : Run (StateM Disk) (List UInt8)).on d = match d.bytes? path with
      | some bytes => (.ok bytes, d)
      | none => (.error .storage, d) := by
  have hask : (ask (FileSystem.bytes path) : Run (StateM Disk) (Option (List UInt8))).on d =
      (.ok (d.bytes? path), d) := rfl
  rw [readBytes, on_bind_of_ok hask]
  cases d.bytes? path <;> rfl

/-- Loading decodes what is in the slot. -/
theorem on_load (path : String) (d : Disk) :
    (load β path).on d = match d.bytes? path with
      | none => (.error (.missingArtifact path), d)
      | some bytes => match Layout.decode? bytes with
        | none => (.error .undecodable, d)
        | some b => (.ok b, d) := by
  have hfile := on_isFile path d
  have hread := on_readBytes path d
  rw [load, on_bind_of_ok hfile]
  cases hbytes : d.bytes? path with
  | none => rfl
  | some bytes =>
    rw [hbytes] at hread
    simp only [Option.isSome_some, ↓reduceIte]
    rw [on_bind_of_ok hread]
    cases (Layout.decode? bytes : Option β) <;> rfl

/-- What was loaded was decoded from the slot. -/
theorem load_eq_ok {path : String} {b : β} {d e : Disk} (h : (load β path).on d = (.ok b, e)) :
    e = d ∧ ∃ bytes, d.bytes? path = some bytes ∧ Layout.decode? bytes = some b := by
  rw [on_load] at h
  cases hbytes : d.bytes? path with
  | none => simp [hbytes] at h
  | some bytes =>
    cases hdecode : (Layout.decode? bytes : Option β) with
    | none => simp [hbytes, hdecode] at h
    | some b' =>
      obtain ⟨rfl, rfl⟩ : b' = b ∧ d = e := by simpa [hbytes, hdecode] using h
      exact ⟨rfl, bytes, rfl, hdecode⟩

end Store

def Disk.makeParent (d : Disk) (path : String) : Disk × Bool :=
  match Path.parent? path with
  | some parent => d.make parent
  | none => (d, true)

theorem on_writeTable (path text : String) (d : Disk) :
    (writeTable path text).on d =
      match (d.makeParent path).2, (d.makeParent path).1.put? path text.toUTF8.toList with
      | true, some e => (.ok (), e)
      | true, none => (.error .table, (d.makeParent path).1)
      | false, _ => (.error .storage, (d.makeParent path).1) := by
  have hput : ∀ e : Disk, (do unless ← ask (FileSystem.put path text.toUTF8.toList) do throw .table :
      Run (StateM Disk) Unit).on e = match e.put? path text.toUTF8.toList with
        | some e' => (.ok (), e')
        | none => (.error .table, e) := by
    intro e
    rw [on_bind, on_ask, put_run]
    cases e.put? path text.toUTF8.toList <;> rfl
  rw [writeTable, Disk.makeParent]
  cases Path.parent? path with
  | none =>
    refine (hput d).trans ?_
    cases d.put? path text.toUTF8.toList <;> rfl
  | some parent =>
    simp only [on_bind, on_ensureDirectory]
    cases (d.make parent).2 with
    | false => rfl
    | true =>
      refine (hput _).trans ?_
      cases (d.make parent).1.put? path text.toUTF8.toList <;> rfl

/-- A table is written to its path, or nothing is. -/
theorem writes_writeTable {d : Disk} (hd : d.WellFormed) (path text : String) :
    Writes d ((writeTable path text).on d).2 path
      (((writeTable path text).on d).1.toOption.map fun _ => text.toUTF8.toList) := by
  have hmake : Writes d (d.makeParent path).1 path none := by
    rw [Disk.makeParent]
    cases Path.parent? path with
    | none => exact writes_refl hd path
    | some parent => exact writes_make hd parent path
  rw [on_writeTable]
  cases (d.makeParent path).2 with
  | false => exact hmake
  | true =>
    cases hput : (d.makeParent path).1.put? path text.toUTF8.toList with
    | none => exact hmake
    | some e => exact hmake.trans (writes_put? hmake.wellFormed hput)

end PackageTriage
