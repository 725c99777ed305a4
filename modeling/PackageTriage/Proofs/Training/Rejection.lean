import PackageTriage.Proofs.Training.History
import PackageTriage.Proofs.Training.Outputs

/-!
# Runs that fail

A run stores its scaler before it sweeps or fits, and its report or model at the very end. So a run that
fails before it has preprocessed its data leaves the disk as it was, and one that fails later has changed
no file but the scaler of its family, which is then the one it fitted.
-/

namespace PackageTriage

open Run

theorem Store.save_eq_error {β : Type} [Layout β] {models path : String} {b : β} {d e : Disk} {x : Error}
    (h : (save models path b).on d = (.error x, e)) : x = .storage := by
  rw [on_save] at h
  cases hmade : (d.make models).2 with
  | false => simpa [hmade, eq_comm] using congrArg Prod.fst h
  | true =>
    cases hput : (d.make models).1.put? path (Layout.write b) with
    | none => simpa [hmade, hput, eq_comm] using congrArg Prod.fst h
    | some e' => simp [hmade, hput] at h

namespace TrainRequest

variable {r : TrainRequest} {dirs : Directories} {g : Grids Float} {d e : Disk} {x : Error}

/-- A run that fails writes no report and no model: it has stored its scaler, if it got so far. -/
theorem exists_writes_failed (hd : d.WellFormed) (hrun : (r.run dirs g).on d = (.error x, e)) :
    ∃ e', Writes d e' (Store.scalerPath dirs.models r.family) ((r.scalerStored? dirs d).map Layout.write) ∧
      e'.SameFiles e ∧ e'.Grows e := by
  obtain ⟨e', path, stored, hkeep, hwrites, hends⟩ := exists_writes_run hd r dirs g
  have hnone : stored = none := by
    cases hends with
    | report _ => rw [reportStored?_of_error (by rw [hrun]), Option.map_none]
    | model _ => rw [modelStored?_of_error (by rw [hrun]), Option.map_none]
  rw [hnone, hrun] at hwrites
  exact ⟨e', hkeep, hwrites.sameFiles, hwrites.grows⟩

/-- A scaler that was fitted is stored, unless the disk fails the run. -/
theorem scalerStored?_of_failed {p : Prepared} {s : Scaler Float} (hp : r.prepared d = .ok p)
    (hs : p.scaler = some s) (hrun : (r.run dirs g).on d = (.error x, e)) (hx : x ≠ .storage) :
    r.scalerStored? dirs d = some s := by
  cases hsave : (Store.saveScaler dirs.models r.family s).on d with
  | mk outcome d' =>
    cases outcome with
    | ok written => simp [scalerStored?, hp, hs, hsave, Except.toOption]
    | error y =>
      have hkeep : (r.keepScaler dirs p.scaler).on d = (.error y, d') := by
        rw [hs, keepScaler, on_bind_of_error hsave]
      have hprepare : r.prepare.on d = (.ok p, d) := by rw [on_prepare, hp]
      rw [run_eq, on_bind_of_ok hprepare, on_bind_of_error hkeep] at hrun
      obtain rfl := Except.error.inj (Prod.mk.inj hrun).1
      exact absurd (Store.save_eq_error hsave) hx

/-- What a run leaves that fails. If it found no data to work on, the disk is as it was. If it left the
features as they are, all files are as they were. Otherwise the only file that it may have changed is the
scaler of its family, and that is the scaler it fitted, unless it was the disk that failed. -/
theorem failed_run (hd : d.WellFormed) (hrun : (r.run dirs g).on d = (.error x, e)) :
    (∀ y, r.prepared d = .error y → x = y ∧ e = d) ∧
    (r.method = .raw → d.SameFiles e) ∧
    ∀ p, r.prepared d = .ok p → r.method ≠ .raw → ∃ s, p.scaler = some s ∧ s.method = r.method ∧
      d.SameLinks e ∧
      (∀ q, d.aim? (Store.scalerPath dirs.models r.family) ≠ some q → e.fileAt? q = d.fileAt? q) ∧
      (x ≠ .storage → e.bytes? (Store.scalerPath dirs.models r.family) = some (Layout.write s)) := by
  obtain ⟨e', hkeep, hsame, hgrows⟩ := exists_writes_failed hd hrun
  refine ⟨fun y hy => ?_, fun hraw => ?_, fun p hp hraw => ?_⟩
  · have hprepare : r.prepare.on d = (.error y, d) := by rw [on_prepare, hy]
    rw [run_eq, on_bind_of_error hprepare] at hrun
    obtain ⟨hxy, rfl⟩ := Prod.mk.inj hrun
    exact ⟨(Except.error.inj hxy).symm, rfl⟩
  · rw [scalerStored?_of_raw hraw, Option.map_none] at hkeep
    exact hkeep.sameFiles.trans hsame
  · obtain ⟨z, -, -, hpreprocess⟩ := prepared_eq_ok hp
    rcases Method.preprocess_eq_ok hpreprocess with ⟨hraw', -⟩ | ⟨-, s, hs, hmethod, -⟩
    · exact absurd hraw' hraw
    refine ⟨s, hs, hmethod, hkeep.grows.toSameLinks.trans hsame.toSameLinks, fun q hq => ?_, fun hx => ?_⟩
    · rw [hsame.file_eq, hkeep.file_other q hq]
    · rw [scalerStored?_of_failed hp hs hrun hx] at hkeep
      have hholds : e'.holds? (Store.scalerPath dirs.models r.family) = some (Layout.write s) :=
        hkeep.holds_eq
      have hbytes := (hkeep.readable rfl).trans hholds
      rw [hgrows.bytes?_eq_holds? (Option.isSome_of_eq_some hbytes), hsame.holds?_eq, hholds]

end TrainRequest

/-- A sweep over two scaled samples, which are too few to be dealt out to four folds. -/
def TrainRequest.tooFew : TrainRequest := ⟨["a"], ["b"], .minMax, .naiveBayes, .validate, default⟩

def Disk.afterTooFew : Disk := ((TrainRequest.tooFew.run default default).on .twoPackages).2

theorem on_tooFew : (TrainRequest.tooFew.run default default).on .twoPackages =
    (.error (.data (.fewSamples 2 4)), .afterTooFew) :=
  Prod.ext (by decide +kernel) rfl

/-- The scaler of the refused sweep is in its slot, which was empty before. -/
theorem failed_run_tooFew : Disk.twoPackages.WellFormed ∧
    (TrainRequest.tooFew.run default default).on .twoPackages =
      (.error (.data (.fewSamples 2 4)), .afterTooFew) ∧
    Disk.twoPackages.bytes? (Store.scalerPath "models" .naiveBayes) = none ∧
    ∃ p s, TrainRequest.tooFew.prepared .twoPackages = .ok p ∧ p.scaler = some s ∧
      Disk.afterTooFew.bytes? (Store.scalerPath "models" .naiveBayes) = some (Layout.write s) := by
  have hd := fresh_twoPackages.wellFormed
  have hempty : Disk.twoPackages.bytes? (Store.scalerPath "models" .naiveBayes) = none := by decide +kernel
  have hprepared : (TrainRequest.tooFew.prepared .twoPackages).toOption.isSome := by decide +kernel
  obtain ⟨-, -, hscaler⟩ := TrainRequest.failed_run hd on_tooFew
  cases hp : TrainRequest.tooFew.prepared .twoPackages with
  | error y => simp [hp, Except.toOption] at hprepared
  | ok p =>
    obtain ⟨s, hs, -, -, -, hbytes⟩ := hscaler p hp (by decide)
    exact ⟨hd, on_tooFew, hempty, p, s, rfl, hs, hbytes (by simp)⟩

/-- The files below the directories of models and reports are what they were. -/
def Untouched (dirs : Directories) (d e : Disk) : Prop :=
  ∀ p q, (d.aim? dirs.models = some p ∨ d.aim? dirs.results = some p) → p <+: q → e.fileAt? q = d.fileAt? q

/-- So a run can fail without any trouble on the disk and still have written a file. -/
theorem not_untouched : ¬ ∀ (r : TrainRequest) (dirs : Directories) (g : Grids Float) (d e : Disk)
    (x : Error), d.WellFormed → (r.run dirs g).on d = (.error x, e) → x ≠ .storage → x ≠ .table →
    Untouched dirs d e := by
  intro hall
  have hkept := hall .tooFew default default .twoPackages _ _ fresh_twoPackages.wellFormed on_tooFew
    (by simp) (by simp)
  have hmodels : Disk.twoPackages.aim? (default : Directories).models = some ["home", "models"] := by
    decide +kernel
  have hfile := hkept ["home", "models"] ["home", "models", "NB_scaler.pkl"] (.inl hmodels) (by simp)
  revert hfile
  decide +kernel

end PackageTriage
