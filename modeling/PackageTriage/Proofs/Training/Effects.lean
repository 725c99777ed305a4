import PackageTriage.Proofs.Storage.Slots
import PackageTriage.Training.Run

/-!
# What a training run leaves in the slots

A run first reads and fits a scaler, then stores the scaler, and only at its end stores a model or writes
a report. So the scaler slot can change in a run that fails later, or that only validates.
-/

namespace PackageTriage

open Run

inductive Slot where
  | model (f : Family)
  | scaler (f : Family)
  deriving DecidableEq

namespace Slot

def name : Slot → String
  | model f => f.code ++ ".pkl"
  | scaler f => f.code ++ "_scaler.pkl"

def path (models : String) (s : Slot) : String := Path.join models s.name

theorem isName_name (s : Slot) : Path.IsName s.name := by
  rcases s with f | f <;> cases f <;> exact ⟨by decide, by decide, by decide⟩

/-- Each slot has a name of its own. -/
theorem name_injective {s t : Slot} (h : s.name = t.name) : s = t := by
  rcases s with f | f <;> rcases t with g | g <;> cases f <;> cases g <;>
    first
    | rfl
    | exact absurd h (by decide)

/-- No two slots lead to one place, and no report leads to a slot. -/
structure Apart (dirs : Directories) (d : Disk) : Prop where
  slots : ∀ s t : Slot, s ≠ t → ∀ q, d.aim? (s.path dirs.models) = some q →
    d.aim? (t.path dirs.models) ≠ some q
  reports : ∀ (f : Family) (s : Slot) (q : Place),
    d.aim? (TrainRequest.reportPath dirs.results f) = some q → d.aim? (s.path dirs.models) ≠ some q

theorem Apart.of_sameLinks {dirs : Directories} {d e : Disk} (h : Apart dirs d) (hlinks : d.SameLinks e) :
    Apart dirs e := by
  refine ⟨fun s t hst q => ?_, fun f s q => ?_⟩
  · rw [hlinks.aim?_eq, hlinks.aim?_eq]
    exact h.slots s t hst q
  · rw [hlinks.aim?_eq, hlinks.aim?_eq]
    exact h.reports f s q

end Slot

def ValidationReport.bytes (report : ValidationReport) : List UInt8 := report.csv.toUTF8.toList

namespace TrainRequest

/-- What a run has found before it stores anything. -/
structure Prepared where
  /-- The hyperparameters of the model that is to be saved, if one is. -/
  chosen : Option (Hyperparameters Float)
  /-- The preprocessed matrix. -/
  features : Matrix Float
  labels : List Float
  scaler : Option (Scaler Float)

section

variable {m : Type → Type} [Monad m] [FileSystem m]

def prepare (r : TrainRequest) : Run m Prepared := do
  let chosen ← Run.ofExcept r.chosen
  let (x, y) ← r.readData
  let (x, scaler) ← Run.ofExcept (r.method.preprocess x)
  return ⟨chosen, x, y, scaler⟩

def keepScaler (r : TrainRequest) (dirs : Directories) : Option (Scaler Float) → Run m Unit
  | none => pure ()
  | some s => do let _ ← Store.saveScaler dirs.models r.family s

def conclude (r : TrainRequest) (dirs : Directories) (g : Grids Float) (p : Prepared) : Run m String :=
  match p.chosen with
  | none => r.validate dirs g p.features p.labels
  | some h => r.save dirs h p.features p.labels

end

/-- A run is its three parts one after the other. -/
theorem run_eq (r : TrainRequest) (dirs : Directories) (g : Grids Float) :
    (r.run dirs g : Run (StateM Disk) String) =
      r.prepare >>= fun p => r.keepScaler dirs p.scaler >>= fun _ => r.conclude dirs g p := by
  simp only [run, prepare, bind_assoc, pure_bind]
  refine bind_congr fun chosen => bind_congr fun data => bind_congr fun scaled => ?_
  cases scaled.2 with
  | none => rfl
  | some s =>
    simp only [keepScaler, bind_assoc, pure_bind]
    rfl

theorem reads_prepare (r : TrainRequest) : Reads (r.prepare : Run (StateM Disk) Prepared) := by
  refine reads_bind (reads_ofExcept _) fun chosen => ?_
  refine reads_bind (reads_bind (Dataset.reads_read _ _) fun _ => reads_ofExcept _) fun data => ?_
  exact reads_bind (reads_ofExcept _) fun scaled => reads_pure _

def prepared (r : TrainRequest) (d : Disk) : Except Error Prepared := (r.prepare.on d).1

theorem on_prepare (r : TrainRequest) (d : Disk) : r.prepare.on d = (r.prepared d, d) :=
  Prod.ext rfl (r.reads_prepare d)

def scalerStored? (r : TrainRequest) (dirs : Directories) (d : Disk) : Option (Scaler Float) := do
  let p ← (r.prepared d).toOption
  let s ← p.scaler
  let _ ← ((Store.saveScaler dirs.models r.family s).on d).1.toOption
  return s

def artifact (r : TrainRequest) (h : Hyperparameters Float) (k : Classifier Float) : Artifact Float :=
  ⟨r.family, r.method, h.label, k⟩

def modelStored? (r : TrainRequest) (dirs : Directories) (g : Grids Float) (d : Disk) :
    Option (Artifact Float) := do
  let _ ← ((r.run dirs g).on d).1.toOption
  let p ← (r.prepared d).toOption
  let h ← p.chosen
  let k ← (Classifier.fit h p.features p.labels).toOption
  return r.artifact h k

def reportStored? (r : TrainRequest) (dirs : Directories) (g : Grids Float) (d : Disk) :
    Option ValidationReport := do
  let _ ← ((r.run dirs g).on d).1.toOption
  let p ← (r.prepared d).toOption
  match p.chosen with
  | none => (ValidationReport.sweep r.family p.features p.labels g).toOption
  | some _ => none

/-- The bytes that a run puts into a slot, if it gets there. -/
def stores? (r : TrainRequest) (dirs : Directories) (g : Grids Float) (d : Disk) :
    Slot → Option (List UInt8)
  | .model f => if f = r.family then (r.modelStored? dirs g d).map Layout.write else none
  | .scaler f => if f = r.family then (r.scalerStored? dirs d).map Layout.write else none

/-- Keeping the scaler writes to its slot alone. -/
theorem writes_keepScaler {d : Disk} (hd : d.WellFormed) (r : TrainRequest) (dirs : Directories)
    (scaler : Option (Scaler Float)) :
    Writes d ((r.keepScaler dirs scaler).on d).2 (Slot.path dirs.models (.scaler r.family))
      (scaler.bind fun s => Store.left s ((Store.saveScaler dirs.models r.family s).on d).1) := by
  cases scaler with
  | none => exact writes_refl hd _
  | some s =>
    have hsave := Store.writes_save hd dirs.models (Store.scalerPath dirs.models r.family) s
    have hkeep : ((r.keepScaler dirs (some s)).on d).2 =
        ((Store.saveScaler dirs.models r.family s).on d).2 := by
      rw [keepScaler, on_bind]
      cases (Store.saveScaler dirs.models r.family s).on d with
      | mk outcome e => cases outcome <;> rfl
    rw [hkeep]
    exact hsave

/-- A sweep writes its report alone. -/
theorem writes_validate {d : Disk} (hd : d.WellFormed) (r : TrainRequest) (dirs : Directories)
    (g : Grids Float) (x : Matrix Float) (y : List Float) :
    Writes d ((r.validate dirs g x y).on d).2 (reportPath dirs.results r.family)
      (((r.validate dirs g x y).on d).1.toOption.bind fun _ =>
        (ValidationReport.sweep r.family x y g).toOption.map ValidationReport.bytes) := by
  rw [validate, on_bind, on_ofExcept]
  cases ValidationReport.sweep r.family x y g with
  | error e => exact writes_refl hd _
  | ok report =>
    have hwrites := writes_writeTable hd (reportPath dirs.results r.family) report.csv
    simp only [on_bind]
    cases htable : (writeTable (reportPath dirs.results r.family) report.csv).on d with
    | mk outcome e =>
      rw [htable] at hwrites
      cases outcome <;> exact hwrites

theorem writes_save {d : Disk} (hd : d.WellFormed) (r : TrainRequest) (dirs : Directories)
    (h : Hyperparameters Float) (x : Matrix Float) (y : List Float) :
    Writes d ((r.save dirs h x y).on d).2 (Slot.path dirs.models (.model r.family))
      (((r.save dirs h x y).on d).1.toOption.bind fun _ =>
        (Classifier.fit h x y).toOption.map fun k => Layout.write (r.artifact h k)) := by
  rw [save, on_bind, on_ofExcept]
  cases Classifier.fit h x y with
  | error e => exact writes_refl hd _
  | ok k =>
    have hwrites :=
      Store.writes_save hd dirs.models (Store.modelPath dirs.models r.family) (r.artifact h k)
    have hleft : ∀ outcome : Except Error String, Store.left (r.artifact h k) outcome =
        outcome.toOption.bind fun _ =>
          (Except.ok k : Except Error _).toOption.map fun k => Layout.write (r.artifact h k) := by
      intro outcome
      cases outcome <;> rfl
    rw [hleft] at hwrites
    exact hwrites

theorem scalerStored?_eq {r : TrainRequest} {d : Disk} {p : Prepared} (hp : r.prepared d = .ok p)
    (dirs : Directories) : (r.scalerStored? dirs d).map Layout.write =
      p.scaler.bind fun s => Store.left s ((Store.saveScaler dirs.models r.family s).on d).1 := by
  rw [scalerStored?, hp]
  cases hs : p.scaler with
  | none => simp [Except.toOption, hs]
  | some s =>
    cases hsave : ((Store.saveScaler dirs.models r.family s).on d).1 <;>
      simp [Except.toOption, Store.left, hs, hsave]

/-- A failed run stores no model. -/
theorem modelStored?_of_error {r : TrainRequest} {dirs : Directories} {g : Grids Float} {d : Disk}
    {x : Error} (h : ((r.run dirs g).on d).1 = .error x) : r.modelStored? dirs g d = none := by
  rw [modelStored?, h]
  rfl

theorem reportStored?_of_error {r : TrainRequest} {dirs : Directories} {g : Grids Float} {d : Disk}
    {x : Error} (h : ((r.run dirs g).on d).1 = .error x) : r.reportStored? dirs g d = none := by
  rw [reportStored?, h]
  rfl

/-- Where the last part of a run writes, and what, if anything. -/
inductive Ends (r : TrainRequest) (dirs : Directories) (g : Grids Float) (d : Disk) :
    String → Option (List UInt8) → Prop where
  | report (hmodel : r.modelStored? dirs g d = none) :
    Ends r dirs g d (reportPath dirs.results r.family)
      ((r.reportStored? dirs g d).map ValidationReport.bytes)
  | model (hreport : r.reportStored? dirs g d = none) :
    Ends r dirs g d (Slot.path dirs.models (.model r.family)) ((r.modelStored? dirs g d).map Layout.write)

/-- The last part of a run writes to one path, the report's or the model's. -/
theorem exists_writes_conclude {d e : Disk} (he : e.WellFormed) {r : TrainRequest} {p : Prepared}
    (hp : r.prepared d = .ok p) {dirs : Directories} {g : Grids Float}
    (hrun : (r.run dirs g).on d = (r.conclude dirs g p).on e) :
    ∃ path stored, Writes e ((r.conclude dirs g p).on e).2 path stored ∧ r.Ends dirs g d path stored := by
  have hmodel := modelStored?.eq_1 r dirs g d
  have hreport := reportStored?.eq_1 r dirs g d
  rw [hrun, hp] at hmodel hreport
  cases hchosen : p.chosen with
  | none =>
    have hwrites := writes_validate he r dirs g p.features p.labels
    have hconclude : (r.conclude dirs g p : Run (StateM Disk) String) =
        r.validate dirs g p.features p.labels := by
      simp [conclude, hchosen]
    have hstored : (r.reportStored? dirs g d).map ValidationReport.bytes =
        ((r.conclude dirs g p).on e).1.toOption.bind fun _ =>
          (ValidationReport.sweep r.family p.features p.labels g).toOption.map ValidationReport.bytes := by
      rw [hreport]
      cases ((r.conclude dirs g p).on e).1 <;> simp [Except.toOption, hchosen]
    rw [← hconclude, ← hstored] at hwrites
    refine ⟨_, _, hwrites, .report ?_⟩
    rw [hmodel]
    cases ((r.conclude dirs g p).on e).1 <;> simp [Except.toOption, hchosen]
  | some h =>
    have hwrites := writes_save he r dirs h p.features p.labels
    have hconclude : (r.conclude dirs g p : Run (StateM Disk) String) =
        r.save dirs h p.features p.labels := by
      simp [conclude, hchosen]
    have hstored : (r.modelStored? dirs g d).map Layout.write =
        ((r.conclude dirs g p).on e).1.toOption.bind fun _ =>
          (Classifier.fit h p.features p.labels).toOption.map fun k => Layout.write (r.artifact h k) := by
      rw [hmodel]
      cases ((r.conclude dirs g p).on e).1 <;>
        cases hfit : Classifier.fit h p.features p.labels <;>
        simp [Except.toOption, hchosen, hfit]
    rw [← hconclude, ← hstored] at hwrites
    refine ⟨_, _, hwrites, .model ?_⟩
    rw [hreport]
    cases ((r.conclude dirs g p).on e).1 <;> simp [Except.toOption, hchosen]

/-- Where a run fails before its last part, it writes nothing more. -/
theorem exists_ends_of_error {r : TrainRequest} {dirs : Directories} {g : Grids Float} {d e : Disk}
    {x : Error} (he : e.WellFormed) (hrun : (r.run dirs g).on d = (.error x, e)) :
    ∃ path stored, Writes e ((r.run dirs g).on d).2 path stored ∧ r.Ends dirs g d path stored := by
  have hreport : r.reportStored? dirs g d = none := reportStored?_of_error (by rw [hrun])
  have hends : r.Ends dirs g d _ _ := .report (modelStored?_of_error (by rw [hrun]))
  rw [hreport] at hends
  rw [hrun]
  exact ⟨_, none, writes_refl he _, hends⟩

/-- What a run does to a disk: it stores a scaler, or none, and then writes a report or saves a model, or
does neither. -/
theorem exists_writes_run {d : Disk} (hd : d.WellFormed) (r : TrainRequest) (dirs : Directories)
    (g : Grids Float) :
    ∃ e path stored,
      Writes d e (Slot.path dirs.models (.scaler r.family)) ((r.scalerStored? dirs d).map Layout.write) ∧
      Writes e ((r.run dirs g).on d).2 path stored ∧ r.Ends dirs g d path stored := by
  have hprepare := r.on_prepare d
  cases hp : r.prepared d with
  | error x =>
    rw [hp] at hprepare
    have hrun : (r.run dirs g).on d = (.error x, d) := by rw [run_eq, on_bind_of_error hprepare]
    have hscaler : r.scalerStored? dirs d = none := by
      rw [scalerStored?, hp]
      rfl
    obtain ⟨path, stored, hwrites⟩ := exists_ends_of_error hd hrun
    exact ⟨d, path, stored, by rw [hscaler]; exact writes_refl hd _, hwrites⟩
  | ok p =>
    rw [hp] at hprepare
    have hrest : (r.run dirs g).on d =
        (r.keepScaler dirs p.scaler >>= fun _ => r.conclude dirs g p).on d := by
      rw [run_eq, on_bind_of_ok hprepare]
    have hkeep := writes_keepScaler hd r dirs p.scaler
    rw [← scalerStored?_eq hp] at hkeep
    cases hkept : (r.keepScaler dirs p.scaler).on d with
    | mk outcome e =>
      rw [hkept] at hkeep
      cases outcome with
      | error x =>
        rw [on_bind_of_error hkept] at hrest
        obtain ⟨path, stored, hwrites⟩ := exists_ends_of_error hkeep.wellFormed hrest
        exact ⟨e, path, stored, hkeep, hwrites⟩
      | ok u =>
        rw [on_bind_of_ok hkept] at hrest
        obtain ⟨path, stored, hwrites, hends⟩ := exists_writes_conclude hkeep.wellFormed hp hrest
        exact ⟨e, path, stored, hkeep, hrest ▸ hwrites, hends⟩

/-- What a run does to the slots: each holds what the run stored there, or else what it held before. -/
theorem holds?_run {d : Disk} (hd : d.WellFormed) (r : TrainRequest) {dirs : Directories} (g : Grids Float)
    (hapart : Slot.Apart dirs d) :
    ((r.run dirs g).on d).2.WellFormed ∧ d.Grows ((r.run dirs g).on d).2 ∧
      ∀ s : Slot, ((r.run dirs g).on d).2.holds? (s.path dirs.models) =
        (r.stores? dirs g d s).or (d.holds? (s.path dirs.models)) := by
  obtain ⟨e, path, stored, hkeep, hwrites, hends⟩ := exists_writes_run hd r dirs g
  refine ⟨hwrites.wellFormed, hkeep.grows.trans hwrites.grows, fun s => ?_⟩
  have hscaler := hkeep.holds?_among hapart.slots s
  have hapart' := hapart.of_sameLinks hkeep.grows.toSameLinks
  cases hends with
  | report hmodel =>
    rw [hwrites.holds_other _ (hapart'.reports r.family s), hscaler]
    cases s <;> simp [stores?, hmodel]
  | model _ =>
    rw [hwrites.holds?_among hapart'.slots s, hscaler]
    cases s <;> simp [stores?]

end TrainRequest

end PackageTriage
