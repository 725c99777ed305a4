import PackageTriage.Proofs.Training.Success

/-!
# The files that runs write

Every family has three of them: its model, its scaler and its report. Their names differ, so on a disk
with nothing of the kind on it they are files of their own, even if models and reports are kept in one
directory. A run writes to the files of its family only, and whatever it wrote is found by its path.
-/

namespace PackageTriage

inductive Output where
  | slot (s : Slot)
  | report (f : Family)
  deriving DecidableEq

namespace Output

def family : Output → Family
  | slot (.model f) => f
  | slot (.scaler f) => f
  | report f => f

def directory (dirs : Directories) : Output → String
  | slot _ => dirs.models
  | report _ => dirs.results

def name : Output → String
  | slot s => s.name
  | report f => f.code ++ "_validation.csv"

def path (dirs : Directories) (o : Output) : String := Path.join (o.directory dirs) o.name

theorem isName_name (o : Output) : Path.IsName o.name := by
  cases o with
  | slot s => exact s.isName_name
  | report f => cases f <;> exact ⟨by decide, by decide, by decide⟩

theorem name_injective {o o' : Output} (h : o.name = o'.name) : o = o' := by
  rcases o with (f | f) | f <;> rcases o' with (f' | f') | f' <;> cases f <;> cases f' <;>
    first
    | rfl
    | exact absurd h (by decide)

def Apart (dirs : Directories) (d : Disk) : Prop :=
  ∀ o o' : Output, o ≠ o' → ∀ q, d.aim? (o.path dirs) = some q → d.aim? (o'.path dirs) ≠ some q

theorem Apart.of_sameLinks {dirs : Directories} {d e : Disk} (h : Apart dirs d) (hlinks : d.SameLinks e) :
    Apart dirs e := by
  intro o o' hne q
  rw [hlinks.aim?_eq, hlinks.aim?_eq]
  exact h o o' hne q

end Output

/-- A disk on which no run has written anything: both directories are empty, or not there. -/
structure Vacant (dirs : Directories) (d : Disk) : Prop where
  wellFormed : d.WellFormed
  models_empty : ∀ p, d.aim? dirs.models = some p → ∀ name, d.at? (p ++ [name]) = none
  results_empty : ∀ p, d.aim? dirs.results = some p → ∀ name, d.at? (p ++ [name]) = none

namespace Vacant

variable {dirs : Directories} {d : Disk}

theorem directory_empty (h : Vacant dirs d) (o : Output) {p : Place}
    (hp : d.aim? (o.directory dirs) = some p) (name : String) : d.at? (p ++ [name]) = none := by
  cases o with
  | slot s => exact h.models_empty p hp name
  | report f => exact h.results_empty p hp name

theorem aim?_output (h : Vacant dirs d) (o : Output) :
    d.aim? (o.path dirs) = (d.aim? (o.directory dirs)).map (· ++ [o.name]) := by
  apply Disk.aim?_join o.isName_name
  intro p hp
  rw [Disk.linkAt?, h.directory_empty o hp]

/-- On a vacant disk no two outputs name the same file. -/
theorem apart (h : Vacant dirs d) : Output.Apart dirs d := by
  intro o o' hne q hq hq'
  rw [h.aim?_output, Option.map_eq_some_iff] at hq hq'
  obtain ⟨p, -, rfl⟩ := hq
  obtain ⟨p', -, hnames⟩ := hq'
  have hname : o'.name = o.name := (List.append_inj' hnames rfl).2 |> List.singleton_inj.1
  exact hne (Output.name_injective hname.symm)

theorem holds?_output (h : Vacant dirs d) (o : Output) : d.holds? (o.path dirs) = none := by
  rw [Disk.holds?, h.aim?_output]
  cases hp : d.aim? (o.directory dirs) with
  | none => rfl
  | some p => simp [Disk.fileAt?, h.directory_empty o hp]

end Vacant

def Disk.Finds (d : Disk) (path : String) : Prop := d.bytes? path = d.holds? path

theorem Disk.finds_of_holds?_eq_none {d : Disk} {path : String} (h : d.holds? path = none) :
    d.Finds path := by
  rw [Finds, h]
  cases hbytes : d.bytes? path with
  | none => rfl
  | some bytes => simp [holds?_of_bytes? hbytes] at h

/-- On a disk that grows, what stayed as it was is still found. -/
theorem Disk.Grows.finds {d e : Disk} (h : d.Grows e) {path : String} (hsame : e.holds? path = d.holds? path)
    (hfinds : d.Finds path) : e.Finds path := by
  cases hholds : d.holds? path with
  | none => exact finds_of_holds?_eq_none (hsame.trans hholds)
  | some bytes => exact h.bytes?_eq_holds? (hfinds ▸ Option.isSome_of_eq_some hholds)

namespace Writes

variable {dirs : Directories} {d e : Disk} {o : Output} {stored : Option (List UInt8)}

/-- What was found is found again, whether it was written or not. -/
theorem finds_output (h : Writes d e (o.path dirs) stored) (hapart : Output.Apart dirs d) {o' : Output}
    (hfinds : d.Finds (o'.path dirs)) : e.Finds (o'.path dirs) := by
  have hholds := h.holds?_among hapart o'
  by_cases heq : o' = o
  · rw [heq]
    cases stored with
    | some bytes => exact h.readable rfl
    | none => exact h.grows.finds h.holds_eq (heq ▸ hfinds)
  · rw [if_neg heq, Option.none_or] at hholds
    exact h.grows.finds hholds hfinds

end Writes

namespace TrainRequest

/-- A run on features as they are stores no scaler. -/
theorem scalerStored?_of_raw {r : TrainRequest} (h : r.method = .raw) (dirs : Directories) (d : Disk) :
    r.scalerStored? dirs d = none := by
  cases hp : r.prepared d with
  | error x => simp [scalerStored?, hp, Except.toOption]
  | ok p =>
    obtain ⟨x, -, -, hpreprocess⟩ := prepared_eq_ok hp
    rcases Method.preprocess_eq_ok hpreprocess with ⟨-, -, hnone⟩ | ⟨hraw, -⟩
    · simp [scalerStored?, hp, hnone, Except.toOption]
    · exact absurd h hraw

def writes? (r : TrainRequest) (dirs : Directories) (g : Grids Float) (d : Disk) :
    Output → Option (List UInt8)
  | .slot s => r.stores? dirs g d s
  | .report f => if f = r.family then (r.reportStored? dirs g d).map ValidationReport.bytes else none

/-- What a run does to all the files: each holds what the run wrote there, or else what it held before, and
if it was found before it still is. -/
theorem outputs_run {d : Disk} (hd : d.WellFormed) (r : TrainRequest) {dirs : Directories}
    (g : Grids Float) (hapart : Output.Apart dirs d) :
    ((r.run dirs g).on d).2.WellFormed ∧ d.Grows ((r.run dirs g).on d).2 ∧ ∀ o : Output,
      ((r.run dirs g).on d).2.holds? (o.path dirs) = (r.writes? dirs g d o).or (d.holds? (o.path dirs)) ∧
      (d.Finds (o.path dirs) → ((r.run dirs g).on d).2.Finds (o.path dirs)) := by
  obtain ⟨e, path, stored, hkeep, hwrites, hends⟩ := exists_writes_run hd r dirs g
  refine ⟨hwrites.wellFormed, hkeep.grows.trans hwrites.grows, fun o => ?_⟩
  have hapart' := hapart.of_sameLinks hkeep.grows.toSameLinks
  have hkeep : Writes d e ((Output.slot (.scaler r.family)).path dirs) _ := hkeep
  cases hends with
  | report hmodel =>
    have hwrites : Writes e _ ((Output.report r.family).path dirs) _ := hwrites
    refine ⟨?_, fun hfinds => hwrites.finds_output hapart' (hkeep.finds_output hapart hfinds)⟩
    rw [hwrites.holds?_among hapart' o, hkeep.holds?_among hapart o]
    rcases o with (f | f) | f <;> simp [writes?, stores?, hmodel]
  | model hreport =>
    have hwrites : Writes e _ ((Output.slot (.model r.family)).path dirs) _ := hwrites
    refine ⟨?_, fun hfinds => hwrites.finds_output hapart' (hkeep.finds_output hapart hfinds)⟩
    rw [hwrites.holds?_among hapart' o, hkeep.holds?_among hapart o]
    rcases o with (f | f) | f <;> simp [writes?, stores?, hreport]

end TrainRequest

end PackageTriage
