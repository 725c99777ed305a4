import PackageTriage.Proofs.Classifier.Fitting
import PackageTriage.Proofs.Grids.Choices
import PackageTriage.Proofs.Training.Effects

/-!
# Runs that succeed

A run that succeeds has gone through all its parts, so what it stored can be told from what it read.
-/

namespace PackageTriage

open Run

def Slot.Differ (models : String) (f : Family) (d : Disk) : Prop :=
  ∀ q, d.aim? (Store.modelPath models f) = some q → d.aim? (Store.scalerPath models f) ≠ some q

/-- The two slots of a family hold on the one disk what they hold on the other. -/
structure Slot.Kept (models : String) (f : Family) (d e : Disk) : Prop where
  model_eq : e.bytes? (Store.modelPath models f) = d.bytes? (Store.modelPath models f)
  scaler_eq : e.bytes? (Store.scalerPath models f) = d.bytes? (Store.scalerPath models f)

namespace TrainRequest

/-- What a prepared request read, chose and scaled. -/
theorem prepared_eq_ok {r : TrainRequest} {d : Disk} {p : Prepared} (h : r.prepared d = .ok p) :
    ∃ x, r.chosen = .ok p.chosen ∧ (r.readData.on d).1 = .ok (x, p.labels) ∧
      r.method.preprocess x = .ok (p.features, p.scaler) := by
  have hprepare : r.prepare.on d = (.ok p, d) := by rw [on_prepare, h]
  obtain ⟨chosen, d₁, hchosen, hprepare⟩ := on_bind_eq_ok hprepare
  obtain ⟨⟨x, y⟩, d₂, hdata, hprepare⟩ := on_bind_eq_ok hprepare
  obtain ⟨⟨z, scaler⟩, d₃, hscaled, hlast⟩ := on_bind_eq_ok hprepare
  obtain ⟨hchosen', rfl⟩ := Prod.mk.inj hchosen
  obtain ⟨hscaled', rfl⟩ := Prod.mk.inj hscaled
  obtain rfl := Except.ok.inj (Prod.mk.inj hlast).1
  exact ⟨x, hchosen', congrArg Prod.fst hdata, hscaled'⟩

/-- In a run that succeeds all three parts do. -/
theorem run_eq_ok {r : TrainRequest} {dirs : Directories} {g : Grids Float} {d f : Disk} {written : String}
    (hrun : (r.run dirs g).on d = (.ok written, f)) :
    ∃ p e, r.prepared d = .ok p ∧ (r.keepScaler dirs p.scaler).on d = (.ok (), e) ∧
      (r.conclude dirs g p).on e = (.ok written, f) := by
  rw [run_eq] at hrun
  obtain ⟨p, d', hprepare, hrest⟩ := on_bind_eq_ok hrun
  obtain ⟨hp, rfl⟩ : r.prepared d = .ok p ∧ d = d' := by
    rw [on_prepare] at hprepare
    exact Prod.mk.inj hprepare
  obtain ⟨u, e, hkeep, hconclude⟩ := on_bind_eq_ok hrest
  exact ⟨p, e, hp, hkeep, hconclude⟩

theorem keepScaler_eq_ok {r : TrainRequest} {dirs : Directories} {s : Scaler Float} {d e : Disk}
    (h : (r.keepScaler dirs (some s)).on d = (.ok (), e)) :
    ∃ written, (Store.saveScaler dirs.models r.family s).on d = (.ok written, e) := by
  obtain ⟨written, e', hsave, hrest⟩ := on_bind_eq_ok h
  obtain rfl : e' = e := congrArg Prod.snd hrest
  exact ⟨written, hsave⟩

/-- A run that succeeds has stored the scaler it fitted. -/
theorem scalerStored?_of_ok {r : TrainRequest} {dirs : Directories} {g : Grids Float} {d e : Disk}
    {written : String} (hrun : (r.run dirs g).on d = (.ok written, e)) :
    ∃ p, r.prepared d = .ok p ∧ r.scalerStored? dirs d = p.scaler := by
  obtain ⟨p, e', hp, hkeep, -⟩ := run_eq_ok hrun
  refine ⟨p, hp, ?_⟩
  rw [scalerStored?, hp]
  cases hs : p.scaler with
  | none => simp [Except.toOption, hs]
  | some s =>
    rw [hs] at hkeep
    obtain ⟨path, hsave⟩ := keepScaler_eq_ok hkeep
    simp [Except.toOption, hs, hsave]

/-- A model is stored only by a saved request that went through all its stages. -/
theorem modelStored?_eq_some {r : TrainRequest} {dirs : Directories} {g : Grids Float} {d : Disk}
    {a : Artifact Float} (h : r.modelStored? dirs g d = some a) :
    ∃ written e p settings k, (r.run dirs g).on d = (.ok written, e) ∧ r.prepared d = .ok p ∧
      p.chosen = some settings ∧ Classifier.fit settings p.features p.labels = .ok k ∧
      a = r.artifact settings k ∧ r.scalerStored? dirs d = p.scaler := by
  rw [modelStored?] at h
  cases hrun : (r.run dirs g).on d with
  | mk outcome e =>
    cases outcome with
    | error x => simp [hrun, Except.toOption] at h
    | ok written =>
      obtain ⟨p, hp, hscaler⟩ := scalerStored?_of_ok hrun
      cases hchosen : p.chosen with
      | none => simp [hrun, hp, hchosen, Except.toOption] at h
      | some settings =>
        cases hfit : Classifier.fit settings p.features p.labels with
        | error x => simp [hrun, hp, hchosen, hfit, Except.toOption] at h
        | ok k =>
          have ha : r.artifact settings k = a := by
            simpa [hrun, hp, hchosen, hfit, Except.toOption] using h
          exact ⟨written, e, p, settings, k, rfl, hp, hchosen, hfit, ha.symm, hscaler⟩

/-- A run that validates stores no model. -/
theorem modelStored?_of_validate {r : TrainRequest} (h : r.action = .validate) (dirs : Directories)
    (g : Grids Float) (d : Disk) : r.modelStored? dirs g d = none := by
  cases hmodel : r.modelStored? dirs g d with
  | none => rfl
  | some a =>
    obtain ⟨-, -, p, settings, -, -, hp, hchosen, -⟩ := modelStored?_eq_some hmodel
    obtain ⟨-, hnone, -⟩ := prepared_eq_ok hp
    rw [hchosen, chosen, h] at hnone
    simp at hnone

/-- What a run has done that saved a model: what it prepared, what it fitted to that, and what it left
in the slots of its family. -/
structure Saved (r : TrainRequest) (dirs : Directories) (g : Grids Float) (d f : Disk) (p : Prepared)
    (h : Hyperparameters Float) (k : Classifier Float) : Prop where
  prepared_eq : r.prepared d = .ok p
  chosen_eq : p.chosen = some h
  fit_eq : Classifier.fit h p.features p.labels = .ok k
  model_stored : r.modelStored? dirs g d = some (r.artifact h k)
  scaler_stored : r.scalerStored? dirs d = p.scaler
  model_bytes : f.bytes? (Store.modelPath dirs.models r.family) = some (Layout.write (r.artifact h k))
  scaler_bytes : ∀ s, p.scaler = some s →
    f.bytes? (Store.scalerPath dirs.models r.family) = some (Layout.write s)

theorem exists_chosen {r : TrainRequest} {d : Disk} {p : Prepared} (haction : r.action = .save)
    (hp : r.prepared d = .ok p) : ∃ h, p.chosen = some h ∧ h.family = r.family := by
  obtain ⟨-, hchosen, -⟩ := prepared_eq_ok hp
  rw [chosen, haction] at hchosen
  cases hresolve : r.selection.resolve r.family with
  | error x => simp [hresolve, Except.map] at hchosen
  | ok h =>
    have hh : some h = p.chosen := by simpa [hresolve, Except.map] using hchosen
    exact ⟨h, hh.symm, Selection.family_of_resolve hresolve⟩

/-- A run that succeeds in saving leaves model and scaler in their slots. -/
theorem exists_saved {r : TrainRequest} {dirs : Directories} {g : Grids Float} {d f : Disk}
    {written : String} (hd : d.WellFormed) (hslots : Slot.Differ dirs.models r.family d) (haction : r.action = .save)
    (hrun : (r.run dirs g).on d = (.ok written, f)) :
    ∃ p h k, r.Saved dirs g d f p h k := by
  obtain ⟨p, e, hp, hkeep, hconclude⟩ := run_eq_ok hrun
  obtain ⟨h, hchosen, -⟩ := exists_chosen haction hp
  have hkept := writes_keepScaler hd r dirs p.scaler
  rw [hkeep] at hkept
  have hsaved : (r.save dirs h p.features p.labels).on e = (.ok written, f) := by
    simpa only [conclude, hchosen] using hconclude
  obtain ⟨k, e', hfitted, hsave⟩ := on_bind_eq_ok hsaved
  obtain ⟨hfit, rfl⟩ := Prod.mk.inj hfitted
  have hstore : (Store.save dirs.models (Store.modelPath dirs.models r.family) (r.artifact h k)).on e =
      (.ok written, f) := hsave
  have hwrites := Store.writes_save hkept.wellFormed dirs.models (Store.modelPath dirs.models r.family)
    (r.artifact h k)
  rw [hstore] at hwrites
  refine ⟨p, h, k, hp, hchosen, hfit, ?_, ?_, (Store.save_eq_ok hkept.wellFormed hstore).2,
    fun s hs => ?_⟩
  · simp [modelStored?, hrun, hp, hchosen, hfit, Except.toOption]
  · obtain ⟨p', hp', hscaler⟩ := scalerStored?_of_ok hrun
    obtain rfl := Except.ok.inj (hp.symm.trans hp')
    exact hscaler
  · rw [hs] at hkeep
    obtain ⟨path, hscaler⟩ := keepScaler_eq_ok hkeep
    have hbefore := (Store.save_eq_ok hd hscaler).2
    -- The model is written behind the scaler, but to another place.
    rw [hwrites.grows.bytes?_eq_holds? (Option.isSome_of_eq_some hbefore), hwrites.holds_other]
    · exact Disk.holds?_of_bytes? hbefore
    · intro q hq
      rw [hkept.grows.aim?_eq] at hq ⊢
      exact hslots q hq

section

variable {r : TrainRequest} {dirs : Directories} {g : Grids Float} {d : Disk}

end

end TrainRequest

/-- Preprocessing gives the matrix as it is, or scales it with the scaler that it fits. -/
theorem Method.preprocess_eq_ok {m : Method} {x z : Matrix Float} {scaler : Option (Scaler Float)}
    (h : m.preprocess x = .ok (z, scaler)) :
    m = .raw ∧ z = x ∧ scaler = none ∨
      m ≠ .raw ∧ ∃ s, scaler = some s ∧ s.method = m ∧ s.transform x = .ok z := by
  obtain ⟨fitted, hfit, h⟩ := bind_eq_ok.1 h
  have hscaled : ∀ s : Scaler Float, fitted = some s → scaler = some s ∧ s.transform x = .ok z := by
    intro s hs
    rw [hs] at h
    obtain ⟨z', htransform, hlast⟩ := bind_eq_ok.1 h
    obtain ⟨rfl, rfl⟩ := Prod.mk.inj (Except.ok.inj hlast)
    exact ⟨rfl, htransform⟩
  cases m with
  | raw =>
    obtain rfl := Except.ok.inj hfit
    obtain ⟨rfl, rfl⟩ := Prod.mk.inj (Except.ok.inj h)
    exact .inl ⟨rfl, rfl, rfl⟩
  | standardize =>
    rw [fit?] at hfit
    split at hfit
    · contradiction
    · obtain ⟨hs, htransform⟩ := hscaled _ (Except.ok.inj hfit).symm
      exact .inr ⟨by simp, _, hs, rfl, htransform⟩
  | minMax =>
    rw [fit?] at hfit
    split at hfit
    · contradiction
    · obtain ⟨hs, htransform⟩ := hscaled _ (Except.ok.inj hfit).symm
      exact .inr ⟨by simp, _, hs, rfl, htransform⟩

end PackageTriage
