import PackageTriage.Prediction.Predictor
import PackageTriage.Proofs.Bytes.Models
import PackageTriage.Proofs.Storage.Slots

/-!
# Loading predictors

A predictor is what the two slots of a family hold, if both are readable, the model is of the family and
the scaler is of the model's method.
-/

namespace PackageTriage

open Run

variable {α : Type} [Layout α] [Scalar α]

/-- Loading a model decodes the slot and asks for its family. -/
theorem Store.on_loadModel (models : String) (f : Family) (d : Disk) :
    (loadModel α models f).on d = match d.bytes? (modelPath models f) with
      | none => (.error (.missingArtifact (modelPath models f)), d)
      | some bytes => match (Layout.decode? bytes : Option (Artifact α)) with
        | none => (.error .undecodable, d)
        | some a => if isOf f a then (.ok a, d)
          else (.error (.wrongFamily (modelPath models f) a.classifier.family), d) := by
  have hload := @on_load (Artifact α) _ (modelPath models f) d
  rw [loadModel]
  cases hbytes : d.bytes? (modelPath models f) with
  | none =>
    rw [hbytes] at hload
    rw [on_bind_of_error hload]
  | some bytes =>
    rw [hbytes] at hload
    cases ha : (Layout.decode? bytes : Option (Artifact α)) with
    | none =>
      simp only [ha] at hload
      simp only [on_bind_of_error hload, ha]
    | some a =>
      simp only [ha] at hload
      simp only [on_bind_of_ok hload, ha]
      cases isOf f a <;> rfl

/-- A loaded model is of the asked family and was decoded from the bytes of its file. -/
theorem Store.loadModel_eq_ok {models : String} {f : Family} {a : Artifact α} {d e : Disk}
    (h : (loadModel α models f).on d = (.ok a, e)) :
    e = d ∧ isOf f a = true ∧
      ∃ bytes, d.bytes? (modelPath models f) = some bytes ∧ Layout.decode? bytes = some a := by
  obtain ⟨a', d', hload, hcheck⟩ := on_bind_eq_ok h
  obtain ⟨rfl, hslot⟩ := Store.load_eq_ok hload
  cases hof : isOf f a' with
  | false => simp [hof] at hcheck
  | true =>
    rw [hof] at hcheck
    obtain ⟨hsame, rfl⟩ := Prod.mk.inj hcheck
    obtain rfl := Except.ok.inj hsame
    exact ⟨rfl, hof, hslot⟩

namespace Predictor

/-- With a model of the family in its slot, the scaler decides. -/
theorem on_load {models : String} {f : Family} {a : Artifact Float} {bytes : List UInt8} {d : Disk}
    (hbytes : d.bytes? (Store.modelPath models f) = some bytes) (ha : Layout.decode? bytes = some a)
    (hof : Store.isOf f a = true) : (load models f).on d =
      if isScaled a then match d.bytes? (Store.scalerPath models f) with
        | none => (.error (.missingArtifact (Store.scalerPath models f)), d)
        | some bytes => match (Layout.decode? bytes : Option (Scaler Float)) with
          | none => (.error .undecodable, d)
          | some s => ((checkScaler models a s).map fun _ => ⟨a, some s⟩, d)
      else (.ok ⟨a, none⟩, d) := by
  have hmodel := @Store.on_loadModel Float _ _ models f d
  have hscaler := @Store.on_load (Scaler Float) _ (Store.scalerPath models f) d
  simp only [hbytes, ha, hof, ↓reduceIte] at hmodel
  rw [load, on_bind_of_ok hmodel]
  cases isScaled a with
  | false => rfl
  | true =>
    simp only [↓reduceIte]
    cases hfound : d.bytes? (Store.scalerPath models f) with
    | none =>
      simp only [hfound] at hscaler
      rw [Store.loadScaler, on_bind_of_error hscaler]
    | some found =>
      simp only [hfound] at hscaler
      cases hs : (Layout.decode? found : Option (Scaler Float)) with
      | none =>
        simp only [hs] at hscaler
        simp only [Store.loadScaler, on_bind_of_error hscaler, hs]
      | some s =>
        simp only [hs] at hscaler
        simp only [Store.loadScaler, on_bind_of_ok hscaler, hs, on_bind, on_ofExcept]
        cases checkScaler models a s <;> rfl

section

variable {models : String} {f : Family} {a : Artifact Float} {d : Disk}

theorem isOf_restored (f : Family) (a : Artifact Float) : Store.isOf f a.restored = Store.isOf f a := by
  rw [Store.isOf, Store.isOf, Artifact.restored, Classifier.family_restored]

/-- A model that was written is loaded with the scaler that was written beside it. -/
theorem load_scaled {s : Scaler Float}
    (hmodel : d.bytes? (Store.modelPath models f) = some (Layout.write a)) (ha : a.Fits)
    (hof : Store.isOf f a = true) (hscaled : isScaled a = true)
    (hscaler : d.bytes? (Store.scalerPath models f) = some (Layout.write s)) (hs : LawfulLayout.Fits s)
    (hmethod : s.method = a.method) : (load models f).on d = (.ok ⟨a.restored, some s⟩, d) := by
  have hscaled' : isScaled a.restored = true := hscaled
  have hcheck : checkScaler models a.restored s = .ok () := if_pos hmethod
  rw [on_load hmodel (Artifact.decode_write ha) ((isOf_restored f a).trans hof), if_pos hscaled', hscaler]
  simp only [LawfulLayout.decode_write hs, hcheck]
  rfl

/-- A model of features that are not scaled is loaded by itself. -/
theorem load_unscaled (hmodel : d.bytes? (Store.modelPath models f) = some (Layout.write a))
    (ha : a.Fits) (hof : Store.isOf f a = true) (hscaled : isScaled a = false) :
    (load models f).on d = (.ok ⟨a.restored, none⟩, d) := by
  have hscaled' : isScaled a.restored = false := hscaled
  rw [on_load hmodel (Artifact.decode_write ha) ((isOf_restored f a).trans hof), hscaled']
  rfl

end

/-- What a predictor that was loaded tells of the slots. -/
theorem load_eq_ok {models : String} {f : Family} {p : Predictor} {d e : Disk}
    (h : (load models f).on d = (.ok p, e)) :
    e = d ∧ (∃ bytes, d.bytes? (Store.modelPath models f) = some bytes ∧
      Layout.decode? bytes = some p.artifact ∧ Store.isOf f p.artifact = true) ∧
    (isScaled p.artifact = false ∧ p.scaler = none ∨
      isScaled p.artifact = true ∧ ∃ bytes s, d.bytes? (Store.scalerPath models f) = some bytes ∧
        Layout.decode? bytes = some s ∧ p.scaler = some s ∧ s.method = p.artifact.method) := by
  obtain ⟨a, d₁, hmodel, hrest⟩ := on_bind_eq_ok h
  obtain ⟨rfl, hof, bytes, hbytes, ha⟩ := Store.loadModel_eq_ok hmodel
  cases hscaled : isScaled a with
  | false =>
    simp only [hscaled, Bool.false_eq_true, ↓reduceIte] at hrest
    obtain ⟨hp, rfl⟩ := Prod.mk.inj hrest
    obtain rfl := Except.ok.inj hp
    exact ⟨rfl, ⟨bytes, hbytes, ha, hof⟩, .inl ⟨hscaled, rfl⟩⟩
  | true =>
    simp only [hscaled, ↓reduceIte] at hrest
    obtain ⟨s, d₂, hscaler, hchecks⟩ := on_bind_eq_ok hrest
    obtain ⟨rfl, found, hfound, hs⟩ := Store.load_eq_ok hscaler
    obtain ⟨u, d₃, hcheck, hlast⟩ := on_bind_eq_ok hchecks
    obtain ⟨hchecked, rfl⟩ := Prod.mk.inj hcheck
    obtain ⟨hp, rfl⟩ := Prod.mk.inj hlast
    obtain rfl := Except.ok.inj hp
    have hmethod : s.method = a.method := by
      by_contra hne
      rw [checkScaler, if_neg hne] at hchecked
      contradiction
    exact ⟨rfl, ⟨bytes, hbytes, ha, hof⟩, .inr ⟨hscaled, found, s, hfound, hs, rfl, hmethod⟩⟩

end Predictor

end PackageTriage
