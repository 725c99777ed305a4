import PackageTriage.Proofs.Classifier.Alike
import PackageTriage.Proofs.Classifier.Width
import PackageTriage.Proofs.Training.History

/-!
# Predictions agree with training

Training scales a whole matrix and fits a model to it. Predicting reads one file, scales one row with the
scaler that was stored, and asks the model that was stored. For a file with the features of a training
sample both ways give the same label.
-/

namespace PackageTriage

open Binary Run

namespace Scaler

variable {s : Scaler Float} {x z : Matrix Float}

/-- A matrix is scaled row by row. -/
theorem transform_eq_ok (h : s.transform x = .ok z) :
    x.width = s.width ∧ z.rows = x.rows.map (scaleRow s.center s.scale) := by
  obtain ⟨u, hcheck, hz⟩ := bind_eq_ok.1 h
  obtain rfl := Except.ok.inj hz
  refine ⟨?_, rfl⟩
  by_contra hwidth
  rw [checkWidth, if_neg hwidth] at hcheck
  contradiction

theorem transformRow_eq {row : List Float} (h : row.length = s.width) :
    s.transformRow row = .ok (scaleRow s.center s.scale row) := by
  rw [transformRow, checkWidth, if_pos h]
  rfl

end Scaler

/-- A sample that is alike to a row of the training matrix gets the label of that row in the batch. -/
theorem Predictor.classify_of_batch {m : Method} {x z : Matrix Float} {scaler : Option (Scaler Float)}
    {k : Classifier Float} {a : Artifact Float} {classes row sample : List Float} {i : Nat}
    (hpreprocess : m.preprocess x = .ok (z, scaler)) (hclasses : k.predict z = .ok classes)
    (ha : a.classifier.predictOne = k.predictOne) (hrow : x.rows[i]? = some row)
    (hsample : AlikeRows sample row) :
    ∃ c, classes[i]? = some c ∧ (Predictor.mk a scaler).classify sample = .ok (.ofClass c) := by
  rcases Method.preprocess_eq_ok hpreprocess with ⟨-, rfl, rfl⟩ | ⟨-, s, rfl, -, htransform⟩
  · obtain ⟨c, hc, hone⟩ := Classifier.predictOne_eq hclasses hrow
    refine ⟨c, hc, ?_⟩
    show a.classifier.predictOne sample = .ok (.ofClass c)
    rw [ha, k.predictOne_alike hsample, hone]
  · obtain ⟨hwidth, hrows⟩ := Scaler.transform_eq_ok htransform
    have hscaled : z.rows[i]? = some (Scaler.scaleRow s.center s.scale row) := by
      rw [hrows, List.getElem?_map, hrow, Option.map_some]
    have hlength : sample.length = s.width := by
      rw [hsample.length_eq, x.rows_width row (List.mem_of_getElem? hrow), hwidth]
    obtain ⟨c, hc, hone⟩ := Classifier.predictOne_eq hclasses hscaled
    refine ⟨c, hc, ?_⟩
    show (s.transformRow sample >>= a.classifier.predictOne) = .ok (.ofClass c)
    rw [Scaler.transformRow_eq hlength, ha]
    exact (k.predictOne_alike (Scaler.scaleRow_alike hsample _ _)).trans hone

/-- Predicting is loading, reading and classifying. -/
theorem Predictor.on_predict {models path : String} {f : Family} {p : Predictor} {d : Disk}
    {values : List FeatureValue} {sample : List Float} (hload : (load models f).on d = (.ok p, d))
    (hread : (FeatureFile.read path).on d = (.ok values, d))
    (hsample : FeatureValue.numbers path values = .ok sample) :
    (predict models f path).on d = (p.classify sample, d) := by
  have hnumbers :
      (Run.ofExcept (FeatureValue.numbers path values) : Run (StateM Disk) (List Float)).on d =
      (.ok sample, d) := by
    rw [on_ofExcept, hsample]
  rw [predict, on_bind_of_ok hload, predictFile, on_bind_of_ok hread, on_bind_of_ok hnumbers, on_ofExcept]

namespace TrainRequest

variable {r : TrainRequest} {dirs : Directories} {g : Grids Float} {d e f : Disk} {p : Prepared}
  {h : Hyperparameters Float} {k : Classifier Float}

/-- What was saved is loaded, as long as the slots stay as they are. -/
theorem Saved.on_load (hsaved : r.Saved dirs g d e p h k) (haction : r.action = .save)
    (hfits : Event.Fits dirs ⟨r, g, d⟩) (hscales : r.family.appliesScaler = true ∨ r.method = .raw)
    (hkept : Slot.Kept dirs.models r.family e f) :
    (Predictor.load dirs.models r.family).on f = (.ok ⟨(r.artifact h k).restored, p.scaler⟩, f) := by
  have hfamily : k.family = r.family := by
    obtain ⟨h', hchosen, hh⟩ := exists_chosen haction hsaved.prepared_eq
    obtain rfl := Option.some.inj (hsaved.chosen_eq.symm.trans hchosen)
    exact (Classifier.family_of_fit hsaved.fit_eq).trans hh
  have hof : Store.isOf r.family (r.artifact h k) = true := by
    simp [Store.isOf, artifact, hfamily]
  have hfit : (r.artifact h k).Fits := by
    refine hfits.model r.family _ ?_
    rw [Event.model?, if_pos rfl, hsaved.model_stored]
  obtain ⟨x, -, -, hpreprocess⟩ := prepared_eq_ok hsaved.prepared_eq
  rcases Method.preprocess_eq_ok hpreprocess with ⟨hraw, -, hnone⟩ | ⟨hraw, s, hs, hmethod, -⟩
  · have hunscaled : Predictor.isScaled (r.artifact h k) = false := by
      simp [Predictor.isScaled, artifact, hraw]
    rw [hnone]
    exact Predictor.load_unscaled (hkept.model_eq.trans hsaved.model_bytes) hfit hof hunscaled
  · have hscaled : Predictor.isScaled (r.artifact h k) = true := by
      simp [Predictor.isScaled, artifact, hraw, hscales.resolve_right hraw]
    have hsfits : LawfulLayout.Fits s := by
      refine hfits.scaler r.family s ?_
      rw [Event.scaler?, if_pos rfl, hsaved.scaler_stored, hs]
    rw [hs]
    exact Predictor.load_scaled (hkept.model_eq.trans hsaved.model_bytes) hfit hof hscaled
      (hkept.scaler_eq.trans (hsaved.scaler_bytes s hs)) hsfits hmethod

/-- After a run that saved a model, a file with the features of a training sample gets the label that the
model gives that sample among all of them. -/
theorem predict_sample {written path : String} {values : List FeatureValue} {sample row y : List Float}
    {x : Matrix Float} {i : Nat} (hd : d.WellFormed) (hslots : Slot.Differ dirs.models r.family d)
    (haction : r.action = .save) (hscales : r.family.appliesScaler = true ∨ r.method = .raw)
    (hrun : (r.run dirs g).on d = (.ok written, e)) (hfits : Event.Fits dirs ⟨r, g, d⟩)
    (hkept : Slot.Kept dirs.models r.family e f)
    (hdata : (r.readData.on d).1 = .ok (x, y)) (hrow : x.rows[i]? = some row)
    (hread : (FeatureFile.read path).on f = (.ok values, f))
    (hsample : FeatureValue.numbers path values = .ok sample)
    (hequal : List.Forall₂ (fun a b => a = b ∨ Scalar.same a b = true) sample row) :
    ∃ z scaler h k classes c, r.method.preprocess x = .ok (z, scaler) ∧ r.chosen = .ok (some h) ∧
      Classifier.fit h z y = .ok k ∧ k.predict z = .ok classes ∧ classes[i]? = some c ∧
      (Predictor.predict dirs.models r.family path).on f = (.ok (.ofClass c), f) := by
  obtain ⟨p, h, k, hsaved⟩ := exists_saved hd hslots haction hrun
  obtain ⟨x', hchosen, hdata', hpreprocess⟩ := prepared_eq_ok hsaved.prepared_eq
  obtain ⟨rfl, hy⟩ : x' = x ∧ p.labels = y := by
    simpa using hdata'.symm.trans hdata
  obtain ⟨classes, hclasses⟩ := Classifier.predict_of_fit (z := p.features) hsaved.fit_eq rfl
  have halike : AlikeRows sample row := hequal.imp fun a b hab => hab.elim .inl alike_of_same
  have hone : (r.artifact h k).restored.classifier.predictOne = k.predictOne := k.predictOne_restored
  obtain ⟨c, hc, hclassify⟩ := Predictor.classify_of_batch hpreprocess hclasses hone hrow halike
  refine ⟨p.features, p.scaler, h, k, classes, c, hpreprocess, ?_, hy ▸ hsaved.fit_eq, hclasses, hc, ?_⟩
  · rw [hchosen, hsaved.chosen_eq]
  · have hload := hsaved.on_load haction hfits hscales hkept
    rw [Predictor.on_predict hload hread hsample, hclassify]

end TrainRequest

theorem exists_ok_of_toOption {β : Type} {o : Except Error β} {b : β} (h : o.toOption = some b) :
    o = .ok b := by
  cases o with
  | error x => simp [Except.toOption] at h
  | ok c => rw [Option.some.inj h]

theorem exists_run_saved : ∃ written, (Event.saved.request.run default default).on .twoPackages =
    (.ok written, Event.saved.left default) := by
  obtain ⟨written, hwritten⟩ : ∃ written,
      ((Event.saved.request.run default default).on .twoPackages).1.toOption = some written :=
    Option.isSome_iff_exists.1 (by decide +kernel)
  exact ⟨written, Prod.ext (exists_ok_of_toOption hwritten) rfl⟩

theorem exists_readData_saved :
    ∃ x y, (Event.saved.request.readData.on Disk.twoPackages).1 = .ok (x, y) ∧ x.rows[0]? = some [1] := by
  obtain ⟨⟨x, y⟩, hdata⟩ :
      ∃ data, (Event.saved.request.readData.on Disk.twoPackages).1.toOption = some data :=
    Option.isSome_iff_exists.1 (by decide +kernel)
  have hrows : (Event.saved.request.readData.on Disk.twoPackages).1.toOption.map (·.1.rows[0]?) =
      some (some [1]) := by
    decide +kernel
  rw [hdata] at hrows
  exact ⟨x, y, exists_ok_of_toOption hdata, Option.some.inj hrows⟩

theorem read_saved : (FeatureFile.read "a/p").on (Event.saved.left default) =
    (.ok [.flag true], Event.saved.left default) := by
  have hflag : ((FeatureFile.read "a/p").on (Event.saved.left default)).1.toOption =
      some [.flag true] := by
    decide +kernel
  exact Prod.ext (exists_ok_of_toOption hflag) (FeatureFile.reads_read _ _)

theorem differ_saved : Slot.Differ "models" .naiveBayes .twoPackages :=
  fresh_twoPackages.apart.slots (.model .naiveBayes) (.scaler .naiveBayes) (by simp)

theorem predict_sample_saved : Disk.twoPackages.WellFormed ∧
    Slot.Differ "models" .naiveBayes .twoPackages ∧ Event.saved.request.action = .save ∧
    Event.saved.request.family.appliesScaler = true ∧ Event.saved.Fits default ∧
    Slot.Kept "models" .naiveBayes (Event.saved.left default) (Event.saved.left default) ∧
    ∃ written x y row, (Event.saved.request.run default default).on .twoPackages =
        (.ok written, Event.saved.left default) ∧
      (Event.saved.request.readData.on Disk.twoPackages).1 = .ok (x, y) ∧ x.rows[0]? = some row ∧
      (FeatureFile.read "a/p").on (Event.saved.left default) = (.ok [.flag true], Event.saved.left default) ∧
      FeatureValue.numbers "a/p" [.flag true] = .ok [1] ∧
      List.Forall₂ (fun a b => a = b ∨ Scalar.same a b = true) [1] row ∧
      ∃ z scaler h k classes c, Event.saved.request.method.preprocess x = .ok (z, scaler) ∧
        Event.saved.request.chosen = .ok (some h) ∧ Classifier.fit h z y = .ok k ∧
        k.predict z = .ok classes ∧ classes[0]? = some c ∧
        (Predictor.predict (default : Directories).models Event.saved.request.family "a/p").on
          (Event.saved.left default) = (.ok (.ofClass c), Event.saved.left default) := by
  obtain ⟨written, hrun⟩ := exists_run_saved
  obtain ⟨x, y, hdata, hrow⟩ := exists_readData_saved
  have hkept : Slot.Kept "models" .naiveBayes (Event.saved.left default) (Event.saved.left default) :=
    ⟨rfl, rfl⟩
  have hnumbers : FeatureValue.numbers "a/p" [.flag true] = .ok [1] := rfl
  have hequal : List.Forall₂ (fun a b : Float => a = b ∨ Scalar.same a b = true) [1] [1] :=
    .cons (.inl rfl) .nil
  refine ⟨fresh_twoPackages.wellFormed, differ_saved, rfl, rfl, fits_saved, hkept, written, x, y, [1],
    hrun, hdata, hrow, read_saved, hnumbers, hequal, ?_⟩
  exact TrainRequest.predict_sample fresh_twoPackages.wellFormed differ_saved rfl (.inl rfl) hrun
    fits_saved hkept hdata hrow read_saved hnumbers hequal

end PackageTriage
