import PackageTriage.Proofs.Prediction.Agreement

/-!
# Predictions for a directory

Labelling a directory loads the model once and then labels the files that a walk meets. Labelling one file loads
the model for it alone, and reading a directory for training walks through it again. The three agree place by
place, and where a file cannot be labelled, the first such file is what the directory fails for.
-/

namespace PackageTriage

open Run

section

variable {directory : String} {d : Disk} (hdir : d.kind? directory = some .directory)

include hdir

/-- What is asked for a directory that is there is not refused for its lack. -/
theorem Run.on_unlessDirectory {β : Type} (e : Error) (c : Run (StateM Disk) β) :
    (do
      unless ← isDirectory directory do throw e
      c : Run (StateM Disk) β).on d = c.on d := by
  have hask : (isDirectory directory : Run (StateM Disk) Bool).on d = (.ok true, d) := by
    show ((Except.ok (decide (d.kind? directory = some .directory)), d) : Except Error Bool × Disk) = _
    rw [hdir, decide_eq_true rfl]
  rw [on_bind_of_ok hask]
  rfl

/-- Reading a directory reads the files that the walk meets, in its order. -/
theorem Dataset.on_readDirectory (label : Label) : (readDirectory label directory).on d =
    (do
      let samples ← (d.walk directory).files.mapM fun path => ((Sample.read label path).on d).1
      if (d.walk directory).broken then .error .storage else .ok samples, d) := by
  rw [readDirectory, on_unlessDirectory hdir]
  exact on_forFiles (fun path => reads_bind (FeatureFile.reads_read path) fun _ => reads_pure _) _ _

end

theorem Sample.name_of_read {l : Label} {path : String} {d : Disk} {s : Sample}
    (h : ((Sample.read l path).on d).1 = .ok s) : s.name = (Path.fileName? path).getD "" := by
  obtain ⟨values, e, -, hsample⟩ := on_bind_eq_ok (Prod.ext h rfl : (Sample.read l path).on d = (.ok s, _))
  obtain ⟨hsame, -⟩ := Prod.mk.inj hsample
  rw [← Except.ok.inj hsame]

namespace Predictor

variable {p : Predictor} {models directory path : String} {f : Family} {d : Disk} {label : Label}

theorem reads_predictFile (p : Predictor) (path : String) : Reads (p.predictFile path : Run (StateM Disk) Label) :=
  reads_bind (FeatureFile.reads_read path) fun _ => reads_bind (reads_ofExcept _) fun _ => reads_ofExcept _

theorem reads_predictPackage (p : Predictor) (path : String) :
    Reads (p.predictPackage path : Run (StateM Disk) Prediction) :=
  reads_bind (reads_predictFile p path) fun _ => reads_pure _

/-- A file that is labelled was read. -/
theorem exists_read_of_predictFile (h : ((p.predictFile path).on d).1 = .ok label) (l : Label) :
    ∃ sample, ((Sample.read l path).on d).1 = .ok sample := by
  have hwhole := on_of_reads (reads_predictFile p path) d
  rw [h] at hwhole
  obtain ⟨values, e, hread, -⟩ := on_bind_eq_ok hwhole
  exact ⟨_, congrArg Prod.fst (on_bind_of_ok hread _)⟩

/-- A package is labelled as its file is, and named by the stem of the file's name. -/
theorem on_predictPackage (p : Predictor) (path : String) (d : Disk) : ((p.predictPackage path).on d).1 =
    ((p.predictFile path).on d).1.map (Prediction.mk (Path.stem ((Path.fileName? path).getD ""))) := by
  rw [predictPackage, on_bind, on_of_reads (reads_predictFile p path)]
  cases ((p.predictFile path).on d).1 <;> rfl

/-- A package is labelled as its file is, under the stem of its name. -/
theorem predictPackage_eq_ok {prediction : Prediction} :
    ((p.predictPackage path).on d).1 = .ok prediction ↔ ((p.predictFile path).on d).1 = .ok prediction.label ∧
      prediction.package = Path.stem ((Path.fileName? path).getD "") := by
  rw [on_predictPackage]
  obtain ⟨package, label⟩ := prediction
  cases ((p.predictFile path).on d).1 with
  | error e => simp [Except.map]
  | ok l => simp [Except.map, and_comm, eq_comm]

theorem predictPackage_eq_error {e : Error} :
    ((p.predictPackage path).on d).1 = .error e ↔ ((p.predictFile path).on d).1 = .error e := by
  rw [on_predictPackage]
  cases ((p.predictFile path).on d).1 <;> simp [Except.map]

section

variable (hload : (load models f).on d = (.ok p, d))

include hload

/-- With a model that loads, labelling one file is what the loaded model does. -/
theorem on_predict_eq (path : String) : (predict models f path).on d = (p.predictFile path).on d := by
  rw [predict, on_bind_of_ok hload]

/-- Labelling a directory is labelling the files that the walk meets one by one, in its order. -/
theorem on_predictDirectory (hdir : d.kind? directory = some .directory) :
    (predictDirectory models f directory).on d =
      (do
        let predictions ← (d.walk directory).files.mapM fun path => ((p.predictPackage path).on d).1
        if (d.walk directory).broken then .error .storage else .ok predictions, d) := by
  rw [predictDirectory, on_unlessDirectory hdir, on_bind_of_ok hload]
  exact on_forFiles (reads_predictPackage p) _ _

end

/-- Labelling a directory agrees with labelling its files one by one and with reading it as a data set: where it
succeeds so do they, place by place; where a file cannot be labelled it fails for the first such file; and where
every file can be labelled and the walk comes to its end it succeeds. -/
theorem predictDirectory_agrees {e : Disk} (hload : (load models f).on d = (.ok p, e))
    (hdir : d.kind? directory = some .directory) :
    (∀ predictions, ((predictDirectory models f directory).on d).1 = .ok predictions → ∀ l, ∃ samples,
      (Dataset.readDirectory l directory).on d = (.ok samples, d) ∧ samples.length = predictions.length ∧
      predictions.length = (d.walk directory).files.length ∧
      ∀ (k : Nat) (path : String) (sample : Sample) (prediction : Prediction),
        (d.walk directory).files[k]? = some path → samples[k]? = some sample →
        predictions[k]? = some prediction →
        ((Sample.read l path).on d).1 = .ok sample ∧ prediction.package = Path.stem sample.name ∧
        ((predict models f path).on d).1 = .ok prediction.label) ∧
    ((∃ path ∈ (d.walk directory).files, ∃ cause, ((predict models f path).on d).1 = .error cause) →
      ∃ before first behind cause, (d.walk directory).files = before ++ first :: behind ∧
        (∀ path ∈ before, ∃ label, ((predict models f path).on d).1 = .ok label) ∧
        ((predict models f first).on d).1 = .error cause ∧
        (predictDirectory models f directory).on d = (.error cause, d)) ∧
    ((∀ path ∈ (d.walk directory).files, ∃ label, ((predict models f path).on d).1 = .ok label) →
      (d.walk directory).broken = false →
      ∃ predictions, (predictDirectory models f directory).on d = (.ok predictions, d)) := by
  obtain ⟨rfl, -, -⟩ := load_eq_ok hload
  simp only [on_predict_eq hload, on_predictDirectory hload hdir]
  refine ⟨fun predictions h l => ?_, fun ⟨path, hpath, cause, hcause⟩ => ?_, fun h hwalk => ?_⟩
  · obtain ⟨found, hfound, hwhole⟩ := bind_eq_ok.1 h
    cases hbroken : (e.walk directory).broken with
    | true => simp [hbroken] at hwhole
    | false =>
      obtain rfl : found = predictions := by simpa [hbroken] using hwhole
      have hreadable : ∀ path ∈ (e.walk directory).files,
          ∃ sample, ((Sample.read l path).on e).1 = .ok sample := fun path hpath => by
        obtain ⟨prediction, hprediction⟩ := exists_eq_ok_of_mem hfound hpath
        exact exists_read_of_predictFile (predictPackage_eq_ok.1 hprediction).1 l
      obtain ⟨samples, hsamples⟩ := exists_mapM_eq_ok hreadable
      have hlabelled := forall₂_of_mapM hfound
      have hread := forall₂_of_mapM hsamples
      refine ⟨samples, ?_, hread.length_eq.symm.trans hlabelled.length_eq, hlabelled.length_eq.symm, ?_⟩
      · rw [Dataset.on_readDirectory hdir, hsamples, hbroken]
        rfl
      · intro k path sample prediction hpath hsample hprediction
        have hone := forall₂_getElem? hlabelled hpath hprediction
        have hsame := forall₂_getElem? hread hpath hsample
        obtain ⟨hlabel, hpackage⟩ := predictPackage_eq_ok.1 hone
        refine ⟨hsame, ?_, hlabel⟩
        rw [hpackage, Sample.name_of_read hsame]
  · have hfails : ∃ path ∈ (e.walk directory).files, ∃ cause,
        ((p.predictPackage path).on e).1 = .error cause :=
      ⟨path, hpath, cause, predictPackage_eq_error.2 hcause⟩
    obtain ⟨before, first, behind, cause, hfiles, hbefore, hfirst, hall⟩ := exists_first_error hfails
    refine ⟨before, first, behind, cause, hfiles, fun q hq => ?_, predictPackage_eq_error.1 hfirst, ?_⟩
    · obtain ⟨prediction, hprediction⟩ := hbefore q hq
      exact ⟨_, (predictPackage_eq_ok.1 hprediction).1⟩
    · rw [hall, error_bind]
  · have hlabelled : ∀ path ∈ (e.walk directory).files,
        ∃ prediction, ((p.predictPackage path).on e).1 = .ok prediction := fun path hpath => by
      obtain ⟨label, hlabel⟩ := h path hpath
      exact ⟨⟨_, label⟩, predictPackage_eq_ok.2 ⟨hlabel, rfl⟩⟩
    obtain ⟨predictions, hpredictions⟩ := exists_mapM_eq_ok hlabelled
    exact ⟨predictions, by rw [hpredictions, hwalk]; rfl⟩

end Predictor

/-- The disk after a model was saved, with one more directory, of two packages. The value of the second is not a
number. -/
def Disk.threeDirectories : Disk :=
  (((Event.saved.left default).set ["home", "c"] .directory).set ["home", "c", "p"]
    (.file "f,true".toUTF8.toList)).set ["home", "c", "r"] (.file "f,maybe".toUTF8.toList)

/-- What stands in the models' directory still does. -/
theorem bytes?_threeDirectories {path : String} (name : String)
    (hsaved : (Event.saved.left default).place? true path = some ["home", "models", name])
    (hthree : Disk.threeDirectories.place? true path = some ["home", "models", name]) :
    Disk.threeDirectories.bytes? path = (Event.saved.left default).bytes? path := by
  rw [Disk.bytes?, Disk.bytes?, Disk.find?, Disk.find?, hsaved, hthree, Option.bind_some, Option.bind_some,
    Disk.threeDirectories, Disk.at?_set_of_ne _ (by simp), Disk.at?_set_of_ne _ (by simp),
    Disk.at?_set_of_ne _ (by simp)]

theorem kept_threeDirectories : Slot.Kept "models" .naiveBayes (Event.saved.left default) .threeDirectories where
  model_eq := bytes?_threeDirectories "NB.pkl" (by decide +kernel) (by decide +kernel)
  scaler_eq := bytes?_threeDirectories "NB_scaler.pkl" (by decide +kernel) (by decide +kernel)

/-- The saved model is loaded and labels a package like the first. -/
theorem exists_load_threeDirectories : ∃ p label,
    (Predictor.load "models" .naiveBayes).on .threeDirectories = (.ok p, .threeDirectories) ∧
      p.classify [1] = .ok label := by
  obtain ⟨written, hrun⟩ := exists_run_saved
  obtain ⟨x, y, hdata, hrow⟩ := exists_readData_saved
  have hslots : Slot.Differ (default : Directories).models Event.saved.request.family .twoPackages := differ_saved
  have haction : Event.saved.request.action = .save := rfl
  obtain ⟨p, h, k, hsaved⟩ := TrainRequest.exists_saved fresh_twoPackages.wellFormed hslots haction hrun
  obtain ⟨x', -, hdata', hpreprocess⟩ := TrainRequest.prepared_eq_ok hsaved.prepared_eq
  obtain ⟨rfl, -⟩ : x' = x ∧ p.labels = y := by
    simpa using hdata'.symm.trans hdata
  obtain ⟨classes, hclasses⟩ := Classifier.predict_of_fit (z := p.features) hsaved.fit_eq rfl
  have hone : (Event.saved.request.artifact h k).restored.classifier.predictOne = k.predictOne :=
    k.predictOne_restored
  obtain ⟨c, -, hclassify⟩ := Predictor.classify_of_batch hpreprocess hclasses hone hrow
    (List.forall₂_same.2 fun a _ => .refl a)
  have hload := hsaved.on_load (f := .threeDirectories) rfl fits_saved (.inl rfl) kept_threeDirectories
  exact ⟨_, _, hload, hclassify⟩

theorem walk_threeDirectories : Disk.threeDirectories.walk "a" = ⟨["a/p"], false⟩ ∧
    Disk.threeDirectories.walk "c" = ⟨["c/p", "c/r"], false⟩ := by
  have hsorted : Walk.sortNames ["r", "p"] = ["p", "r"] := by cbv
  have hpaths : ["p", "r"].map (Path.join "c") = ["c/p", "c/r"] := by decide +kernel
  refine ⟨by decide +kernel, ?_⟩
  rw [Disk.walk_flat "/home/c" ["r", "p"] (by decide +kernel) (by decide +kernel)
    (by decide +kernel) (by decide +kernel), hsorted, hpaths]

/-- A package that reads as one true flag is labelled by the saved model. -/
theorem predict_threeDirectories {p : Predictor} {label : Label} (path : String)
    (hload : (Predictor.load "models" .naiveBayes).on .threeDirectories = (.ok p, .threeDirectories))
    (hclassify : p.classify [1] = .ok label)
    (hread : ((FeatureFile.read path).on .threeDirectories).1.toOption = some [.flag true]) :
    ((Predictor.predict "models" .naiveBayes path).on .threeDirectories).1 = .ok label := by
  have hfile : (FeatureFile.read path).on .threeDirectories = (.ok [.flag true], .threeDirectories) :=
    Prod.ext (exists_ok_of_toOption hread) (FeatureFile.reads_read _ _)
  rw [Predictor.on_predict hload hfile rfl]
  exact hclassify

theorem predict_threeDirectories_r {p : Predictor}
    (hload : (Predictor.load "models" .naiveBayes).on .threeDirectories = (.ok p, .threeDirectories)) :
    ((Predictor.predict "models" .naiveBayes "c/r").on .threeDirectories).1 =
      .error (.notNumeric "c/r" 0 "maybe") := by
  have hread : ((FeatureFile.read "c/r").on .threeDirectories).1.toOption = some [.text "maybe"] := by
    decide +kernel
  have hfile : (FeatureFile.read "c/r").on .threeDirectories = (.ok [.text "maybe"], .threeDirectories) :=
    Prod.ext (exists_ok_of_toOption hread) (FeatureFile.reads_read _ _)
  have hnumbers : FeatureValue.numbers "c/r" [.text "maybe"] = .error (.notNumeric "c/r" 0 "maybe") := by
    decide +kernel
  rw [Predictor.on_predict_eq hload, Predictor.predictFile, on_bind_of_ok hfile, on_bind, on_ofExcept, hnumbers]

/-- The one package of a directory is labelled; of another directory the second package cannot be, and that is
what labelling it fails for. -/
theorem predictDirectory_agrees_three : ∃ p, (Predictor.load "models" .naiveBayes).on .threeDirectories =
      (.ok p, .threeDirectories) ∧
    Disk.threeDirectories.kind? "a" = some .directory ∧ Disk.threeDirectories.kind? "c" = some .directory ∧
    (∃ prediction sample, (Predictor.predictDirectory "models" .naiveBayes "a").on .threeDirectories =
        (.ok [prediction], .threeDirectories) ∧
      (Dataset.readDirectory .benign "a").on .threeDirectories = (.ok [sample], .threeDirectories) ∧
      prediction.package = Path.stem sample.name) ∧
    ∃ before behind, ["c/p", "c/r"] = before ++ "c/r" :: behind ∧
      (Predictor.predictDirectory "models" .naiveBayes "c").on .threeDirectories =
        (.error (.notNumeric "c/r" 0 "maybe"), .threeDirectories) := by
  obtain ⟨p, label, hload, hclassify⟩ := exists_load_threeDirectories
  have ha : Disk.threeDirectories.kind? "a" = some .directory := by decide +kernel
  have hc : Disk.threeDirectories.kind? "c" = some .directory := by decide +kernel
  have hfails := predict_threeDirectories_r hload
  refine ⟨p, hload, ha, hc, ?_, ?_⟩
  · obtain ⟨hplaces, -, hwhole⟩ := Predictor.predictDirectory_agrees hload ha
    rw [walk_threeDirectories.1] at hplaces hwhole
    have hlabelled := predict_threeDirectories "a/p" hload hclassify (by decide +kernel)
    obtain ⟨predictions, hpredictions⟩ := hwhole (by simpa using ⟨label, hlabelled⟩) rfl
    obtain ⟨samples, hsamples, hlength, hcount, hagree⟩ :=
      hplaces predictions (congrArg Prod.fst hpredictions) .benign
    obtain ⟨prediction, rfl⟩ := List.length_eq_one_iff.1 hcount
    obtain ⟨sample, rfl⟩ := List.length_eq_one_iff.1 hlength
    exact ⟨prediction, sample, hpredictions, hsamples, (hagree 0 "a/p" sample prediction rfl rfl rfl).2.1⟩
  · obtain ⟨-, hfirst, -⟩ := Predictor.predictDirectory_agrees hload hc
    rw [walk_threeDirectories.2] at hfirst
    dsimp only at hfirst
    obtain ⟨before, first, behind, cause, hfiles, hbefore, hcause, hall⟩ := hfirst ⟨"c/r", by simp, _, hfails⟩
    obtain rfl : first = "c/r" := by
      have hmem : first ∈ ["c/p", "c/r"] := by simp [hfiles]
      simp only [List.mem_cons, List.not_mem_nil, or_false] at hmem
      rcases hmem with rfl | rfl
      · have hlabelled := predict_threeDirectories "c/p" hload hclassify (by decide +kernel)
        rw [hlabelled] at hcause
        cases hcause
      · rfl
    obtain rfl := Except.error.inj (hcause.symm.trans hfails)
    exact ⟨before, behind, hfiles, hall⟩

end PackageTriage
