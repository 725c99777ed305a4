import PackageTriage.Proofs.Classifier.Rows
import PackageTriage.Proofs.Classifier.Width
import PackageTriage.Proofs.Folds.Partition
import PackageTriage.Proofs.Metrics.Counts
import PackageTriage.Proofs.Selection
import PackageTriage.Validation.CrossValidation

/-!
# Cross-validation counts out-of-fold predictions

Every sample is held out by one split, so the models of all splits together predict every sample once.
The counts that cross-validation adds up split by split are the counts of that one list of predictions.
-/

namespace PackageTriage.Validation

variable {α : Type} [Scalar α]

def Predicts (h : Hyperparameters α) (x : Matrix α) (y : List α) (s : Split) (i : Nat) (c : α) : Prop :=
  ∃ model r, Classifier.fit h (x.select s.train) (labelsAt y s.train) = .ok model ∧
    x.rows[i]? = some r ∧ model.predict (.ofRow r) = .ok [c]

/-- The predictions for all samples, each by the model that was fitted on the training samples of the one
split that holds the sample out. -/
structure IsOutOfFold (h : Hyperparameters α) (x : Matrix α) (y : List α) (splits : List Split)
    (predictions : List α) : Prop where
  length_eq : predictions.length = y.length
  held_out_once : ∀ i < y.length, ∃! s, s ∈ splits ∧ i ∈ s.test
  unseen : ∀ s ∈ splits, ∀ i ∈ s.test, i ∉ s.train
  predicted : ∀ s ∈ splits, ∀ i ∈ s.test, ∃ c, predictions[i]? = some c ∧ Predicts h x y s i c

theorem labelsAt_eq_map {y : List α} {places : List Nat} (h : ∀ i ∈ places, i < y.length) :
    labelsAt y places = places.map fun i => y.getD i 0 :=
  filterMap_getElem?_eq_map h 0

/-- A sample has one prediction out of its fold. -/
theorem Predicts.unique {h : Hyperparameters α} {x : Matrix α} {y : List α} {s : Split} {i : Nat}
    {c d : α} (hc : Predicts h x y s i c) (hd : Predicts h x y s i d) : c = d := by
  obtain ⟨model, r, hmodel, hr, hpredict⟩ := hc
  obtain ⟨model', r', hmodel', hr', hpredict'⟩ := hd
  obtain rfl : model = model' := by simpa [hmodel] using hmodel'
  obtain rfl : r = r' := by simpa [hr] using hr'
  simpa [hpredict] using hpredict'

/-- What was fitted and predicted on the way to the counts of one split. -/
theorem countSplit_eq_ok {h : Hyperparameters α} {x : Matrix α} {y : List α} {s : Split}
    {counts : Confusion} (hcount : countSplit h x y s = .ok counts) :
    ∃ model classes, Classifier.fit h (x.select s.train) (labelsAt y s.train) = .ok model ∧
      model.predict (x.select s.test) = .ok classes ∧
      counts = Confusion.count (labelsAt y s.test) classes := by
  simp only [countSplit, heldOut] at hcount
  cases hmodel : Classifier.fit h (x.select s.train) (labelsAt y s.train) with
  | error e => simp [hmodel] at hcount
  | ok model =>
    cases hclasses : model.predict (x.select s.test) with
    | error e => simp [hmodel, hclasses] at hcount
    | ok classes =>
      refine ⟨model, classes, rfl, hclasses, ?_⟩
      by_cases hlength : (labelsAt y s.test).length = classes.length
      · simpa [hmodel, hclasses, hlength, Confusion.ofPredictions, eq_comm]
          using hcount
      · simp [hmodel, hclasses, hlength, Confusion.ofPredictions] at hcount

/-- A split counts, sample by sample, what its model says of the samples it holds out. -/
theorem exists_predictions {h : Hyperparameters α} {x : Matrix α} {y : List α} {s : Split}
    {counts : Confusion} (hcount : countSplit h x y s = .ok counts)
    (htest : ∀ i ∈ s.test, i < x.height) :
    ∃ classes, List.Forall₂ (Predicts h x y s) s.test classes ∧
      counts = Confusion.count (labelsAt y s.test) classes := by
  obtain ⟨model, classes, hmodel, hclasses, hcounts⟩ := countSplit_eq_ok hcount
  refine ⟨classes, ?_, hcounts⟩
  have hrows := Matrix.rows_select htest
  have hlength : s.test.length = classes.length := by
    rw [model.predict_rowwise.length_eq hclasses, Matrix.height, hrows, List.length_map]
  refine List.forall₂_iff_get.2 ⟨hlength, fun k hk hk' => ?_⟩
  have hi : s.test[k] < x.rows.length := htest _ (List.getElem_mem hk)
  have hrow : (x.select s.test).rows[k]? = some x.rows[s.test[k]] := by simp [hrows, hk, hi]
  obtain ⟨c, hc, hone⟩ := model.predict_rowwise.single hclasses hrow
  obtain rfl : classes[k] = c := by simpa [hk'] using hc
  exact ⟨model, _, hmodel, List.getElem?_eq_getElem hi, hone⟩

/-- If every sample of a split is predicted as `p` says, the split counts `p` on its samples. -/
theorem countSplit_eq_count {h : Hyperparameters α} {x : Matrix α} {y : List α} {s : Split}
    {counts : Confusion} (hcount : countSplit h x y s = .ok counts) (hxy : x.height = y.length)
    (htest : ∀ i ∈ s.test, i < y.length) {p : Nat → α} (hp : ∀ i ∈ s.test, Predicts h x y s i (p i)) :
    counts = Confusion.count (s.test.map fun i => y.getD i 0) (s.test.map p) := by
  obtain ⟨classes, hclasses, rfl⟩ := exists_predictions hcount (hxy ▸ htest)
  have heq : s.test.map p = classes :=
    map_eq_of_forall₂ hclasses fun i hi c hc => (hp i hi).unique hc
  rw [labelsAt_eq_map htest, heq]

/-- The counts of a row are those of its splits, in their order. -/
theorem crossValidate_eq_ok {h : Hyperparameters α} {x : Matrix α} {y : List α} {splits : List Split}
    {row : ValidationRow} (hrow : crossValidate h x y splits = .ok row) :
    ∃ folds, splits.mapM (countSplit h x y) = .ok folds ∧ row.counts = folds.sum := by
  simp only [crossValidate] at hrow
  cases hfolds : splits.mapM (countSplit h x y) with
  | error e => simp [hfolds] at hrow
  | ok folds =>
    simp only [hfolds, ok_bind, pure_eq_ok, Except.ok.injEq] at hrow
    exact ⟨folds, rfl, by rw [← hrow, Confusion.foldl_add]⟩

/-- The predictions of all splits, put together. -/
theorem exists_prediction {h : Hyperparameters α} {x : Matrix α} {y : List α} {splits : List Split}
    {folds : List Confusion} (hxy : x.height = y.length)
    (hfolds : splits.mapM (countSplit h x y) = .ok folds) {s : Split} (hs : s ∈ splits)
    (htest : ∀ i ∈ s.test, i < y.length) {i : Nat} (hi : i ∈ s.test) : ∃ c, Predicts h x y s i c := by
  obtain ⟨counts, hcount⟩ := exists_eq_ok_of_mem hfolds hs
  obtain ⟨classes, hclasses, -⟩ := exists_predictions hcount (hxy ▸ htest)
  obtain ⟨k, hk, rfl⟩ := List.getElem_of_mem hi
  exact ⟨_, (List.forall₂_iff_get.1 hclasses).2 k hk ((List.forall₂_iff_get.1 hclasses).1 ▸ hk)⟩

/-- What models were fitted for can be counted. -/
theorem exists_counts {h : Hyperparameters α} {x : Matrix α} {y : List α} {s : Split}
    (hxy : x.height = y.length) (htest : ∀ i ∈ s.test, i < y.length)
    (hfit : ∃ model, Classifier.fit h (x.select s.train) (labelsAt y s.train) = .ok model) :
    ∃ counts, countSplit h x y s = .ok counts := by
  obtain ⟨model, hmodel⟩ := hfit
  obtain ⟨classes, hclasses⟩ :=
    Classifier.predict_of_fit hmodel (rfl : (x.select s.test).width = (x.select s.train).width)
  have hheight : (x.select s.test).height = s.test.length :=
    Matrix.height_select fun i hi => hxy ▸ htest i hi
  have hlength : (labelsAt y s.test).length = classes.length := by
    rw [labelsAt_eq_map htest, List.length_map, model.predict_rowwise.length_eq hclasses, hheight]
  refine ⟨Confusion.count (labelsAt y s.test) classes, ?_⟩
  simp [countSplit, heldOut, hmodel, hclasses, Confusion.ofPredictions, hlength]

/-- Cross-validation only fails where some fit does. -/
theorem exists_crossValidate {h : Hyperparameters α} {x : Matrix α} {y : List α} {splits : List Split}
    (hxy : x.height = y.length) (htest : ∀ s ∈ splits, ∀ i ∈ s.test, i < y.length)
    (hfits : ∀ s ∈ splits, ∃ model,
      Classifier.fit h (x.select s.train) (labelsAt y s.train) = .ok model) :
    ∃ row, crossValidate h x y splits = .ok row := by
  obtain ⟨folds, hfolds⟩ := exists_mapM_eq_ok fun s hs => exists_counts hxy (htest s hs) (hfits s hs)
  simp [crossValidate, hfolds]

/-- Cross-validation counts one list of out-of-fold predictions against the labels. So its counts are
those of all samples. -/
theorem crossValidate_counts {n : Nat} {seed : Option UInt64} {h : Hyperparameters α} {x : Matrix α}
    {y : List α} {splits : List Split} {row : ValidationRow} (hxy : x.height = y.length)
    (hsplit : Folds.split n seed y = .ok splits) (hrow : crossValidate h x y splits = .ok row) :
    (∃ predictions, IsOutOfFold h x y splits predictions ∧
      Confusion.ofPredictions y predictions = .ok row.counts) ∧
    row.counts.truePositive + row.counts.falseNegative = y.countP Label.isPositive ∧
    row.counts.falsePositive + row.counts.trueNegative = (y.countP fun c => !Label.isPositive c) ∧
    row.counts.total = y.length := by
  obtain ⟨hn, hy, groups, hgroups, rfl⟩ := Folds.exists_groups hsplit
  have hpartition := Folds.ofStrata_isPartition hn hy hgroups
  have honce : ∀ i < y.length, ∃! s, s ∈ Folds.ofStrata n groups ∧ i ∈ s.test :=
    fun i hi => hpartition.existsUnique_split hi
  obtain ⟨folds, hfolds, hcounts⟩ := crossValidate_eq_ok hrow
  have hchoice : ∀ i, ∃ c, i < y.length → ∃ s, (s ∈ Folds.ofStrata n groups ∧ i ∈ s.test) ∧
      Predicts h x y s i c := by
    intro i
    by_cases hi : i < y.length
    · obtain ⟨s, ⟨hs, his⟩, -⟩ := honce i hi
      obtain ⟨c, hc⟩ := exists_prediction hxy hfolds hs (hpartition.test_lt s hs) his
      exact ⟨c, fun _ => ⟨s, ⟨hs, his⟩, hc⟩⟩
    · exact ⟨0, fun hi' => absurd hi' hi⟩
  choose p hp using hchoice
  -- the split that a prediction was chosen from is the only one that holds the sample out
  have hpredicts : ∀ s ∈ Folds.ofStrata n groups, ∀ i ∈ s.test, Predicts h x y s i (p i) := by
    intro s hs i hi
    have hlt := hpartition.test_lt s hs i hi
    obtain ⟨t, ht, hpt⟩ := hp i hlt
    obtain rfl : t = s := (honce i hlt).unique ht ⟨hs, hi⟩
    exact hpt
  have hparts : ((Folds.ofStrata n groups).map Split.test).map (fun part =>
      Confusion.count (part.map fun i => y.getD i 0) (part.map p)) = folds := by
    rw [List.map_map]
    exact map_eq_of_forall₂ (forall₂_of_mapM hfolds) fun s hs counts hcount =>
      (countSplit_eq_count hcount hxy (hpartition.test_lt s hs) (hpredicts s hs)).symm
  have hsum : folds.sum = Confusion.count y ((List.range y.length).map p) := by
    rw [← hparts, Confusion.sum_count_parts _ _ (Folds.flatMap_test_perm (by omega) hgroups),
      map_getD_range]
  have hlength : y.length = ((List.range y.length).map p).length := by simp
  rw [hsum] at hcounts
  obtain ⟨hpositives, hnegatives⟩ := Confusion.count_margins hlength
  have htotal := Confusion.total_count hlength
  rw [← hcounts] at hpositives hnegatives htotal
  refine ⟨⟨_, ⟨hlength.symm, honce, ?_, ?_⟩, ?_⟩, hpositives, hnegatives, htotal⟩
  · exact fun s hs i hi ht => ((hpartition.train_iff s hs i).1 ht).2 hi
  · intro s hs i hi
    exact ⟨p i, by simp [hpartition.test_lt s hs i hi], hpredicts s hs i hi⟩
  · rw [Confusion.ofPredictions, if_pos hlength, hcounts]

/-- Naive Bayes on four samples of one feature, in two folds. -/
theorem crossValidate_counts_four :
    let x : Matrix Float := ⟨1, [[1.0], [2.0], [3.0], [4.0]], by simp⟩
    let y : List Float := [1.0, 0.0, 1.0, 0.0]
    let splits : List Split := [⟨0, [2, 3], [0, 1]⟩, ⟨1, [0, 1], [2, 3]⟩]
    x.height = y.length ∧ Folds.split 2 none y = .ok splits ∧
      ∃ row, crossValidate (.naiveBayes 1.0) x y splits = .ok row ∧
        (∃ predictions, IsOutOfFold (.naiveBayes 1.0) x y splits predictions ∧
          Confusion.ofPredictions y predictions = .ok row.counts) ∧
        row.counts.truePositive + row.counts.falseNegative = 2 ∧
        row.counts.falsePositive + row.counts.trueNegative = 2 ∧ row.counts.total = 4 := by
  intro x y splits
  have hkeys : y.map Scalar.round = [1, 0, 1, 0] := by decide +kernel
  have hgroups : Folds.ofStrata 2 (Folds.strata [1, 0, 1, 0]) = splits := by cbv
  have hsplit : Folds.split 2 none y = .ok splits := by
    rw [← hgroups, ← hkeys]
    rfl
  have hsmoothing : Scalar.atMost (0 : Float) 1.0 = true := by decide +kernel
  have hfits : ∀ s ∈ splits, ∃ model,
      Classifier.fit (.naiveBayes 1.0) (x.select s.train) (labelsAt y s.train) = .ok model := by
    intro s hs
    have hshape : (x.select s.train).rows ≠ [] ∧
        (x.select s.train).height = (labelsAt y s.train).length := by
      rcases List.mem_pair.1 hs with rfl | rfl <;> exact ⟨by simp [Matrix.select, x], rfl⟩
    exact Classifier.exists_fit_naiveBayes hshape.1 hshape.2 hsmoothing
  obtain ⟨row, hrow⟩ := exists_crossValidate (rfl : x.height = y.length) (by decide) hfits
  obtain ⟨hpredictions, hpositives, hnegatives, htotal⟩ := crossValidate_counts rfl hsplit hrow
  have hcount : y.countP Label.isPositive = 2 := by decide +kernel
  have hcount' : (y.countP fun c => !Label.isPositive c) = 2 := by decide +kernel
  exact ⟨rfl, hsplit, row, hrow, hpredictions, hpositives.trans hcount, hnegatives.trans hcount', htotal⟩

end PackageTriage.Validation
