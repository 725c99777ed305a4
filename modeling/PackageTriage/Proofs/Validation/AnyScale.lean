import PackageTriage.Proofs.Scaling.Rescaling
import PackageTriage.Proofs.Validation.OutOfFold
import PackageTriage.Validation.Report

/-!
# Scaling does not matter to forests

In exact arithmetic trees and forests fitted on another scale are the same but for their thresholds, and
answer the same. So does every model that cross-validation fits, and a sweep over the grid of forests gives
one report whatever the preprocessing was.
-/

namespace PackageTriage

namespace Validation

variable (r : Rescaling) (trees : Nat) (maxDepth : Option Nat) (x : Matrix ℝ) (y : List ℝ)

/-- On another scale a forest says the same of the samples that a split holds out. -/
theorem heldOut_matrix (s : Split) :
    heldOut (.randomForest trees maxDepth) (r.matrix x) y s = heldOut (.randomForest trees maxDepth) x y s := by
  have hforest := r.fit_predict_forest (γ := Float) { Forest.unfitted trees with maxDepth } (x.select s.train)
    (x.select s.test) (labelsAt y s.train)
  simp only [heldOut, Classifier.fit, Classifier.fitNew, Rescaling.select_matrix, Rescaling.height_matrix]
  split
  · simpa only [bind_assoc, pure_bind, Classifier.predict] using hforest
  · rfl

/-- The counts of a forest do not depend on the scale of its columns. -/
theorem crossValidate_matrix (splits : List Split) :
    crossValidate (.randomForest trees maxDepth) (r.matrix x) y splits =
      crossValidate (.randomForest trees maxDepth) x y splits := by
  have hcount : countSplit (.randomForest trees maxDepth) (r.matrix x) y =
      countSplit (.randomForest trees maxDepth) x y := by
    funext s
    rw [countSplit, countSplit, heldOut_matrix]
  rw [crossValidate, crossValidate, hcount]

/-- What a model was fitted to for the samples of a split is among the rows of the matrix. -/
theorem rows_ne_nil_of_crossValidate {α : Type} [Scalar α] {h : Hyperparameters α} {x : Matrix α} {y : List α}
    {splits : List Split} {row : ValidationRow} {s : Split} (hs : s ∈ splits)
    (hrow : crossValidate h x y splits = .ok row) : x.rows ≠ [] := by
  obtain ⟨counts, hcounts, -⟩ := crossValidate_eq_ok hrow
  obtain ⟨c, hc⟩ := exists_eq_ok_of_mem hcounts hs
  obtain ⟨model, classes, hmodel, -⟩ := countSplit_eq_ok hc
  intro hrows
  exact Classifier.rows_ne_nil_of_fit hmodel (by simp [Matrix.select, hrows])

end Validation

theorem ForestGrid.mem_combinations {α : Type} {g : ForestGrid} {h : Hyperparameters α} :
    h ∈ g.combinations ↔ ∃ trees ∈ g.trees, ∃ maxDepth ∈ g.maxDepths, .randomForest trees maxDepth = h := by
  simp [combinations]

namespace ValidationReport

theorem sweep_matrix (r : Rescaling) (x : Matrix ℝ) (y : List ℝ) (g : Grids ℝ) :
    sweep .randomForest (r.matrix x) y g = sweep .randomForest x y g := by
  have hrows (splits : List Split) :
      (g.combinations .randomForest).mapM (fun h => Validation.crossValidate h (r.matrix x) y splits) =
        (g.combinations .randomForest).mapM fun h => Validation.crossValidate h x y splits := by
    refine mapM_congr fun h hh => ?_
    obtain ⟨trees, -, maxDepth, -, rfl⟩ := ForestGrid.mem_combinations.1 hh
    exact Validation.crossValidate_matrix r trees maxDepth x y splits
  simp only [sweep, hrows]

/-- A report comes from a matrix with rows. -/
theorem rows_ne_nil_of_sweep {α : Type} [Scalar α] {family : Family} {x : Matrix α} {y : List α} {g : Grids α}
    {report : ValidationReport} (h : sweep family x y g = .ok report) : x.rows ≠ [] := by
  rw [sweep] at h
  split at h
  · cases h
  · next hsome =>
    obtain ⟨splits, hsplits, h⟩ := bind_eq_ok.1 h
    obtain ⟨rows, hrows, -⟩ := bind_eq_ok.1 h
    obtain ⟨h, hh⟩ := List.exists_mem_of_ne_nil _ (mt List.isEmpty_iff.2 hsome)
    obtain ⟨row, hrow⟩ := exists_eq_ok_of_mem hrows hh
    obtain ⟨-, -, groups, -, rfl⟩ := Folds.exists_groups hsplits
    exact Validation.rows_ne_nil_of_crossValidate (s := Folds.splitOf folds groups.flatten 0)
      (List.mem_map_of_mem (List.mem_range.2 (by decide))) hrow

/-- What a sweep over forests reports does not depend on the preprocessing. -/
theorem sweep_preprocessed (m : Method) (x : Matrix ℝ) (y : List ℝ) (g : Grids ℝ) (report : ValidationReport) :
    (m.preprocess x >>= fun p => sweep .randomForest p.1 y g) = .ok report ↔
      sweep .randomForest x y g = .ok report := by
  by_cases hrows : x.rows = []
  · -- There is no scaler then, and no report without one either.
    have hnone : sweep .randomForest x y g ≠ .ok report := fun h => rows_ne_nil_of_sweep h hrows
    cases m with
    | raw => exact Iff.rfl
    | standardize => simp [Method.preprocess, Method.fit?, Method.fit?.noRows, hrows, hnone]
    | minMax => simp [Method.preprocess, Method.fit?, Method.fit?.noRows, hrows, hnone]
  · obtain ⟨r, s, hs⟩ := Rescaling.exists_preprocess m hrows
    rw [hs, ok_bind, sweep_matrix]

end ValidationReport

/-- In exact arithmetic a tree or a forest fitted on another scale is the one fitted without, its thresholds on
that scale, and answers for rows on that scale as that one answers for the rows. A sweep over forests reports
the same after every preprocessing. -/
theorem Rescaling.keeps_forests (r : Rescaling) (γ : Type) [Scalar γ] (t : DecisionTree ℝ) (f : Forest ℝ)
    (x z : Matrix ℝ) (y : List ℝ) (g : Grids ℝ) (m : Method) (report : ValidationReport) :
    (t.fit γ (r.matrix x) y = (t.fit γ x y).map r.tree ∧
      (t.fit γ (r.matrix x) y >>= (·.predict (r.matrix z))) = (t.fit γ x y >>= (·.predict z))) ∧
    (f.fit γ (r.matrix x) y = (f.fit γ x y).map r.forest ∧
      (f.fit γ (r.matrix x) y >>= (·.probabilities (r.matrix z))) = (f.fit γ x y >>= (·.probabilities z)) ∧
      (f.fit γ (r.matrix x) y >>= (·.predict (r.matrix z))) = (f.fit γ x y >>= (·.predict z))) ∧
    ((m.preprocess x >>= fun p => ValidationReport.sweep .randomForest p.1 y g) = .ok report ↔
      ValidationReport.sweep .randomForest x y g = .ok report) :=
  ⟨⟨r.fit_tree t x y, r.fit_predict_tree t x z y⟩,
    ⟨r.fit_forest f x y, r.fit_probabilities_forest f x z y, r.fit_predict_forest f x z y⟩,
    ValidationReport.sweep_preprocessed m x y g report⟩

end PackageTriage
