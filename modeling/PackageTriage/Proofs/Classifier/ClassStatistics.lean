import PackageTriage.Proofs.Classifier.Votes
import PackageTriage.Proofs.Statistics.Extremes
import PackageTriage.Proofs.Statistics.Moments
import PackageTriage.Proofs.Tree.RowOrder
import PackageTriage.NaiveBayes

/-!
# What naive Bayes learns

In exact arithmetic a fitted naive Bayes classifier knows of every class the mean and the widened variance of each
feature over the rows with that label, and the share of these rows. All of this is the same in whatever order the
rows come, for the rows of a class are those of the labelled rows that carry it.
-/

namespace PackageTriage.NaiveBayes

open Statistics

variable {b : NaiveBayes ℝ} {x : Matrix ℝ} {y : List ℝ}

noncomputable def rowsWith (x : Matrix ℝ) (y : List ℝ) (c : ℝ) : List (List ℝ) :=
  ((x.rows.zip y).filter fun p => p.2 = c).map Prod.fst

def feature (j : Nat) (rows : List (List ℝ)) : List ℝ := rows.map (·.getD j 0)

def perFeature (width : Nat) (rows : List (List ℝ)) (f : List ℝ → ℝ) : List ℝ :=
  (List.range width).map fun j => f (feature j rows)

theorem map_columns (x : Matrix ℝ) (f : List ℝ → ℝ) : x.columns.map f = perFeature x.width x.rows f := by
  rw [Matrix.columns, List.map_map, perFeature]
  refine List.map_congr_left fun j hj => ?_
  rw [Function.comp_apply, Matrix.column_eq_map 0 (List.mem_range.1 hj), feature]

/-- Labelled rows, taken by their places. -/
theorem labelled_eq_map (hheight : x.height = y.length) :
    x.rows.zip y = (List.range x.height).map fun i => (x.rows.getD i [], y.getD i 0) := by
  rw [← List.zip_map', Matrix.height, map_getD_range, ← Matrix.height, hheight, map_getD_range]

theorem rows_rowsOf (hheight : x.height = y.length) (c : ℝ) : (rowsOf x y c).rows = rowsWith x y c := by
  have hplaces : ∀ i ∈ (List.range x.height).filter fun i => Scalar.same (y.getD i 0) c, i < x.height :=
    fun i hi => List.mem_range.1 (List.mem_of_mem_filter hi)
  rw [rowsOf, Matrix.rows_select hplaces, rowsWith, labelled_eq_map hheight, List.filter_map, List.map_map]
  rfl

theorem length_rowsWith (hheight : x.height = y.length) (c : ℝ) :
    (rowsWith x y c).length = Classes.frequency y c := by
  have hlabels : (x.rows.zip y).map Prod.snd = y := List.map_snd_zip hheight.ge
  rw [rowsWith, List.length_map, ← List.countP_eq_length_filter, Classes.frequency]
  conv_rhs => rw [← hlabels, List.countP_map]
  exact List.countP_congr fun p _ => by simp [eq_comm]

/-- Rows that are put into another order with their labels have the same rows with each label. -/
theorem rowsWith_select_perm (hheight : x.height = y.length) {places : List Nat}
    (hplaces : places.Perm (List.range x.height)) (c : ℝ) :
    (rowsWith (x.select places) (places.map fun i => y.getD i 0) c).Perm (rowsWith x y c) := by
  rw [rowsWith, rowsWith, Matrix.rows_select fun i hi => List.mem_range.1 (hplaces.mem_iff.1 hi), List.zip_map',
    labelled_eq_map hheight]
  exact ((hplaces.map _).filter _).map _

theorem perFeature_perm {rows others : List (List ℝ)} (h : rows.Perm others) (width : Nat) {f : List ℝ → ℝ}
    (hf : ∀ xs ys : List ℝ, xs.Perm ys → f xs = f ys) : perFeature width rows f = perFeature width others f :=
  List.map_congr_left fun _ _ => hf _ _ (h.map _)

theorem widening_eq (smoothing : ℝ) (x : Matrix ℝ) :
    widening smoothing x = Max.max
      (if 0 < (perFeature x.width x.rows populationVariance).foldl Scalar.max 0
        then smoothing * (perFeature x.width x.rows populationVariance).foldl Scalar.max 0 else smoothing)
      Scalar.leastNormal := by
  have hvariance : (variance : List ℝ → ℝ) = populationVariance := funext variance_eq
  simp only [widening, map_columns, hvariance, Scalar.max_real, Scalar.less_real, decide_eq_true_eq]

theorem leastNormal_pos : (0 : ℝ) < Scalar.leastNormal := zpow_pos two_pos _

/-- The widening is positive, so that no likelihood divides by zero. -/
theorem widening_pos (smoothing : ℝ) (x : Matrix ℝ) : 0 < widening smoothing x := by
  rw [widening_eq]
  exact leastNormal_pos.trans_le (le_max_right _ _)

/-- Constant features are widened by the smoothing itself. -/
theorem widening_of_constant (smoothing : ℝ) (h : ∀ j < x.width, ∃ c, ∀ v ∈ feature j x.rows, v = c) :
    widening smoothing x = Max.max smoothing Scalar.leastNormal := by
  obtain ⟨hmem, -⟩ := isGreatest_foldl_max 0 (perFeature x.width x.rows populationVariance)
  have hzero : (perFeature x.width x.rows populationVariance).foldl Scalar.max 0 = 0 := by
    refine (List.mem_cons.1 hmem).elim id fun hmem => ?_
    obtain ⟨j, hj, heq⟩ := List.mem_map.1 hmem
    rw [← heq]
    exact (populationVariance_eq_zero_iff _).2 (h j (List.mem_range.1 hj))
  rw [widening_eq, hzero, if_neg (lt_irrefl 0)]

/-- If some feature is not constant, the greatest variance scales the smoothing. -/
theorem widening_of_not_constant (smoothing : ℝ) (h : ¬∀ j < x.width, ∃ c, ∀ v ∈ feature j x.rows, v = c) :
    ∃ g, IsGreatest {v | ∃ j < x.width, v = populationVariance (feature j x.rows)} g ∧ 0 < g ∧
      widening smoothing x = Max.max (smoothing * g) Scalar.leastNormal := by
  obtain ⟨hmem, hupper⟩ := isGreatest_foldl_max 0 (perFeature x.width x.rows populationVariance)
  rw [widening_eq]
  set g := (perFeature x.width x.rows populationVariance).foldl Scalar.max 0
  have hle (j : Nat) (hj : j < x.width) : populationVariance (feature j x.rows) ≤ g :=
    hupper (List.mem_cons_of_mem 0 (List.mem_map_of_mem (List.mem_range.2 hj)))
  have hpos : 0 < g := by
    push Not at h
    obtain ⟨j, hj, hne⟩ := h
    have hvariance : populationVariance (feature j x.rows) ≠ 0 := by
      rw [Ne, populationVariance_eq_zero_iff]
      push Not
      exact hne
    exact ((populationVariance_nonneg _).lt_of_ne' hvariance).trans_le (hle j hj)
  refine ⟨g, ⟨?_, ?_⟩, hpos, by rw [if_pos hpos]⟩
  · obtain ⟨j, hj, heq⟩ := List.mem_map.1 ((List.mem_cons.1 hmem).resolve_left hpos.ne')
    exact ⟨j, List.mem_range.1 hj, heq.symm⟩
  · rintro v ⟨j, hj, rfl⟩
    exact hle j hj

/-- The widening looks at whole columns, so the order of the rows is of no account. -/
theorem widening_select_perm (smoothing : ℝ) {places : List Nat} (hplaces : places.Perm (List.range x.height)) :
    widening smoothing (x.select places) = widening smoothing x := by
  have hvariances : perFeature (x.select places).width (x.select places).rows populationVariance =
      perFeature x.width x.rows populationVariance :=
    perFeature_perm (Matrix.rows_select_perm hplaces) x.width fun _ _ => populationVariance_perm
  rw [widening_eq, widening_eq, hvariances]

/-- What fitting makes of labelled rows, found in two passes over the rows of each class. -/
noncomputable def learned (b : NaiveBayes ℝ) (x : Matrix ℝ) (y : List ℝ) : NaiveBayes ℝ := { b with
  means := (Classes.distinct y).map fun c => perFeature x.width (rowsWith x y c) average
  variances := (Classes.distinct y).map fun c =>
    perFeature x.width (rowsWith x y c) fun values => populationVariance values + widening b.smoothing x
  priors := (Classes.distinct y).map fun c => (rowsWith x y c).length / x.rows.length
  classes := Classes.distinct y
  epsilon := widening b.smoothing x }

/-- Over the reals training gives exactly the model of the textbook. -/
theorem fit_eq_learned (hrows : x.rows ≠ []) (hheight : x.height = y.length) (hsmoothing : 0 ≤ b.smoothing) :
    b.fit x y = .ok (learned b x y) := by
  have hstatistics (epsilon : ℝ) (values : List ℝ) :
      featureStatistics epsilon values = (average values, populationVariance values + epsilon) := by
    rw [featureStatistics, Spread.ofListRounded_eq]
    rfl
  have hcolumns (c : ℝ) (f : List ℝ → ℝ) :
      (rowsOf x y c).columns.map f = perFeature x.width (rowsWith x y c) f := by
    rw [map_columns, rows_rowsOf hheight]
    rfl
  have hlength (c : ℝ) : (rowsOf x y c).height = (rowsWith x y c).length := by
    rw [Matrix.height, rows_rowsOf hheight]
  simp only [fit, refit, hrows, hheight, hsmoothing, List.isEmpty_iff, ne_eq, not_true_eq_false, Bool.not_true,
    Bool.false_eq_true, ↓reduceIte, Attempt.result_fitted, Scalar.atMost_real, decide_true, List.map_map,
    Function.comp_def, hstatistics, hcolumns, hlength, learned]
  rw [← hheight, Matrix.height]

theorem learned_select_perm (hheight : x.height = y.length) {places : List Nat}
    (hplaces : places.Perm (List.range x.height)) :
    learned b (x.select places) (places.map fun i => y.getD i 0) = learned b x y := by
  have hclasses : Classes.distinct (places.map fun i => y.getD i 0) = Classes.distinct y := by
    rw [Classes.distinct, Classes.distinct,
      OrderedScalar.mergeSort_perm (DecisionTree.labels_select_perm hheight hplaces)]
  have hfeatures (c : ℝ) {f : List ℝ → ℝ} (hf : ∀ xs ys : List ℝ, xs.Perm ys → f xs = f ys) :
      perFeature (x.select places).width (rowsWith (x.select places) (places.map fun i => y.getD i 0) c) f =
        perFeature x.width (rowsWith x y c) f :=
    perFeature_perm (rowsWith_select_perm hheight hplaces c) x.width hf
  simp only [learned, hclasses, widening_select_perm _ hplaces, (Matrix.rows_select_perm hplaces).length_eq,
    (rowsWith_select_perm hheight hplaces _).length_eq, hfeatures _ fun _ _ => average_perm,
    hfeatures _ fun _ _ h => congrArg (· + widening b.smoothing x) (populationVariance_perm h)]

/-- The classifier knows its classes and of each of them the share, the means and the widened variances. -/
structure Knows (b : NaiveBayes ℝ) (x : Matrix ℝ) (y : List ℝ) : Prop where
  rising : b.classes.Pairwise (· < ·)
  mem_classes : ∀ c, c ∈ b.classes ↔ c ∈ y
  means : b.means = b.classes.map fun c => perFeature x.width (rowsWith x y c) average
  variances : b.variances = b.classes.map fun c =>
    perFeature x.width (rowsWith x y c) fun values => populationVariance values + b.epsilon
  variances_pos : ∀ row ∈ b.variances, ∀ v ∈ row, 0 < v
  priors : b.priors = b.classes.map fun c => ((rowsWith x y c).length / x.rows.length : ℝ)
  priors_pos : ∀ p ∈ b.priors, 0 < p
  priors_sum : b.priors.sum = 1
  epsilon_constant : (∀ j < x.width, ∃ c, ∀ v ∈ feature j x.rows, v = c) →
    b.epsilon = Max.max b.smoothing (2 ^ (-1022 : ℤ))
  epsilon_not_constant : (¬∀ j < x.width, ∃ c, ∀ v ∈ feature j x.rows, v = c) →
    ∃ g, IsGreatest {v | ∃ j < x.width, v = populationVariance (feature j x.rows)} g ∧
      b.epsilon = Max.max (b.smoothing * g) (2 ^ (-1022 : ℤ))

theorem knows_learned (hrows : x.rows ≠ []) (hheight : x.height = y.length) : Knows (learned b x y) x y where
  rising := (Classes.classify_distinct fun c _ => Scalar.isNumber_real c).rising.imp fun h => by simpa using h
  mem_classes c := by
    refine ⟨Classes.mem_of_mem_distinct, fun hc => ?_⟩
    obtain ⟨k, hk, hsame⟩ := Classes.exists_same_distinct (Scalar.same_real c c ▸ decide_eq_true rfl) hc
    rw [Scalar.same_real, decide_eq_true_eq] at hsame
    exact hsame ▸ hk
  means := rfl
  variances := rfl
  variances_pos := by
    intro row hrow v hv
    obtain ⟨c, -, rfl⟩ := List.mem_map.1 hrow
    obtain ⟨j, -, rfl⟩ := List.mem_map.1 hv
    exact add_pos_of_nonneg_of_pos (populationVariance_nonneg _) (widening_pos b.smoothing x)
  priors := rfl
  priors_pos := by
    intro p hp
    obtain ⟨c, hc, rfl⟩ := List.mem_map.1 hp
    rw [length_rowsWith hheight]
    have hcount : 0 < Classes.frequency y c := by
      rw [Classes.frequency, List.countP_pos_iff]
      exact ⟨c, Classes.mem_of_mem_distinct hc, by simp⟩
    have hlength : 0 < x.rows.length := List.length_pos_iff.2 hrows
    exact div_pos (Nat.cast_pos.2 hcount) (Nat.cast_pos.2 hlength)
  priors_sum := by
    have hsum := (Classes.classify_distinct fun c (_ : c ∈ y) => Scalar.isNumber_real c).sum_frequency
    have hlength : (x.rows.length : ℝ) ≠ 0 := Nat.cast_ne_zero.2 (List.length_pos_iff.2 hrows).ne'
    calc (learned b x y).priors.sum
        = ((Classes.distinct y).map fun c => (Classes.frequency y c : ℝ) / x.rows.length).sum := by
          simp only [learned, length_rowsWith hheight]
      _ = ((Classes.distinct y).map (Classes.frequency y)).sum / x.rows.length := by
          simp only [div_eq_mul_inv]
          rw [List.sum_map_mul_right, Nat.cast_list_sum, List.map_map]
          rfl
      _ = 1 := by rw [hsum, ← hheight, Matrix.height, div_self hlength]
  epsilon_constant := widening_of_constant b.smoothing
  epsilon_not_constant h := by
    obtain ⟨g, hg, -, heq⟩ := widening_of_not_constant b.smoothing h
    exact ⟨g, hg, heq⟩

/-- Fitting rows with as many labels succeeds. The classifier then knows the statistics of the classes, and rows in
another order with their labels make the same of it. -/
theorem fit_knows (b : NaiveBayes ℝ) {x : Matrix ℝ} {y : List ℝ} (hrows : x.rows ≠ [])
    (hheight : x.height = y.length) (hsmoothing : 0 ≤ b.smoothing) :
    ∃ fitted, b.fit x y = .ok fitted ∧ fitted.smoothing = b.smoothing ∧ Knows fitted x y ∧
      ∀ places : List Nat, places.Perm (List.range x.height) →
        b.fit (x.select places) (places.map fun i => y.getD i 0) = .ok fitted := by
  refine ⟨learned b x y, fit_eq_learned hrows hheight hsmoothing, rfl, knows_learned hrows hheight, ?_⟩
  intro places hplaces
  have hsame := (Matrix.rows_select_perm hplaces).length_eq
  have hsome : (x.select places).rows ≠ [] := by
    rw [← List.length_pos_iff] at hrows ⊢
    exact hrows.trans_eq hsame.symm
  have hlabels : (x.select places).height = (places.map fun i => y.getD i 0).length := by
    rw [List.length_map, hplaces.length_eq, List.length_range, Matrix.height, hsame, Matrix.height]
  rw [fit_eq_learned hsome hlabels hsmoothing, learned_select_perm hheight hplaces]

/-- Three rows of two classes, also from the last to the first. -/
theorem fit_knows_reversed :
    let x : Matrix ℝ := ⟨1, [[0], [2], [1]], by simp⟩
    x.rows ≠ [] ∧ x.height = [(0 : ℝ), 0, 1].length ∧ 0 ≤ (unfitted (1 : ℝ)).smoothing ∧
    ∃ fitted, (unfitted 1).fit x [0, 0, 1] = .ok fitted ∧ Knows fitted x [0, 0, 1] ∧
      (unfitted 1).fit (x.select [2, 1, 0]) [1, 0, 0] = .ok fitted := by
  intro x
  have hrows : x.rows ≠ [] := List.cons_ne_nil _ _
  have hsmoothing : 0 ≤ (unfitted (1 : ℝ)).smoothing := zero_le_one
  have hplaces : [2, 1, 0].Perm (List.range x.height) := List.reverse_perm [0, 1, 2]
  obtain ⟨fitted, hfit, -, hknows, horder⟩ := fit_knows (unfitted 1) (y := [0, 0, 1]) hrows rfl hsmoothing
  exact ⟨hrows, rfl, hsmoothing, fitted, hfit, hknows, horder [2, 1, 0] hplaces⟩

end PackageTriage.NaiveBayes
