import PackageTriage.Proofs.Classifier.Width
import PackageTriage.Proofs.Tree.Rescaling

/-!
# Trees and forests fitted on another scale

Fitted on a matrix on another scale, a tree or a forest is the one fitted on the matrix itself with its
thresholds on that scale, or fails as that one fails. Its draws are the same, since they depend on the
seeds and on the shape of the matrix. So it answers for rows on the new scale as that one does for the rows.
-/

namespace PackageTriage

namespace Rescaling

variable (r : Rescaling)

noncomputable def matrix (x : Matrix ℝ) : Matrix ℝ := x.mapRows r.row r.length_row

theorem select_matrix (x : Matrix ℝ) (indices : List Nat) :
    (r.matrix x).select indices = r.matrix (x.select indices) := by
  have hrows : indices.filterMap ((x.rows.map r.row)[·]?) = (indices.filterMap (x.rows[·]?)).map r.row := by
    simp only [List.map_filterMap, List.getElem?_map]
  simp only [Matrix.select, matrix, Matrix.mapRows, hrows]

@[simp] theorem height_matrix (x : Matrix ℝ) : (r.matrix x).height = x.height := by
  simp [matrix, Matrix.mapRows, Matrix.height]

@[simp] theorem width_matrix (x : Matrix ℝ) : (r.matrix x).width = x.width := rfl

@[simp] theorem isEmpty_matrix (x : Matrix ℝ) : (r.matrix x).rows.isEmpty = x.rows.isEmpty := List.isEmpty_map

/-- The samples of the rescaled matrix are the rescaled samples. -/
theorem samplesOf_matrix (classes : List ℝ) (x : Matrix ℝ) (y : List ℝ) :
    DecisionTree.samplesOf classes (r.matrix x) y = (DecisionTree.samplesOf classes x y).map r.sample := by
  rw [DecisionTree.samplesOf, DecisionTree.samplesOf, List.map_zipWith, matrix, Matrix.mapRows, List.zipWith_map_left]
  rfl

theorem length_features_of_samplesOf {classes : List ℝ} {x : Matrix ℝ} {y : List ℝ} {s : TreeSample ℝ}
    (hs : s ∈ DecisionTree.samplesOf classes x y) : s.features.length = x.width := by
  rw [DecisionTree.samplesOf, ← List.map_uncurry_zip_eq_zipWith] at hs
  obtain ⟨⟨row, label⟩, hpair, rfl⟩ := List.mem_map.1 hs
  exact x.rows_width row (List.of_mem_zip hpair).1

noncomputable def tree (t : DecisionTree ℝ) : DecisionTree ℝ := { t with root := t.root.map r.node }

variable {γ : Type} [Scalar γ] {x z : Matrix ℝ} {y : List ℝ}

/-- Fitting a tree on rescaled rows gives the rescaled tree. -/
theorem fit_tree (t : DecisionTree ℝ) (x : Matrix ℝ) (y : List ℝ) :
    t.fit γ (r.matrix x) y = (t.fit γ x y).map r.tree := by
  have hgrow : Node.grow γ (t.rules x.width) (Classes.distinct y) (t.fuel x.height) t.maxDepth
      ((DecisionTree.samplesOf (Classes.distinct y) x y).map r.sample) (ChaCha.ofSeed t.seed) = _ :=
    r.grow_sample (Classes.distinct y) (fun s hs => length_features_of_samplesOf hs) (ChaCha.ofSeed t.seed)
  simp only [DecisionTree.fit, DecisionTree.refit, height_matrix, width_matrix, isEmpty_matrix, samplesOf_matrix,
    hgrow]
  split
  · rfl
  · split
    · rfl
    · cases Node.grow γ (t.rules x.width) (Classes.distinct y) (t.fuel x.height) t.maxDepth
          (DecisionTree.samplesOf (Classes.distinct y) x y) (ChaCha.ofSeed t.seed) with
      | none => rfl
      | some grown => rfl

/-- The rescaled tree predicts on rescaled rows what the tree predicts on the rows. -/
theorem predict_tree {t u : DecisionTree ℝ} (h : t.fit γ x y = .ok u) (z : Matrix ℝ) :
    (r.tree u).predict (r.matrix z) = u.predict z := by
  obtain ⟨hheight, hrows, root, g, hgrow, rfl⟩ := DecisionTree.fit_eq_ok h
  have hwithin := Node.within_of_grow (Matrix.distinct_ne_nil hrows hheight) hgrow
  by_cases hwidth : z.width = x.width
  · have hrow : ∀ row ∈ z.rows, (r.node root).predict (r.row row) = root.predict row := fun row hrow =>
      r.predict_node ((z.rows_width row hrow).trans hwidth) hwithin
    simpa [DecisionTree.predict, tree, hwidth, matrix, Matrix.mapRows] using hrow
  · simp [DecisionTree.predict, tree, hwidth]

theorem fit_predict_tree (t : DecisionTree ℝ) (x z : Matrix ℝ) (y : List ℝ) :
    (t.fit γ (r.matrix x) y >>= (·.predict (r.matrix z))) = (t.fit γ x y >>= (·.predict z)) := by
  rw [fit_tree]
  cases h : t.fit γ x y with
  | error e => rfl
  | ok u => exact r.predict_tree h z

noncomputable def forest (f : Forest ℝ) : Forest ℝ := { f with trees := f.trees.map r.tree }

theorem sapling_matrix (f : Forest ℝ) (x : Matrix ℝ) (place : Nat) :
    f.sapling (r.matrix x) place = f.sapling x place := by
  simp only [Forest.sapling, height_matrix, width_matrix]

theorem fitTree_matrix (f : Forest ℝ) (x : Matrix ℝ) (y : List ℝ) (place : Nat) :
    f.fitTree γ (r.matrix x) y place = (f.fitTree γ x y place).map r.tree := by
  rw [Forest.fitTree_eq, Forest.fitTree_eq, sapling_matrix, height_matrix, select_matrix, fit_tree]

/-- Fitting a forest on rescaled rows gives the rescaled forest. -/
theorem fit_forest (f : Forest ℝ) (x : Matrix ℝ) (y : List ℝ) :
    f.fit γ (r.matrix x) y = (f.fit γ x y).map r.forest := by
  have htrees : (List.range f.size).mapM (f.fitTree γ (r.matrix x) y) =
      ((List.range f.size).mapM (f.fitTree γ x y)).map (List.map r.tree) := by
    rw [← mapM_except_map]
    exact mapM_congr fun place _ => r.fitTree_matrix f x y place
  simp only [Forest.fit, Forest.refit, height_matrix, width_matrix, isEmpty_matrix, htrees]
  split
  · rfl
  · split
    · rfl
    · split
      · rfl
      · cases (List.range f.size).mapM (f.fitTree γ x y) with
        | error e => rfl
        | ok trees => rfl

theorem probabilities_forest {f g : Forest ℝ} (h : f.fit γ x y = .ok g) (z : Matrix ℝ) :
    (r.forest g).probabilities (r.matrix z) = g.probabilities z := by
  obtain ⟨-, -, -, trees, htrees, rfl⟩ := Forest.fit_eq_ok h
  have hvotes : (trees.map r.tree).mapM (·.predict (r.matrix z)) = trees.mapM (·.predict z) := by
    rw [List.mapM_map]
    refine mapM_congr fun t ht => ?_
    obtain ⟨place, -, hplace⟩ := exists_of_mem_mapM htrees ht
    rw [Forest.fitTree_eq] at hplace
    exact r.predict_tree hplace z
  simp only [Forest.probabilities, forest, List.isEmpty_map, hvotes, List.length_map, height_matrix]

theorem predict_forest {f g : Forest ℝ} (h : f.fit γ x y = .ok g) (z : Matrix ℝ) :
    (r.forest g).predict (r.matrix z) = g.predict z := by
  rw [Forest.predict, Forest.predict, r.probabilities_forest h]
  rfl

theorem fit_probabilities_forest (f : Forest ℝ) (x z : Matrix ℝ) (y : List ℝ) :
    (f.fit γ (r.matrix x) y >>= (·.probabilities (r.matrix z))) = (f.fit γ x y >>= (·.probabilities z)) := by
  rw [fit_forest]
  cases h : f.fit γ x y with
  | error e => rfl
  | ok g => exact r.probabilities_forest h z

theorem fit_predict_forest (f : Forest ℝ) (x z : Matrix ℝ) (y : List ℝ) :
    (f.fit γ (r.matrix x) y >>= (·.predict (r.matrix z))) = (f.fit γ x y >>= (·.predict z)) := by
  rw [fit_forest]
  cases h : f.fit γ x y with
  | error e => rfl
  | ok g => exact r.predict_forest h z

end Rescaling

end PackageTriage
