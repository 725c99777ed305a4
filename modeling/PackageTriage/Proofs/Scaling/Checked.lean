import PackageTriage.Proofs.Scalar.Checked
import PackageTriage.Proofs.Scaling.Rescaling
import PackageTriage.Proofs.Statistics.Sums

/-!
# Scaling without dividing by zero

Fitting a scaler to a matrix with rows and scaling the matrix with it come out the same where a division by zero is
noticed. The means are divided by the number of rows, a spread by how many entries it has seen, and the entries by
scales, none of which is zero.
-/

namespace PackageTriage

def Scaler.map {α β : Type} (f : α → β) : Scaler α → Scaler β
  | standard mean scale => standard (mean.map f) (scale.map f)
  | minMax min scale => minMax (min.map f) (scale.map f)

namespace Statistics

theorem sum_value (xs : List ℝ) : Scalar.sum (xs.map Checked.value) = .value (Scalar.sum xs) := by
  rw [Scalar.sum, List.foldl_map]
  exact List.foldl_hom Checked.value fun _ _ => rfl

theorem zipWith_add_value (xs ys : List ℝ) :
    List.zipWith (· + ·) (xs.map Checked.value) (ys.map Checked.value) =
      (List.zipWith (· + ·) xs ys).map Checked.value := by
  rw [List.zipWith_map, List.map_zipWith]
  rfl

theorem joinLanes_value (partials : List ℝ) :
    joinLanes (partials.map Checked.value) = .value (joinLanes partials) := by
  by_cases hblock : ∃ a b c d e f g h, partials = [a, b, c, d, e, f, g, h]
  · obtain ⟨a, b, c, d, e, f, g, h, rfl⟩ := hblock
    rfl
  · rw [joinLanes.eq_2, joinLanes.eq_2, sum_value]
    · grind
    · simp only [List.map_eq_cons_iff, List.map_eq_nil_iff]
      grind

theorem lanes_value (partials xs : List ℝ) :
    lanes (partials.map Checked.value) (xs.map Checked.value) =
      (lanes partials xs).map (List.map Checked.value) (List.map Checked.value) := by
  fun_induction lanes partials xs with
  | case1 partials a b c d e f g h rest ih =>
    rw [← ih]
    exact congrArg (lanes · _) (zipWith_add_value partials [a, b, c, d, e, f, g, h])
  | case2 partials xs hshort =>
    rw [lanes.eq_2]
    · rfl
    · -- What is shorter than a block stays so when its entries are changed.
      intro _ _ _ _ _ _ _ _ _ hblock
      simp only [List.map_eq_cons_iff] at hblock
      obtain ⟨_, _, rfl, -, _, _, rfl, -, _, _, rfl, -, _, _, rfl, -, _, _, rfl, -, _, _, rfl, -, _, _, rfl, -,
        _, _, rfl, -⟩ := hblock
      exact hshort _ _ _ _ _ _ _ _ _ rfl

theorem laneSum_value (xs : List ℝ) : laneSum (xs.map Checked.value) = .value (laneSum xs) := by
  have hlanes : lanes (List.replicate 8 0) (xs.map Checked.value) = _ := lanes_value (List.replicate 8 0) xs
  rw [laneSum, hlanes]
  simp only [Prod.map]
  rw [joinLanes_value, List.foldl_map]
  exact List.foldl_hom Checked.value fun _ _ => rfl

theorem filter_isNumber_value (xs : List ℝ) :
    (xs.map Checked.value).filter Scalar.isNumber = (xs.filter Scalar.isNumber).map Checked.value :=
  List.filter_map

theorem least_value (xs : List ℝ) : least (xs.map Checked.value) = .value (least xs) := by
  rw [least, least, filter_isNumber_value]
  cases xs.filter Scalar.isNumber with
  | nil => rfl
  | cons x xs =>
    simp only [List.map_cons, List.foldl_map]
    exact List.foldl_hom Checked.value fun a b => (apply_ite Checked.value _ _ _).symm

theorem greatest_value (xs : List ℝ) : greatest (xs.map Checked.value) = .value (greatest xs) := by
  rw [greatest, greatest, filter_isNumber_value]
  cases xs.filter Scalar.isNumber with
  | nil => rfl
  | cons x xs =>
    simp only [List.map_cons, List.foldl_map]
    exact List.foldl_hom Checked.value fun a b => (apply_ite Checked.value _ _ _).symm

noncomputable def Spread.checked (s : Spread ℝ) : Spread Checked := ⟨s.count, .value s.mean, .value s.squares⟩

/-- An entry is divided by how many there are with it. -/
theorem Spread.add_checked (s : Spread ℝ) (v : ℝ) :
    s.checked.add Scalar.fma (.value v) = (s.add Scalar.fma v).checked := by
  have hcount : ((s.count + 1 : Nat) : ℝ) ≠ 0 := Nat.cast_ne_zero.2 s.count.succ_ne_zero
  simp only [add, checked, Checked.value_sub, Checked.natCast_eq, Checked.value_div _ hcount, Checked.value_add]
  rfl

theorem Spread.ofList_checked (xs : List ℝ) : ofList (xs.map Checked.value) = (ofList xs).checked := by
  have hinitial : (initial : Spread Checked) = checked initial := rfl
  rw [ofList, ofList, List.foldl_map, hinitial]
  exact List.foldl_hom checked add_checked

theorem variance_value {xs : List ℝ} (h : xs ≠ []) : variance (xs.map Checked.value) = .value (variance xs) := by
  have hlength : (xs.length : ℝ) ≠ 0 := Nat.cast_ne_zero.2 (List.length_pos_iff.2 h).ne'
  rw [variance, Spread.ofList_checked, List.length_map]
  exact Checked.value_div _ hlength

end Statistics

namespace Matrix

theorem column_map {α β : Type} (f : α → β) (x : Matrix α) (j : Nat) : (x.map f).column j = (x.column j).map f := by
  rw [column, column, map, List.filterMap_map, List.map_filterMap]
  refine List.filterMap_congr fun row _ => ?_
  simp

theorem map_columns_value {x : Matrix ℝ} {f : List Checked → Checked} {g : List ℝ → ℝ}
    (h : ∀ j < x.width, f ((x.column j).map Checked.value) = .value (g (x.column j))) :
    (x.map Checked.value).columns.map f = (x.columns.map g).map Checked.value := by
  rw [columns, columns, List.map_map, List.map_map, List.map_map]
  refine List.map_congr_left fun j hj => ?_
  simp only [Function.comp_apply, column_map]
  exact h j (List.mem_range.1 hj)

theorem columnSums_value (x : Matrix ℝ) :
    (x.map Checked.value).columnSums = x.columnSums.map Checked.value := by
  have hzero : List.replicate x.width (0 : Checked) = (List.replicate x.width (0 : ℝ)).map Checked.value := by
    rw [List.map_replicate]
    rfl
  rw [columnSums, columnSums, map, List.foldl_map, hzero]
  exact List.foldl_hom (List.map Checked.value) Statistics.zipWith_add_value

end Matrix

namespace Scaler

variable {x : Matrix ℝ}

theorem usable_value (s : ℝ) : usable (Checked.value s) = .value (usable s) := (apply_ite Checked.value _ _ _).symm

/-- Without rows there would be nothing to divide by. -/
theorem columnMeans_value (hrows : x.rows ≠ []) :
    columnMeans (x.map Checked.value) = (columnMeans x).map Checked.value := by
  have hheight : (x.height : ℝ) ≠ 0 := Nat.cast_ne_zero.2 (List.length_pos_iff.2 hrows).ne'
  have hcount : ((x.map Checked.value).height : Checked) = .value x.height := by
    rw [Matrix.height, Matrix.map, List.length_map]
    rfl
  rw [columnMeans, columnMeans, hcount, apply_ite (List.map Checked.value)]
  refine if_congr Iff.rfl ?_ ?_
  · refine Matrix.map_columns_value fun j _ => ?_
    rw [Statistics.laneSum_value, Checked.value_div _ hheight]
  · rw [Matrix.columnSums_value, List.map_map, List.map_map]
    exact List.map_congr_left fun sum _ => Checked.value_div _ hheight

theorem fitStandard_value (hrows : x.rows ≠ []) :
    fitStandard (x.map Checked.value) = (fitStandard x).map Checked.value := by
  rw [fitStandard, columnMeans_value hrows, Matrix.map_columns_value]
  · rfl
  · intro j hj
    rw [Statistics.variance_value (Matrix.column_ne_nil hrows hj), Checked.sqrt_value, usable_value]

theorem fitMinMax_value (x : Matrix ℝ) : fitMinMax (x.map Checked.value) = (fitMinMax x).map Checked.value := by
  rw [fitMinMax, Matrix.map_columns_value fun j _ => Statistics.least_value _,
    Matrix.map_columns_value fun j _ => Statistics.greatest_value _, List.zipWith_map, fitMinMax, map,
    List.map_zipWith]
  congr 2
  funext low high
  rw [Checked.value_sub, usable_value]

/-- The entries of a row are divided by scales that are not zero. -/
theorem scaleRow_value {cs ss : List ℝ} (hss : ∀ s ∈ ss, s ≠ 0) (vs : List ℝ) :
    scaleRow (cs.map Checked.value) (ss.map Checked.value) (vs.map Checked.value) =
      (scaleRow cs ss vs).map Checked.value := by
  induction vs generalizing cs ss with
  | nil => simp [scaleRow]
  | cons v vs ih =>
    cases cs with
    | nil => rfl
    | cons c cs =>
      cases ss with
      | nil => rfl
      | cons s ss =>
        simp only [List.map_cons, scaleRow, Checked.value_sub, Checked.value_div _ (hss s List.mem_cons_self)]
        rw [ih fun t ht => hss t (List.mem_cons_of_mem s ht)]

/-- No transformation divides by zero where the scales do not vanish. -/
theorem transform_value {s : Scaler ℝ} (hscale : ∀ σ ∈ s.scale, σ ≠ 0) (x : Matrix ℝ) :
    (s.map Checked.value).transform (x.map Checked.value) = (s.transform x).map (Matrix.map Checked.value) := by
  have hcenter : (s.map Checked.value).center = s.center.map Checked.value := by cases s <;> rfl
  have hscales : (s.map Checked.value).scale = s.scale.map Checked.value := by cases s <;> rfl
  have hwidth : (s.map Checked.value).checkWidth (x.map Checked.value).width = s.checkWidth x.width := by
    simp only [checkWidth, width, hcenter, List.length_map]
    rfl
  have hrows : (x.rows.map (List.map Checked.value)).map
      (scaleRow (s.center.map Checked.value) (s.scale.map Checked.value)) =
        (x.rows.map (scaleRow s.center s.scale)).map (List.map Checked.value) := by
    rw [List.map_map, List.map_map]
    exact List.map_congr_left fun row _ => scaleRow_value hscale row
  rw [transform, transform, hwidth]
  cases s.checkWidth x.width with
  | error e => rfl
  | ok _ =>
    simp only [ok_bind, pure_eq_ok, Except.map, Matrix.map, Matrix.mapRows, hcenter, hscales, hrows]

end Scaler

namespace Method

variable {x : Matrix ℝ}

theorem fit?_value (m : Method) (hrows : x.rows ≠ []) :
    m.fit? (x.map Checked.value) = (m.fit? x).map (Option.map (Scaler.map Checked.value)) := by
  have hrows' : (x.map Checked.value).rows ≠ [] := by simpa [Matrix.map] using hrows
  cases m with
  | raw => rfl
  | standardize =>
    rw [fit?_standardize hrows', fit?_standardize hrows, Scaler.fitStandard_value hrows]
    rfl
  | minMax =>
    rw [fit?_minMax hrows', fit?_minMax hrows, Scaler.fitMinMax_value]
    rfl

/-- Every scale is positive, a constant column's included. -/
theorem scale_pos_of_fit? {m : Method} (hrows : x.rows ≠ []) {s : Scaler ℝ} (hfit : m.fit? x = .ok (some s)) :
    ∀ σ ∈ s.scale, 0 < σ := by
  cases m with
  | raw => cases hfit
  | standardize =>
    rw [fit?_standardize hrows] at hfit
    cases hfit
    exact (Scaler.standardRescaling x).scale_pos
  | minMax =>
    rw [fit?_minMax hrows] at hfit
    cases hfit
    exact (Scaler.minMaxRescaling x hrows).scale_pos

/-- Preprocessing a matrix with rows divides by nothing that is zero. -/
theorem preprocess_value (m : Method) (hrows : x.rows ≠ []) :
    m.preprocess (x.map Checked.value) =
      (m.preprocess x).map (Prod.map (Matrix.map Checked.value) (Option.map (Scaler.map Checked.value))) := by
  rw [preprocess, preprocess, fit?_value m hrows]
  cases hfit : m.fit? x with
  | error e => rfl
  | ok fitted =>
    cases fitted with
    | none => rfl
    | some s =>
      have hscale : ∀ σ ∈ s.scale, σ ≠ 0 := fun σ hσ => (scale_pos_of_fit? hrows hfit σ hσ).ne'
      simp only [Except.map, Option.map_some, ok_bind, Scaler.transform_value hscale]
      cases s.transform x <;> rfl

end Method

end PackageTriage
