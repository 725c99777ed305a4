import PackageTriage.Proofs.Network.Shapes
import PackageTriage.Proofs.Sequences
import PackageTriage.Proofs.Statistics.Extremes
import PackageTriage.Proofs.Tree.RescaledFits

/-!
# Preprocessing puts features on another scale

A fitted scaler knows a centre and a positive scale for every column: a deviation and a range are not
negative, and zero is replaced. So every preprocessing method puts a matrix with rows on another scale, the
method that leaves the features as they are among them, since a scale need not move any column.
-/

namespace PackageTriage

theorem Matrix.column_ne_nil {x : Matrix ℝ} (hrows : x.rows ≠ []) {j : Nat} (hj : j < x.width) :
    x.column j ≠ [] := by
  obtain ⟨row, hrow⟩ := List.exists_mem_of_ne_nil _ hrows
  have hlt : j < row.length := (x.rows_width row hrow).symm ▸ hj
  exact List.ne_nil_of_mem (List.mem_filterMap.2 ⟨row, hrow, List.getElem?_eq_getElem hlt⟩)

namespace Scaler

theorem usable_pos {s : ℝ} (hs : 0 ≤ s) : 0 < usable s := by
  rw [usable, Scalar.same_real]
  split
  · exact one_pos
  · next hne => exact lt_of_le_of_ne hs (Ne.symm (by simpa using hne))

theorem length_columnMeans (x : Matrix ℝ) : (columnMeans x).length = x.width := by
  rw [columnMeans]
  split
  · rw [List.length_map, Matrix.columns, List.length_map, List.length_range]
  · rw [List.length_map, Network.length_columnSums]

/-- The scale that standardizing moves a matrix to. -/
noncomputable def standardRescaling (x : Matrix ℝ) : Rescaling where
  center := (fitStandard x).center
  scale := (fitStandard x).scale
  length_scale := by simp [fitStandard, center, scale, length_columnMeans, Matrix.columns]
  scale_pos := by
    intro s hs
    obtain ⟨column, -, rfl⟩ := List.mem_map.1 hs
    exact usable_pos (Real.sqrt_nonneg _)

noncomputable def minMaxRescaling (x : Matrix ℝ) (hrows : x.rows ≠ []) : Rescaling where
  center := (fitMinMax x).center
  scale := (fitMinMax x).scale
  length_scale := by simp [fitMinMax, center, scale]
  scale_pos := by
    intro s hs
    rw [fitMinMax, scale, List.zipWith_map, List.zipWith_self] at hs
    obtain ⟨column, hcolumn, rfl⟩ := List.mem_map.1 hs
    obtain ⟨j, hj, rfl⟩ := List.mem_map.1 hcolumn
    have hne := Matrix.column_ne_nil hrows (List.mem_range.1 hj)
    exact usable_pos (sub_nonneg.2 (Statistics.least_le_greatest hne))

end Scaler

namespace Method

section

variable {α : Type} [Scalar α] {x : Matrix α}

theorem fit?_standardize (hrows : x.rows ≠ []) : standardize.fit? x = .ok (some (.fitStandard x)) :=
  if_neg (by simpa using hrows)

theorem fit?_minMax (hrows : x.rows ≠ []) : minMax.fit? x = .ok (some (.fitMinMax x)) :=
  if_neg (by simpa using hrows)

/-- A matrix as wide as the fitted one is scaled row by row. -/
theorem preprocess_of_fit? {m : Method} {s : Scaler α} (hfit : m.fit? x = .ok (some s)) (hwidth : x.width = s.width) :
    m.preprocess x = .ok (x.mapRows (Scaler.scaleRow s.center s.scale) (Scaler.length_scaleRow _ _), some s) := by
  simp only [preprocess, hfit, ok_bind, Scaler.transform, Scaler.checkWidth, if_pos hwidth, pure_eq_ok]

end

variable {x : Matrix ℝ}

theorem preprocess_standardize (hrows : x.rows ≠ []) :
    standardize.preprocess x = .ok ((Scaler.standardRescaling x).matrix x, some (.fitStandard x)) :=
  preprocess_of_fit? (fit?_standardize hrows) (Scaler.length_columnMeans x).symm

/-- Preprocessing by the extremes is a rescaling with positive scales. -/
theorem preprocess_minMax (hrows : x.rows ≠ []) :
    minMax.preprocess x = .ok ((Scaler.minMaxRescaling x hrows).matrix x, some (.fitMinMax x)) :=
  preprocess_of_fit? (fit?_minMax hrows) (by simp [Scaler.width, Scaler.fitMinMax, Scaler.center, Matrix.columns])

end Method

namespace Rescaling

noncomputable def identity : Rescaling := ⟨[], [], rfl, by simp⟩

@[simp] theorem matrix_identity (x : Matrix ℝ) : identity.matrix x = x := by
  have hrow (vs : List ℝ) : identity.row vs = vs := by simp [identity, row, Scaler.scaleRow]
  have hrows : x.rows.map identity.row = x.rows :=
    (List.map_congr_left fun vs _ => hrow vs).trans (List.map_id _)
  simp only [matrix, Matrix.mapRows, hrows]

/-- A matrix with rows is preprocessed by moving it to another scale. -/
theorem exists_preprocess (m : Method) {x : Matrix ℝ} (hrows : x.rows ≠ []) :
    ∃ (r : Rescaling) (s : Option (Scaler ℝ)), m.preprocess x = .ok (r.matrix x, s) := by
  cases m with
  | raw => exact ⟨identity, none, by rw [matrix_identity]; rfl⟩
  | standardize => exact ⟨Scaler.standardRescaling x, some (.fitStandard x), Method.preprocess_standardize hrows⟩
  | minMax => exact ⟨Scaler.minMaxRescaling x hrows, some (.fitMinMax x), Method.preprocess_minMax hrows⟩

end Rescaling

end PackageTriage
