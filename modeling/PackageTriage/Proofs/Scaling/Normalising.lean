import PackageTriage.Proofs.Scaling.Checked

/-!
# Normalised columns

In exact arithmetic a scaler normalises the matrix that it was fitted on. The extremes take every column onto the
interval from zero to one, from its lower end on, and to its upper end unless the column is constant. Standardizing
gives every column the mean zero, and squares that come to as many as there are rows unless the column is constant.
Either way the scales are positive, and a column is moved by a strictly increasing map that can be undone.
-/

namespace PackageTriage

open Statistics

namespace Statistics

def Constant (xs : List ℝ) : Prop := ∃ c, ∀ v ∈ xs, v = c

variable {xs : List ℝ}

theorem average_of_constant (h : Constant xs) : ∀ v ∈ xs, v = average xs := by
  obtain ⟨c, hc⟩ := h
  intro v hv
  have hlength : (xs.length : ℝ) ≠ 0 := Nat.cast_ne_zero.2 (List.length_pos_of_mem hv).ne'
  have hsum : xs.sum = xs.length * c := by rw [List.sum_eq_card_nsmul xs c hc, nsmul_eq_mul]
  rw [average, hsum, mul_div_cancel_left₀ c hlength, hc v hv]

/-- A column is constant where its extremes meet. -/
theorem constant_iff_least_eq_greatest (h : xs ≠ []) : Constant xs ↔ least xs = greatest xs := by
  constructor
  · rintro ⟨c, hc⟩
    rw [hc _ (isLeast_least h).1, hc _ (isGreatest_greatest h).1]
  · intro heq
    exact ⟨least xs, fun v hv => le_antisymm (heq ▸ (isGreatest_greatest h).2 hv) ((isLeast_least h).2 hv)⟩

end Statistics

namespace Scaler

theorem usable_of_ne {s : ℝ} (hs : s ≠ 0) : usable s = s := by
  rw [usable, Scalar.same_real, decide_eq_false hs]
  rfl

theorem le_usable (s : ℝ) : s ≤ usable s := by
  by_cases hs : s = 0
  · rw [hs, usable, Scalar.same_real, decide_eq_true rfl]
    exact zero_le_one
  · rw [usable_of_ne hs]

variable {xs : List ℝ} {v : ℝ}

noncomputable def ontoUnit (xs : List ℝ) (v : ℝ) : ℝ := (v - least xs) / usable (greatest xs - least xs)

theorem range_pos (h : xs ≠ []) : 0 < usable (greatest xs - least xs) :=
  usable_pos (sub_nonneg.2 (least_le_greatest h))

/-- Scaled values lie within zero and one. -/
theorem ontoUnit_mem (h : xs ≠ []) (hv : v ∈ xs) : ontoUnit xs v ∈ Set.Icc 0 1 := by
  have hlow : least xs ≤ v := (isLeast_least h).2 hv
  have hhigh : v ≤ greatest xs := (isGreatest_greatest h).2 hv
  have hrange : v - least xs ≤ usable (greatest xs - least xs) := (sub_le_sub_right hhigh _).trans (le_usable _)
  exact ⟨div_nonneg (sub_nonneg.2 hlow) (range_pos h).le, div_le_one_of_le₀ hrange (range_pos h).le⟩

theorem ontoUnit_least (xs : List ℝ) : ontoUnit xs (least xs) = 0 := by rw [ontoUnit, sub_self, zero_div]

/-- The greatest value of a column goes to one, unless all are equal. -/
theorem one_mem_ontoUnit_iff (h : xs ≠ []) : 1 ∈ xs.map (ontoUnit xs) ↔ ¬Constant xs := by
  rw [constant_iff_least_eq_greatest h]
  constructor
  · intro hone heq
    obtain ⟨v, hv, hv1⟩ := List.mem_map.1 hone
    have hleast : v = least xs := le_antisymm (heq ▸ (isGreatest_greatest h).2 hv) ((isLeast_least h).2 hv)
    rw [hleast, ontoUnit_least] at hv1
    exact zero_ne_one hv1
  · intro hne
    have hrange : greatest xs - least xs ≠ 0 := sub_ne_zero.2 (Ne.symm hne)
    refine List.mem_map.2 ⟨greatest xs, (isGreatest_greatest h).1, ?_⟩
    rw [ontoUnit, usable_of_ne hrange, div_self hrange]

/-- The scale of a column that is standardized. -/
noncomputable def deviation (xs : List ℝ) : ℝ := usable (√(variance xs))

noncomputable def standardized (xs : List ℝ) (v : ℝ) : ℝ := (v - average xs) / deviation xs

theorem sum_map_div (f : ℝ → ℝ) (a : ℝ) (xs : List ℝ) : (xs.map fun v => f v / a).sum = (xs.map f).sum / a := by
  simp only [div_eq_mul_inv]
  exact List.sum_map_mul_right xs f a⁻¹

/-- Standardised values add up to zero. -/
theorem sum_standardized (xs : List ℝ) : (xs.map (standardized xs)).sum = 0 := by
  have hsum := sum_map_div (· - average xs) (deviation xs) xs
  rwa [sum_sub_average, zero_div] at hsum

theorem deviation_sq (h : ¬Constant xs) : deviation xs ^ 2 = populationVariance xs ∧ populationVariance xs ≠ 0 := by
  have hne : populationVariance xs ≠ 0 := fun hzero => h ((populationVariance_eq_zero_iff xs).1 hzero)
  have hpos : 0 < populationVariance xs := (populationVariance_nonneg xs).lt_of_ne' hne
  refine ⟨?_, hne⟩
  rw [deviation, variance_eq, usable_of_ne (Real.sqrt_pos.2 hpos).ne', Real.sq_sqrt hpos.le]

/-- The squares of standardised values add up to their number, unless all are equal. -/
theorem sum_sq_standardized (h : ¬Constant xs) : ((xs.map (standardized xs)).map (· ^ 2)).sum = (xs.length : ℝ) := by
  obtain ⟨hsquare, hne⟩ := deviation_sq h
  have hmap : (xs.map (standardized xs)).map (· ^ 2) =
      xs.map fun v => (v - average xs) ^ 2 / populationVariance xs := by
    rw [List.map_map]
    refine List.map_congr_left fun v _ => ?_
    rw [Function.comp_apply, standardized, div_pow, hsquare]
  have hlength : (xs.length : ℝ) ≠ 0 := fun hzero => hne (by rw [populationVariance, hzero, div_zero])
  calc ((xs.map (standardized xs)).map (· ^ 2)).sum
      = squaresAbout (average xs) xs / populationVariance xs := by rw [hmap, sum_map_div, squaresAbout]
    _ = xs.length * populationVariance xs / populationVariance xs := by
        rw [populationVariance, mul_div_cancel₀ _ hlength]
    _ = xs.length := mul_div_cancel_right₀ _ hne

theorem standardized_of_constant (h : Constant xs) (hv : v ∈ xs) : standardized xs v = 0 := by
  rw [standardized, ← average_of_constant h v hv, sub_self, zero_div]

variable {x z : Matrix ℝ} {j : Nat}

theorem columnMeans_eq (x : Matrix ℝ) : columnMeans x = x.columns.map average := by
  have haverage : ∀ column ∈ x.columns, column.sum / (x.height : ℝ) = average column := by
    intro column hcolumn
    obtain ⟨j, hj, rfl⟩ := List.mem_map.1 hcolumn
    rw [average, Matrix.length_column x (List.mem_range.1 hj)]
  rw [columnMeans]
  split
  · refine List.map_congr_left fun column hcolumn => ?_
    rw [laneSum_eq, haverage column hcolumn]
  · rw [Matrix.columnSums_eq, List.map_map]
    exact List.map_congr_left haverage

/-- A function of the columns, taken at one of them. -/
theorem getD_map_columns (f : List ℝ → ℝ) (default : ℝ) (hj : j < x.width) :
    (x.columns.map f).getD j default = f (x.column j) := by
  rw [Matrix.columns, List.map_map, List.getD_eq_getElem _ _ (by simpa using hj)]
  simp

/-- What a scaler makes of a value in the column `j`. -/
noncomputable def move (s : Scaler ℝ) (j : Nat) (v : ℝ) : ℝ := (v - s.center.getD j 0) / s.scale.getD j 1

theorem move_fitMinMax (hj : j < x.width) : (fitMinMax x).move j = ontoUnit (x.column j) := by
  have hscale : (fitMinMax x).scale = x.columns.map fun column => usable (greatest column - least column) := by
    rw [fitMinMax, scale, List.zipWith_map, List.zipWith_self]
  funext v
  rw [move, hscale, getD_map_columns _ _ hj, fitMinMax, center, getD_map_columns _ _ hj, ontoUnit]

theorem move_fitStandard (hj : j < x.width) : (fitStandard x).move j = standardized (x.column j) := by
  funext v
  rw [move, fitStandard, center, scale, columnMeans_eq, getD_map_columns _ _ hj, getD_map_columns _ _ hj]
  rfl

/-- One matrix is another with its columns moved by the centres of a scaler and divided by its scales, which are
positive. A column is moved by a strictly increasing map, which multiplying by the scale and adding the centre undoes,
and single rows are moved likewise. -/
structure Rescales (s : Scaler ℝ) (x z : Matrix ℝ) : Prop where
  width_eq : z.width = x.width
  height_eq : z.height = x.height
  length_center : s.center.length = x.width
  length_scale : s.scale.length = x.width
  scale_pos : ∀ σ ∈ s.scale, 0 < σ
  column_eq : ∀ j < x.width, z.column j = (x.column j).map (s.move j)
  strictMono_move : ∀ j < x.width, StrictMono (s.move j)
  undo_move : ∀ j < x.width, ∀ v, s.move j v * s.scale.getD j 1 + s.center.getD j 0 = v
  transformRow_eq : ∀ row : List ℝ, row.length = x.width → s.transformRow row = .ok (row.mapIdx s.move)

/-- Every column lies between zero and one and reaches zero. It reaches one unless the entries that it comes from are
all the same. -/
structure SpansUnit (x z : Matrix ℝ) : Prop where
  mem_unit : ∀ j < x.width, ∀ v ∈ z.column j, v ∈ Set.Icc 0 1
  zero_mem : ∀ j < x.width, 0 ∈ z.column j
  one_mem_iff : ∀ j < x.width, 1 ∈ z.column j ↔ ¬Constant (x.column j)

/-- Every column has the sum zero, and its squares come to the number of rows. Where the entries that it comes from
are all the same, it is zero throughout. -/
structure Standardizes (x z : Matrix ℝ) : Prop where
  sum_eq : ∀ j < x.width, (z.column j).sum = 0
  sum_sq_eq : ∀ j < x.width, ¬Constant (x.column j) → ((z.column j).map (· ^ 2)).sum = (x.height : ℝ)
  eq_zero : ∀ j < x.width, Constant (x.column j) → ∀ v ∈ z.column j, v = 0

/-- What the extremes' scaler gives spans the unit interval. -/
theorem Rescales.spansUnit (h : (fitMinMax x).Rescales x z) (hrows : x.rows ≠ []) : SpansUnit x z := by
  have hcolumn (j : Nat) (hj : j < x.width) : z.column j = (x.column j).map (ontoUnit (x.column j)) := by
    rw [h.column_eq j hj, move_fitMinMax hj]
  have hne (j : Nat) (hj : j < x.width) : x.column j ≠ [] := Matrix.column_ne_nil hrows hj
  constructor
  · intro j hj v hv
    rw [hcolumn j hj] at hv
    obtain ⟨w, hw, rfl⟩ := List.mem_map.1 hv
    exact ontoUnit_mem (hne j hj) hw
  · intro j hj
    rw [hcolumn j hj]
    exact List.mem_map.2 ⟨least (x.column j), (isLeast_least (hne j hj)).1, ontoUnit_least _⟩
  · intro j hj
    rw [hcolumn j hj]
    exact one_mem_ontoUnit_iff (hne j hj)

/-- What the deviation's scaler gives adds up to zero, and its squares to the number of rows. -/
theorem Rescales.standardizes (h : (fitStandard x).Rescales x z) : Standardizes x z := by
  have hcolumn (j : Nat) (hj : j < x.width) : z.column j = (x.column j).map (standardized (x.column j)) := by
    rw [h.column_eq j hj, move_fitStandard hj]
  constructor
  · intro j hj
    rw [hcolumn j hj]
    exact sum_standardized _
  · intro j hj hconstant
    rw [hcolumn j hj, sum_sq_standardized hconstant, Matrix.length_column x hj]
  · intro j hj hconstant v hv
    rw [hcolumn j hj] at hv
    obtain ⟨w, hw, rfl⟩ := List.mem_map.1 hv
    exact standardized_of_constant hconstant hw

end Scaler

namespace Rescaling

variable {r : Rescaling} {x : Matrix ℝ} {s : Scaler ℝ}

theorem column_matrix {j : Nat} (hj : j < x.width) : (r.matrix x).column j = (x.column j).map (r.value j) := by
  rw [Matrix.column_eq_map 0 (x := r.matrix x) hj, Matrix.column_eq_map 0 hj, matrix, Matrix.mapRows, List.map_map,
    List.map_map]
  refine List.map_congr_left fun row hrow => ?_
  exact r.getD_row ((x.rows_width row hrow).symm ▸ hj)

theorem row_eq_mapIdx (r : Rescaling) (row : List ℝ) : r.row row = row.mapIdx r.value := by
  refine List.ext_getElem (by simp [length_row]) fun j hj hj' => ?_
  have hlt : j < row.length := r.length_row row ▸ hj
  have hvalue := r.getD_row hlt
  rw [List.getD_eq_getElem _ _ hj, List.getD_eq_getElem _ _ hlt] at hvalue
  rw [hvalue, List.getElem_mapIdx]

/-- A scaler with the centres and scales of a rescaling moves every column as the rescaling does. -/
theorem rescales_matrix (hcenter : s.center = r.center) (hscale : s.scale = r.scale)
    (hwidth : r.center.length = x.width) : s.Rescales x (r.matrix x) := by
  have hmove : s.move = r.value := by
    funext j v
    rw [Scaler.move, hcenter, hscale, value]
  constructor
  · rfl
  · exact List.length_map _
  · rw [hcenter, hwidth]
  · rw [hscale, r.length_scale, hwidth]
  · rw [hscale]
    exact r.scale_pos
  · intro j hj
    rw [hmove, column_matrix hj]
  · intro j _
    rw [hmove]
    exact strictMono_of_le_iff_le fun v w => value_le_value.symm
  · intro j _ v
    rw [hmove, hcenter, hscale, value, div_mul_cancel₀ _ (r.getD_scale_pos j).ne', sub_add_cancel]
  · intro row hrow
    have hfits : row.length = s.width := by rw [Scaler.width, hcenter, hwidth, hrow]
    rw [Scaler.transformRow, Scaler.checkWidth, if_pos hfits, hmove, ← row_eq_mapIdx, hcenter, hscale]
    rfl

end Rescaling

namespace Method

/-- The two methods that fit a scaler normalise any matrix with rows, and no method divides by zero. -/
theorem preprocess_normalises {x : Matrix ℝ} (hrows : x.rows ≠ []) :
    (∃ z s, minMax.preprocess x = .ok (z, some s) ∧ s.Rescales x z ∧ Scaler.SpansUnit x z) ∧
      (∃ z s, standardize.preprocess x = .ok (z, some s) ∧ s.Rescales x z ∧ Scaler.Standardizes x z) ∧
      ∀ m : Method, m.preprocess (x.map Checked.value) =
        (m.preprocess x).map (Prod.map (Matrix.map Checked.value) (Option.map (Scaler.map Checked.value))) := by
  have hminMax : (Scaler.fitMinMax x).Rescales x ((Scaler.minMaxRescaling x hrows).matrix x) := by
    refine Rescaling.rescales_matrix rfl rfl ?_
    simp [Scaler.minMaxRescaling, Scaler.fitMinMax, Scaler.center, Matrix.columns]
  have hstandard : (Scaler.fitStandard x).Rescales x ((Scaler.standardRescaling x).matrix x) :=
    Rescaling.rescales_matrix rfl rfl (Scaler.length_columnMeans x)
  exact ⟨⟨_, _, preprocess_minMax hrows, hminMax, hminMax.spansUnit hrows⟩,
    ⟨_, _, preprocess_standardize hrows, hstandard, hstandard.standardizes⟩,
    fun m => m.preprocess_value hrows⟩

noncomputable def twoRows : Matrix ℝ := ⟨2, [[1, 5], [3, 5]], by simp⟩

theorem preprocess_normalises_twoRows : twoRows.rows ≠ [] ∧
    (∃ z s, minMax.preprocess twoRows = .ok (z, some s) ∧ 1 ∈ z.column 0 ∧ 1 ∉ z.column 1) ∧
      ∃ z s, standardize.preprocess twoRows = .ok (z, some s) ∧
        ((z.column 0).map (· ^ 2)).sum = (2 : ℝ) ∧ ∀ v ∈ z.column 1, v = 0 := by
  have hrows : twoRows.rows ≠ [] := List.cons_ne_nil _ _
  have hvaries : ¬Constant (twoRows.column 0) := by
    rintro ⟨c, hc⟩
    have hone : (1 : ℝ) = c := hc 1 (by simp [twoRows, Matrix.column])
    have hthree : (3 : ℝ) = c := hc 3 (by simp [twoRows, Matrix.column])
    rw [← hone] at hthree
    norm_num at hthree
  have hconstant : Constant (twoRows.column 1) := ⟨5, by simp [twoRows, Matrix.column]⟩
  obtain ⟨⟨z, s, hminMax, -, hspans⟩, ⟨z', s', hstandard, -, hstandardizes⟩, -⟩ := preprocess_normalises hrows
  refine ⟨hrows, ⟨z, s, hminMax, ?_, ?_⟩, z', s', hstandard, ?_, ?_⟩
  · exact (hspans.one_mem_iff 0 Nat.two_pos).2 hvaries
  · exact fun hone => (hspans.one_mem_iff 1 Nat.one_lt_two).1 hone hconstant
  · exact hstandardizes.sum_sq_eq 0 Nat.two_pos hvaries
  · exact hstandardizes.eq_zero 1 Nat.one_lt_two hconstant

end Method

end PackageTriage
