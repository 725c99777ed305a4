import PackageTriage.Network.Layer
import PackageTriage.Proofs.Statistics.Sums

/-!
# Entries of matrices

In exact arithmetic the products of matrices are those of linear algebra: each of their entries is a sum over the
places that the factors share.
-/

namespace PackageTriage

open Finset

theorem sum_map_range (f : ℕ → ℝ) (n : ℕ) : ((List.range n).map f).sum = ∑ i ∈ range n, f i := by
  induction n with
  | zero => rfl
  | succ n ih => rw [List.sum_range_succ, ih, Finset.sum_range_succ]

theorem sum_eq_sum_getD (xs : List ℝ) : xs.sum = ∑ i ∈ range xs.length, xs.getD i 0 := by
  rw [← sum_map_range, map_getD_range]

theorem sum_map_eq_sum_getD {β : Type} (f : β → ℝ) (xs : List β) (default : β) :
    (xs.map f).sum = ∑ i ∈ range xs.length, f (xs.getD i default) := by
  rw [← sum_map_range]
  conv_lhs => rw [← map_getD_range xs default, List.map_map]
  rfl

theorem getD_map_of_lt {β γ : Type} (f : β → γ) {xs : List β} {i : ℕ} (hi : i < xs.length) (a : β) (b : γ) :
    (xs.map f).getD i b = f (xs.getD i a) := by
  simp [hi]

theorem getD_zipWith {β γ δ : Type} (f : β → γ → δ) {xs : List β} {ys : List γ} {i : ℕ} (hx : i < xs.length)
    (hy : i < ys.length) (a : β) (b : γ) (c : δ) :
    (List.zipWith f xs ys).getD i c = f (xs.getD i a) (ys.getD i b) := by
  simp [hx, hy]

theorem sum_zipWith {β γ : Type} (f : β → γ → ℝ) {xs : List β} {ys : List γ} (hlength : xs.length = ys.length) (a : β)
    (b : γ) : (List.zipWith f xs ys).sum = ∑ i ∈ range xs.length, f (xs.getD i a) (ys.getD i b) := by
  rw [sum_eq_sum_getD, List.length_zipWith, ← hlength, min_self]
  refine Finset.sum_congr rfl fun i hi => getD_zipWith f (mem_range.1 hi) ?_ a b 0
  rw [← hlength]
  exact mem_range.1 hi

theorem dot_eq_sum {xs ys : List ℝ} (hlength : xs.length = ys.length) :
    Scalar.dot xs ys = ∑ i ∈ range xs.length, xs.getD i 0 * ys.getD i 0 := by
  rw [Scalar.dot, Scalar.sum_real, sum_zipWith _ hlength]

namespace Matrix

/-- The entry of a row in a column, zero if there is none. -/
def entry (x : Matrix ℝ) (i j : ℕ) : ℝ := (x.rows.getD i []).getD j 0

variable {x y : Matrix ℝ} {i j : ℕ}

theorem length_row (hi : i < x.height) : (x.rows.getD i []).length = x.width := by
  rw [List.getD_eq_getElem _ _ hi]
  exact x.rows_width _ (List.getElem_mem hi)

theorem entry_mem_entries (hi : i < x.height) (hj : j < x.width) : x.entry i j ∈ x.entries := by
  have hlt : j < (x.rows.getD i []).length := (length_row hi).symm ▸ hj
  rw [entry, List.getD_eq_getElem _ _ hlt]
  refine List.mem_flatten.2 ⟨_, ?_, List.getElem_mem hlt⟩
  rw [List.getD_eq_getElem _ _ hi]
  exact List.getElem_mem hi

/-- The entries add up row after row. -/
theorem sum_entries (x : Matrix ℝ) : x.entries.sum = ∑ i ∈ range x.height, ∑ j ∈ range x.width, x.entry i j := by
  rw [entries, List.sum_flatten, sum_map_eq_sum_getD List.sum x.rows []]
  refine Finset.sum_congr rfl fun i hi => ?_
  rw [sum_eq_sum_getD, length_row (mem_range.1 hi)]
  rfl

@[simp] theorem height_map (f : ℝ → ℝ) (x : Matrix ℝ) : (x.map f).height = x.height := List.length_map ..

@[simp] theorem width_map (f : ℝ → ℝ) (x : Matrix ℝ) : (x.map f).width = x.width := rfl

theorem entry_map (f : ℝ → ℝ) (hi : i < x.height) (hj : j < x.width) : (x.map f).entry i j = f (x.entry i j) := by
  rw [entry, map, getD_map_of_lt _ hi [], getD_map_of_lt f ((length_row hi).symm ▸ hj) 0, entry]

theorem height_zip (f : ℝ → ℝ → ℝ) (h : y.height = x.height) : (x.zip f y).height = x.height := by
  rw [height, zip, List.length_zipWith]
  exact min_eq_left h.ge

theorem width_zip (f : ℝ → ℝ → ℝ) (h : y.width = x.width) : (x.zip f y).width = x.width := min_eq_left h.ge

theorem entry_zip (f : ℝ → ℝ → ℝ) (hx : i < x.height) (hy : i < y.height) (hxj : j < x.width) (hyj : j < y.width) :
    (x.zip f y).entry i j = f (x.entry i j) (y.entry i j) := by
  rw [entry, zip, getD_zipWith _ hx hy [] [], getD_zipWith f ((length_row hx).symm ▸ hxj)
    ((length_row hy).symm ▸ hyj) 0 0 0, entry, entry]

theorem getD_combineFrom {start : List ℝ} {cs : List ℝ} {rows : List (List ℝ)}
    (hrows : ∀ r ∈ rows, r.length = start.length) (hj : j < start.length) :
    (combineFrom start cs rows).getD j 0 =
      start.getD j 0 + (List.zipWith (fun c r => c * List.getD r j 0) cs rows).sum := by
  induction cs generalizing start rows with
  | nil => simp [combineFrom]
  | cons c cs ih =>
    cases rows with
    | nil => simp [combineFrom]
    | cons r rows =>
      have hr : r.length = start.length := hrows r List.mem_cons_self
      have hlength : (List.zipWith (fun s v => s + c * v) start r).length = start.length := by
        rw [List.length_zipWith, hr, min_self]
      rw [combineFrom, ih (fun s hs => hlength.symm ▸ hrows s (List.mem_cons_of_mem r hs)) (hlength.symm ▸ hj),
        getD_zipWith _ hj (hr.symm ▸ hj) 0 0 0, List.zipWith_cons_cons, List.sum_cons, add_assoc]

/-- A combination of rows, place by place. -/
theorem getD_combine {cs : List ℝ} (hlength : cs.length = x.height) (hj : j < x.width) :
    (x.combine cs).getD j 0 = ∑ k ∈ range x.height, cs.getD k 0 * x.entry k j := by
  have hstart : (List.replicate x.width (0 : ℝ)).getD j 0 = 0 := by simp [hj]
  rw [combine, getD_combineFrom (fun r hr => by rw [x.rows_width r hr, List.length_replicate]) (by simpa using hj),
    hstart, zero_add, sum_zipWith _ hlength 0 [], hlength]
  rfl

/-- The product of two matrices, entry by entry. -/
theorem entry_mul (h : x.width = y.height) (hi : i < x.height) (hj : j < y.width) :
    (x.mul y).entry i j = ∑ k ∈ range x.width, x.entry i k * y.entry k j := by
  rw [entry, mul, combinations, getD_map_of_lt _ hi [], getD_combine ((length_row hi).trans h) hj, h]
  rfl

theorem getD_columns (hi : i < x.width) : x.columns.getD i [] = x.rows.map (·.getD i 0) := by
  have hlt : i < x.columns.length := by simpa [columns] using hi
  rw [List.getD_eq_getElem _ _ hlt, ← column_eq_map 0 hi]
  simp [columns]

/-- The product with a transpose in front, from which a layer has its gradient. -/
theorem entry_transposeMul (h : x.height = y.height) (hi : i < x.width) (hj : j < y.width) :
    (x.transposeMul y).entry i j = ∑ k ∈ range x.height, x.entry k i * y.entry k j := by
  have hcolumns : i < x.columns.length := by simpa [columns] using hi
  rw [entry, transposeMul, combinations, getD_map_of_lt _ hcolumns [], getD_columns hi,
    getD_combine (by rw [List.length_map]; exact h) hj, h]
  refine Finset.sum_congr rfl fun k hk => ?_
  have hlt : k < x.rows.length := h.trans_gt (mem_range.1 hk)
  simp [entry, hlt]

@[simp] theorem height_mulTranspose (x y : Matrix ℝ) : (x.mulTranspose y).height = x.height := List.length_map ..

@[simp] theorem width_mulTranspose (x y : Matrix ℝ) : (x.mulTranspose y).width = y.height := rfl

/-- The product with a transpose behind, which carries errors back through a layer. -/
theorem entry_mulTranspose (h : x.width = y.width) (hi : i < x.height) (hj : j < y.height) :
    (x.mulTranspose y).entry i j = ∑ k ∈ range x.width, x.entry i k * y.entry j k := by
  rw [entry, mulTranspose, getD_map_of_lt _ hi [], getD_map_of_lt _ hj [],
    dot_eq_sum ((length_row hi).trans (h.trans (length_row hj).symm)), length_row hi]
  rfl

theorem getD_columnSums (hj : j < x.width) : x.columnSums.getD j 0 = ∑ i ∈ range x.height, x.entry i j := by
  have hlt : j < (x.columns.map List.sum).length := by simpa [columns] using hj
  rw [columnSums_eq, List.getD_eq_getElem _ _ hlt, List.getElem_map, ← List.getD_eq_getElem _ [], getD_columns hj,
    sum_map_eq_sum_getD _ _ []]
  rfl

end Matrix

theorem getD_addTo {bs vs : List ℝ} {j : ℕ} (hj : j < vs.length) (hlength : bs.length = vs.length) :
    (addTo bs vs).getD j 0 = vs.getD j 0 + bs.getD j 0 := by
  induction bs generalizing vs j with
  | nil => exact absurd hj (by simp [← hlength])
  | cons b bs ih =>
    obtain ⟨v, vs, rfl⟩ := List.exists_cons_of_length_eq_add_one hlength.symm
    cases j with
    | zero => rfl
    | succ j => exact ih (Nat.lt_of_succ_lt_succ hj) (Nat.succ.inj hlength)

namespace Layer

variable {l : Layer ℝ} {x : Matrix ℝ} {i j : ℕ}

@[simp] theorem width_inputs (l : Layer ℝ) (x : Matrix ℝ) : (l.inputs x).width = l.weights.width := rfl

/-- What a layer makes of a row: a weighted sum for each unit, and its bias. -/
theorem entry_inputs (hx : x.width = l.weights.height) (hbias : l.bias.length = l.weights.width) (hi : i < x.height)
    (hj : j < l.weights.width) : (l.inputs x).entry i j =
      ∑ k ∈ range x.width, x.entry i k * l.weights.entry k j + l.bias.getD j 0 := by
  have hrow : i < (x.mul l.weights).rows.length := by
    simp only [Matrix.mul, Matrix.combinations, List.length_map]
    exact hi
  have hlength : ((x.mul l.weights).rows.getD i []).length = l.weights.width := Matrix.length_row hrow
  rw [← Matrix.entry_mul hx hi hj, Matrix.entry, inputs, Matrix.mapRows, getD_map_of_lt _ hrow [],
    getD_addTo (hlength.symm ▸ hj) (hbias.trans hlength.symm)]
  rfl

end Layer

end PackageTriage
