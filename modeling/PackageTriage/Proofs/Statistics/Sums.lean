import PackageTriage.Matrix
import PackageTriage.Proofs.Selection
import PackageTriage.Proofs.Statistics.Moments

/-!
# Sums in exact arithmetic

Where nothing is rounded it does not matter in which order a sequence is summed. The eight interleaved partial sums add
up to the sum, and adding rows to each other gives the sums of the columns.
-/

namespace PackageTriage

namespace Statistics

theorem foldl_add_eq (a : ℝ) (xs : List ℝ) : xs.foldl (· + ·) a = a + xs.sum := by
  induction xs generalizing a with
  | nil => simp
  | cons x xs ih => rw [List.foldl_cons, ih, List.sum_cons, add_assoc]

theorem joinLanes_real (partials : List ℝ) : joinLanes partials = partials.sum := by
  unfold joinLanes
  split
  · simp only [List.sum_cons, List.sum_nil]
    ring
  · exact Scalar.sum_real _

/-- Adding a block to the partial sums keeps what all of them and the rest come to. -/
theorem sum_lanes {partials : List ℝ} (hlength : partials.length = 8) (xs : List ℝ) :
    (lanes partials xs).1.sum + (lanes partials xs).2.sum = partials.sum + xs.sum := by
  fun_induction lanes partials xs with
  | case1 partials a b c d e f g h rest ih =>
    have hblock : partials.sum + [a, b, c, d, e, f, g, h].sum = (addLanes partials [a, b, c, d, e, f, g, h]).sum :=
      List.sum_add_sum_eq_sum_zipWith_of_length_eq _ _ hlength
    rw [ih (by simp [addLanes, hlength]), ← hblock]
    simp only [List.sum_cons, List.sum_nil]
    ring
  | case2 => rfl

theorem laneSum_eq (xs : List ℝ) : laneSum xs = xs.sum := by
  have hsum := sum_lanes (List.length_replicate (n := 8) (a := 0)) xs
  show (lanes (List.replicate 8 0) xs).2.foldl (· + ·) (joinLanes (lanes (List.replicate 8 0) xs).1) = xs.sum
  rw [foldl_add_eq, joinLanes_real, hsum]
  simp

end Statistics

namespace Matrix

theorem getD_zipWith_add {r s : List ℝ} (hlength : r.length = s.length) (j : Nat) :
    (List.zipWith (· + ·) r s).getD j 0 = r.getD j 0 + s.getD j 0 := by
  induction r generalizing s j with
  | nil => simp [List.length_eq_zero_iff.1 hlength.symm]
  | cons v r ih =>
    match s, hlength with
    | w :: s, hlength =>
      cases j with
      | zero => rfl
      | succ j => exact ih (Nat.succ.inj hlength) j

/-- Rows added to a row of the same width add up place by place. -/
theorem foldl_zipWith_add {rows : List (List ℝ)} {start : List ℝ} (hrows : ∀ r ∈ rows, r.length = start.length) :
    rows.foldl (List.zipWith (· + ·)) start =
      (List.range start.length).map fun j => start.getD j 0 + (rows.map (·.getD j 0)).sum := by
  induction rows generalizing start with
  | nil => simp only [List.map_nil, List.sum_nil, add_zero, List.foldl_nil, map_getD_range]
  | cons r rows ih =>
    have hr : start.length = r.length := (hrows r List.mem_cons_self).symm
    have hlength : (List.zipWith (· + ·) start r).length = start.length := by
      rw [List.length_zipWith, ← hr, Nat.min_self]
    rw [List.foldl_cons, ih fun s hs => hlength ▸ hrows s (List.mem_cons_of_mem r hs), hlength]
    refine List.map_congr_left fun j _ => ?_
    rw [getD_zipWith_add hr, List.map_cons, List.sum_cons, add_assoc]

theorem length_column (x : Matrix ℝ) {j : Nat} (hj : j < x.width) : (x.column j).length = x.height := by
  rw [column_eq_map 0 hj, List.length_map, height]

theorem columnSums_eq (x : Matrix ℝ) : x.columnSums = x.columns.map List.sum := by
  have hrows : ∀ r ∈ x.rows, r.length = (List.replicate x.width (0 : ℝ)).length := fun r hr => by
    rw [List.length_replicate, x.rows_width r hr]
  rw [columnSums, foldl_zipWith_add hrows, List.length_replicate, columns, List.map_map]
  refine List.map_congr_left fun j hj => ?_
  rw [Function.comp_apply, column_eq_map 0 (List.mem_range.1 hj)]
  simp

end Matrix

end PackageTriage
