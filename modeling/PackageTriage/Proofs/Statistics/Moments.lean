import PackageTriage.Statistics
import PackageTriage.Proofs.Scalar.Reals

/-!
# Mean and variance in one pass

In exact arithmetic the mean and the sum of squared distances that every element brings up to date are those of all
elements so far. So one pass finds what two passes find, one for the mean and one for the distances from it, and
neither depends on the order of the elements.
-/

namespace PackageTriage.Statistics

noncomputable def average (xs : List ℝ) : ℝ := xs.sum / xs.length

/-- The sum of the squared distances from a point. -/
noncomputable def squaresAbout (a : ℝ) (xs : List ℝ) : ℝ := (xs.map fun v => (v - a) ^ 2).sum

noncomputable def populationVariance (xs : List ℝ) : ℝ := squaresAbout (average xs) xs / xs.length

theorem length_mul_average (xs : List ℝ) : xs.length * average xs = xs.sum := by
  cases xs with
  | nil => simp
  | cons x xs => exact mul_div_cancel₀ _ (Nat.cast_ne_zero.2 xs.length.succ_ne_zero)

/-- The distances from the mean cancel. -/
theorem sum_sub_average (xs : List ℝ) : (xs.map (· - average xs)).sum = 0 := by
  have hsum (a : ℝ) : (xs.map (· - a)).sum = xs.sum - xs.length * a := by
    induction xs with
    | nil => simp
    | cons x xs ih =>
      rw [List.map_cons, List.sum_cons, ih, List.sum_cons, List.length_cons]
      push_cast
      ring
  rw [hsum, length_mul_average, sub_self]

/-- Away from the mean the squared distances grow with the square of the distance to it. -/
theorem squaresAbout_eq (a : ℝ) (xs : List ℝ) :
    squaresAbout a xs = squaresAbout (average xs) xs + xs.length * (average xs - a) ^ 2 := by
  have hexpand (m : ℝ) : squaresAbout a xs =
      squaresAbout m xs + 2 * (m - a) * (xs.map (· - m)).sum + xs.length * (m - a) ^ 2 := by
    induction xs with
    | nil => simp [squaresAbout]
    | cons x xs ih =>
      simp only [squaresAbout, List.map_cons, List.sum_cons, List.length_cons] at ih ⊢
      rw [ih]
      push_cast
      ring
  rw [hexpand (average xs), sum_sub_average]
  ring

theorem squaresAbout_nonneg (a : ℝ) (xs : List ℝ) : 0 ≤ squaresAbout a xs :=
  List.sum_nonneg (by simpa using fun v _ => sq_nonneg (v - a))

theorem average_perm {xs ys : List ℝ} (h : xs.Perm ys) : average xs = average ys := by
  rw [average, average, h.sum_eq, h.length_eq]

theorem populationVariance_perm {xs ys : List ℝ} (h : xs.Perm ys) : populationVariance xs = populationVariance ys := by
  rw [populationVariance, populationVariance, average_perm h, squaresAbout, squaresAbout, (h.map _).sum_eq, h.length_eq]

theorem populationVariance_nonneg (xs : List ℝ) : 0 ≤ populationVariance xs :=
  div_nonneg (squaresAbout_nonneg _ xs) xs.length.cast_nonneg

/-- What has no variance is constant. -/
theorem populationVariance_eq_zero_iff (xs : List ℝ) : populationVariance xs = 0 ↔ ∃ c, ∀ v ∈ xs, v = c := by
  constructor
  · intro h
    refine ⟨average xs, fun v hv => ?_⟩
    have hlength : (xs.length : ℝ) ≠ 0 := Nat.cast_ne_zero.2 (List.length_pos_of_mem hv).ne'
    have hsquares : squaresAbout (average xs) xs = 0 := (div_eq_zero_iff.1 h).resolve_right hlength
    have hsquare : (v - average xs) ^ 2 = 0 := List.all_zero_of_le_zero_le_of_sum_eq_zero
      (by simpa using fun w _ => sq_nonneg (w - average xs)) hsquares (List.mem_map_of_mem hv)
    exact sub_eq_zero.1 (eq_zero_of_pow_eq_zero hsquare)
  · rintro ⟨c, hc⟩
    have hsquares : squaresAbout c xs = 0 := by
      refine List.sum_eq_zero fun s hs => ?_
      obtain ⟨v, hv, rfl⟩ := List.mem_map.1 hs
      rw [hc v hv, sub_self, zero_pow two_ne_zero]
    have hle : squaresAbout (average xs) xs ≤ 0 := by
      rw [← hsquares, squaresAbout_eq c]
      exact le_add_of_nonneg_right (mul_nonneg xs.length.cast_nonneg (sq_nonneg _))
    rw [populationVariance, le_antisymm hle (squaresAbout_nonneg _ xs), zero_div]

namespace Spread

noncomputable def twoPass (xs : List ℝ) : Spread ℝ := ⟨xs.length, average xs, squaresAbout (average xs) xs⟩

variable {accumulate : ℝ → ℝ → ℝ → ℝ} (haccumulate : ∀ a b c, accumulate a b c = a * b + c)

include haccumulate

/-- One more element makes the spread that of one element more. -/
theorem add_twoPass (xs : List ℝ) (x : ℝ) : (twoPass xs).add accumulate x = twoPass (xs ++ [x]) := by
  have hlength : ((xs.length + 1 : Nat) : ℝ) ≠ 0 := Nat.cast_ne_zero.2 xs.length.succ_ne_zero
  have hmean : average xs + (x - average xs) / ((xs.length + 1 : Nat) : ℝ) = average (xs ++ [x]) := by
    rw [average.eq_def (xs ++ [x]), List.sum_append, List.sum_singleton, ← length_mul_average, List.length_append,
      List.length_singleton]
    field_simp
    push_cast
    ring
  have hsquares : (x - average (xs ++ [x])) * (x - average xs) + squaresAbout (average xs) xs =
      squaresAbout (average (xs ++ [x])) (xs ++ [x]) := by
    have happend : squaresAbout (average (xs ++ [x])) (xs ++ [x]) =
        squaresAbout (average (xs ++ [x])) xs + (x - average (xs ++ [x])) ^ 2 := by
      simp [squaresAbout]
    rw [happend, squaresAbout_eq (average (xs ++ [x])) xs, ← hmean]
    field_simp
    push_cast
    ring
  rw [add, twoPass, twoPass, hmean, haccumulate, hsquares, List.length_append, List.length_singleton]

theorem foldl_add (xs : List ℝ) : xs.foldl (add accumulate) initial = twoPass xs := by
  induction xs using List.reverseRecOn with
  | nil => simp [twoPass, average, squaresAbout, initial]
  | append_singleton xs x ih => rw [List.foldl_concat, ih, add_twoPass haccumulate]

omit haccumulate

/-- The single pass finds what the two-pass definition finds. -/
theorem ofList_eq (xs : List ℝ) : ofList xs = twoPass xs := foldl_add (fun _ _ _ => rfl) xs

theorem ofListRounded_eq (xs : List ℝ) : ofListRounded xs = twoPass xs :=
  foldl_add (fun a b c => by rw [add_comm, mul_comm]) xs

end Spread

theorem variance_eq (xs : List ℝ) : variance xs = populationVariance xs := by
  rw [variance, Spread.ofList_eq]
  rfl

end PackageTriage.Statistics
