import PackageTriage.Random.Subset
import Mathlib

/-!
# What a draw can give

Shuffling keeps the entries, and every number drawn lies in the range that was asked for, whatever words
the generator gives. A bound on the trials does no harm to this: what a draw gives up with is in range too.
-/

namespace PackageTriage.Generator

variable {σ β : Type}

section

variable [Generator σ]

theorem swapIfInBounds_perm (xs : Array β) (i j : Nat) :
    (xs.swapIfInBounds i j).toList.Perm xs.toList := by
  by_cases hi : i < xs.size
  · by_cases hj : j < xs.size
    · simpa [Array.swapIfInBounds, hi, hj] using (Array.swap_perm hi hj).toList
    · simp [Array.swapIfInBounds, hj]
  · simp [Array.swapIfInBounds, hi]

theorem shuffleFrom_perm (i : Nat) (xs : Array β) (g : σ) :
    (shuffleFrom i xs g).1.toList.Perm xs.toList := by
  induction i generalizing xs g with
  | zero => exact List.Perm.refl _
  | succ i ih => exact (ih _ _).trans (swapIfInBounds_perm _ _ _)

/-- Shuffling keeps the entries. -/
theorem shuffle_perm (xs : List β) (g : σ) : (shuffle xs g).1.Perm xs := by
  simpa [shuffle] using shuffleFrom_perm (xs.length - 1) xs.toArray g

/-- Every group is shuffled within itself. -/
theorem shuffleEach_perm (groups : List (List β)) (g : σ) :
    List.Forall₂ List.Perm (shuffleEach groups g).1 groups := by
  induction groups generalizing g with
  | nil => exact .nil
  | cons xs rest ih => exact .cons (shuffle_perm xs g) (ih _)

end

/-- The high half of a word times `n` is below `n`. -/
theorem belowIn_lt {bits zone n : Nat} {word : σ → Nat × σ} (hword : ∀ g, (word g).1 < 2 ^ bits)
    (hn : 0 < n) (trials : Nat) (g : σ) : (belowIn bits word zone n trials g).1 < n := by
  induction trials generalizing g with
  | zero => exact hn
  | succ trials ih =>
    rw [belowIn]
    dsimp only
    split
    · exact Nat.div_lt_of_lt_mul (Nat.mul_lt_mul_of_pos_right (hword g) hn)
    · exact ih _

theorem below_lt [Generator σ] {n : Nat} (hn : 0 < n) (g : σ) : (below n g).1 < n :=
  belowIn_lt (fun g => (word64 g).1.toNat_lt) hn _ g

theorem below32_lt [Generator σ] {n : Nat} (hn : 0 < n) (g : σ) : (below32 n g).1 < n :=
  belowIn_lt (fun g => (word32 g).1.toNat_lt) hn _ g

theorem length_draws (draw : σ → β × σ) (n : Nat) (g : σ) : (draws draw n g).1.length = n := by
  induction n generalizing g with
  | zero => rfl
  | succ n ih => simp [draws, ih]

/-- What holds of every draw holds of several. -/
theorem forall_mem_draws {P : β → Prop} {draw : σ → β × σ} (h : ∀ g, P (draw g).1) (n : Nat) (g : σ) :
    ∀ b ∈ (draws draw n g).1, P b := by
  induction n generalizing g with
  | zero => simp [draws]
  | succ n ih =>
    intro b hb
    rcases List.mem_cons.1 hb with rfl | hb
    · exact h g
    · exact ih _ b hb

variable [Generator σ]

theorem exchangeFrom_perm (k i : Nat) (xs : Array Nat) (g : σ) :
    (exchangeFrom k i xs g).1.toList.Perm xs.toList := by
  induction k generalizing i xs g with
  | zero => exact .refl _
  | succ k ih => exact (ih _ _ _).trans (swapIfInBounds_perm _ _ _)

theorem subsetByExchange_lt (n k : Nat) (g : σ) : ∀ i ∈ (subsetByExchange n k g).1, i < n := by
  intro i hi
  have htake : i ∈ ((exchangeFrom k 0 (Array.range n) g).1.take k).toList := hi
  rw [Array.take_eq_extract, Array.toList_extract] at htake
  have hall := (exchangeFrom_perm k 0 (Array.range n) g).mem_iff.1 (List.mem_of_mem_take htake)
  simpa using hall

/-- Up to `j + k` the walk puts in numbers below it. -/
theorem walkFrom_lt {n : Nat} (keepOrder : Bool) (k j : Nat) (xs : List Nat) (g : σ)
    (hxs : ∀ i ∈ xs, i < n) (hj : j + k ≤ n) : ∀ i ∈ (walkFrom keepOrder k j xs g).1, i < n := by
  induction k generalizing j xs g with
  | zero => exact hxs
  | succ k ih =>
    have hdrawn : (below32 (j + 1) g).1 < j + 1 := below32_lt (Nat.succ_pos j) g
    rw [walkFrom]
    dsimp only
    refine ih _ _ _ ?_ (by omega)
    intro i hi
    split at hi
    · next p hp =>
      split at hi
      · rcases List.eq_or_mem_of_mem_insertIdx hi with rfl | hi
        · omega
        · exact hxs i hi
      · rcases List.mem_append.1 hi with hi | hi
        · exact hxs i hi
        · rw [List.mem_singleton.1 hi]
          omega
    · rcases List.mem_append.1 hi with hi | hi
      · exact hxs i hi
      · rw [List.mem_singleton.1 hi]
        omega

theorem subsetByWalk_lt {n k : Nat} (hk : k ≤ n) (g : σ) : ∀ i ∈ (subsetByWalk n k g).1, i < n := by
  have hwalk : ∀ keepOrder, ∀ i ∈ (walkFrom keepOrder k (n - k) [] g).1, i < n :=
    fun keepOrder => walkFrom_lt keepOrder k (n - k) [] g (by simp) (by omega)
  rw [subsetByWalk]
  split
  · exact hwalk true
  · intro i hi
    exact hwalk false i ((shuffle_perm _ _).mem_iff.1 hi)

theorem rejectFrom_lt {n : Nat} (hn : 0 < n) (trials k : Nat) (xs : List Nat) (g : σ)
    (hxs : ∀ i ∈ xs, i < n) : ∀ i ∈ (rejectFrom n trials k xs g).1, i < n := by
  induction trials generalizing k xs g with
  | zero => simpa [rejectFrom] using hxs
  | succ trials ih =>
    cases k with
    | zero => simpa [rejectFrom] using hxs
    | succ k =>
      rw [rejectFrom]
      dsimp only
      split
      · exact ih _ _ _ hxs
      · refine ih _ _ _ fun i hi => ?_
        rcases List.mem_append.1 hi with hi | hi
        · exact hxs i hi
        · rw [List.mem_singleton.1 hi]
          exact belowIn_lt (fun g => (word32 g).1.toNat_lt) hn _ g

/-- A subset is drawn from the numbers below `n`, in whichever way. -/
theorem subset_lt {n k : Nat} (hn : 0 < n) (hk : k ≤ n) (g : σ) : ∀ i ∈ (subset n k g).1, i < n := by
  rw [subset]
  split
  · split
    · exact subsetByExchange_lt n k g
    · exact subsetByWalk_lt hk g
  · split
    · exact subsetByExchange_lt n k g
    · exact rejectFrom_lt hn _ _ _ _ (by simp)

end PackageTriage.Generator
