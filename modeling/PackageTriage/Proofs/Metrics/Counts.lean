import PackageTriage.Metrics.Confusion
import Mathlib.Algebra.BigOperators.Group.List.Basic

/-!
# Counts add up

Confusion counts are sums over samples, so neither the order of the samples nor their division into
parts matters to them.
-/

namespace PackageTriage.Confusion

instance : Zero Confusion := ⟨zero⟩

theorem zero_def : (0 : Confusion) = ⟨0, 0, 0, 0⟩ := rfl

theorem add_def (a b : Confusion) : a + b = ⟨a.truePositive + b.truePositive,
    a.falsePositive + b.falsePositive, a.trueNegative + b.trueNegative,
    a.falseNegative + b.falseNegative⟩ := rfl

instance : AddCommMonoid Confusion where
  zero_add a := by simp [zero_def, add_def]
  add_zero a := by simp [zero_def, add_def]
  add_assoc a b c := by simp [add_def, Nat.add_assoc]
  add_comm a b := by simp [add_def, Nat.add_comm]
  nsmul := nsmulRec

/-- Adding up from the left gives the sum. -/
theorem foldl_add (cs : List Confusion) : cs.foldl (· + ·) zero = cs.sum := List.sum_eq_foldl.symm

variable {α : Type} [Scalar α]

theorem count_eq_sum (actual predicted : List α) : count actual predicted =
    (List.zipWith (fun a p => ofOutcome (Label.isPositive a) (Label.isPositive p)) actual
      predicted).sum :=
  foldl_add _

@[simp] theorem count_nil : count ([] : List α) [] = 0 := rfl

@[simp] theorem count_cons (a p : α) (as ps : List α) : count (a :: as) (p :: ps) =
    ofOutcome (Label.isPositive a) (Label.isPositive p) + count as ps := by
  simp [count_eq_sum]

/-- The counts of samples that are given by their places. -/
theorem count_map {ι : Type} (actual predicted : ι → α) (places : List ι) :
    count (places.map actual) (places.map predicted) =
      (places.map fun i =>
        ofOutcome (Label.isPositive (actual i)) (Label.isPositive (predicted i))).sum := by
  simp [count_eq_sum, List.zipWith_map, List.zipWith_self]

/-- Parts that together hold certain samples have the counts of these samples, in whatever order they
stand. -/
theorem sum_count_parts {ι : Type} (actual predicted : ι → α) {parts : List (List ι)} {places : List ι}
    (h : parts.flatten.Perm places) :
    (parts.map fun part => count (part.map actual) (part.map predicted)).sum =
      count (places.map actual) (places.map predicted) := by
  rw [count_map, ← (h.map _).sum_eq]
  simp [count_map, List.map_flatten, List.sum_flatten, Function.comp_def]

/-- The positive samples are the true positives and the false negatives, all others the false positives
and the true negatives. -/
theorem count_margins {actual predicted : List α} (h : actual.length = predicted.length) :
    (count actual predicted).truePositive + (count actual predicted).falseNegative =
        actual.countP Label.isPositive ∧
      (count actual predicted).falsePositive + (count actual predicted).trueNegative =
        actual.countP fun a => !Label.isPositive a := by
  induction actual generalizing predicted with
  | nil =>
    obtain rfl := List.length_eq_zero_iff.1 h.symm
    exact ⟨rfl, rfl⟩
  | cons a as ih =>
    obtain ⟨p, ps, rfl⟩ := List.exists_cons_of_length_eq_add_one h.symm
    obtain ⟨hpositives, hnegatives⟩ := ih (by simpa using h : as.length = ps.length)
    rw [count_cons, List.countP_cons, List.countP_cons, ← hpositives, ← hnegatives]
    cases Label.isPositive a <;> cases Label.isPositive p <;> simp [ofOutcome, add_def] <;> omega

/-- Every sample is counted once. -/
theorem total_count {actual predicted : List α} (h : actual.length = predicted.length) :
    (count actual predicted).total = actual.length := by
  obtain ⟨hpositives, hnegatives⟩ := count_margins h
  have hlength := List.length_eq_countP_add_countP (Label.isPositive (α := α)) (l := actual)
  simp only [Bool.not_eq_true, Bool.decide_eq_false] at hlength
  rw [total, hlength]
  omega

end PackageTriage.Confusion
