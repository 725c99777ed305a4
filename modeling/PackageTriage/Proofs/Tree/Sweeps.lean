import PackageTriage.Proofs.Tree.Growth

/-!
# Where a sweep finds its candidate

After `k` moves the left side of a sweep holds the first `k` samples of the sorted list. A candidate that the
sweep ends with was found at some place of the list: behind the samples up to there, halfway between two different
values, with the gain of the two sides as they were then and enough samples on either.
-/

namespace PackageTriage

variable {α γ : Type} [Scalar α] [Scalar γ]

namespace Sweep

variable (minLeaf feature : Nat) (parent : γ)

/-- The last pair of a list is the last move. -/
theorem run_concat (s : Sweep α γ) (before : List (α × Nat)) (a b : α × Nat) :
    s.run minLeaf feature parent (before ++ [a, b]) =
      (s.run minLeaf feature parent (before ++ [a])).move minLeaf feature parent a.1 b.1 a.2 := by
  induction before generalizing s with
  | nil => rfl
  | cons c before ih =>
    cases before with
    | nil => exact ih (s.move minLeaf feature parent c.1 a.1 c.2)
    | cons d before => exact ih (s.move minLeaf feature parent c.1 d.1 c.2)

/-- Between different values, with enough samples on both sides, the move looks at a new candidate. -/
theorem best_move (s : Sweep α γ) {v w : α} (label : Nat) (hne : Scalar.same v w = false)
    (hleft : minLeaf ≤ s.leftSize + 1) (hright : minLeaf ≤ s.rightSize - 1) :
    (s.move minLeaf feature parent v w label).best = Candidate.better s.best ⟨feature, (v + w) / Scalar.two,
      gain parent (s.left.add label) (s.right.remove label) (s.leftSize + 1) (s.rightSize - 1)⟩ := by
  rw [move]
  dsimp only
  rw [hne, decide_eq_false (Nat.not_lt.2 hleft), decide_eq_false (Nat.not_lt.2 hright)]
  rfl

def after (s : Sweep α γ) (values : List (α × Nat)) (k : Nat) : Sweep α γ :=
  s.run minLeaf feature parent (values.take (k + 1))

theorem after_zero (s : Sweep α γ) (values : List (α × Nat)) : s.after minLeaf feature parent values 0 = s := by
  cases values <;> rfl

theorem after_succ (s : Sweep α γ) {values : List (α × Nat)} {k : Nat} (hk : k + 1 < values.length) :
    s.after minLeaf feature parent values (k + 1) =
      (s.after minLeaf feature parent values k).move minLeaf feature parent values[k].1 values[k + 1].1
        values[k].2 := by
  have hlast : values.take (k + 1) = values.take k ++ [values[k]] := (List.take_append_getElem (by omega)).symm
  have hboth : values.take (k + 1 + 1) = values.take k ++ [values[k], values[k + 1]] := by
    rw [← List.take_append_getElem hk, hlast, List.append_assoc]
    rfl
  rw [after, hboth, run_concat, ← hlast]
  rfl

/-- As many samples as were moved are on the left side. -/
theorem sizes_after (counts : ClassCounts) (n : Nat) {values : List (α × Nat)} {k : Nat} (hk : k < values.length) :
    ((start counts n : Sweep α γ).after minLeaf feature parent values k).leftSize = k ∧
      ((start counts n : Sweep α γ).after minLeaf feature parent values k).rightSize = n - k := by
  induction k with
  | zero =>
    rw [after_zero]
    exact ⟨rfl, rfl⟩
  | succ k ih =>
    obtain ⟨hleft, hright⟩ := ih (by omega)
    rw [after_succ minLeaf feature parent _ hk]
    exact ⟨congrArg (· + 1) hleft, congrArg (· - 1) hright⟩

end Sweep

/-- The sweep along a feature of a node once `k` samples were moved. -/
def sweepAfter (γ : Type) [Scalar γ] (minLeaf : Nat) (counts : ClassCounts) (samples : List (TreeSample α))
    (feature k : Nat) : Sweep α γ :=
  (Sweep.start counts samples.length).after minLeaf feature (gini γ counts samples.length)
    (sortedBy feature samples) k

def sortedValues (feature : Nat) (samples : List (TreeSample α)) : List α :=
  (sortedBy feature samples).map Prod.fst

/-- The candidate was found when the samples up to the place `pos` of the sorted list had been moved: it is
halfway between the values there and at the next place, which differ, its gain is that of the two sides as they
were then, and neither side was too small. -/
structure Candidate.FoundAt (c : Candidate α γ) (minLeaf : Nat) (counts : ClassCounts)
    (samples : List (TreeSample α)) (pos : Nat) (v w : α) : Prop where
  value_eq : (sortedValues c.feature samples)[pos]? = some v
  next_eq : (sortedValues c.feature samples)[pos + 1]? = some w
  same_eq : Scalar.same v w = false
  threshold_eq : c.threshold = (v + w) / Scalar.two
  best_eq : (sweepAfter γ minLeaf counts samples c.feature (pos + 1)).best = some c
  leftSize_eq : (sweepAfter γ minLeaf counts samples c.feature (pos + 1)).leftSize = pos + 1
  rightSize_eq :
    (sweepAfter γ minLeaf counts samples c.feature (pos + 1)).rightSize = samples.length - (pos + 1)
  gain_eq : c.gain = PackageTriage.gain (gini γ counts samples.length)
    (sweepAfter γ minLeaf counts samples c.feature (pos + 1)).left
    (sweepAfter γ minLeaf counts samples c.feature (pos + 1)).right
    (sweepAfter γ minLeaf counts samples c.feature (pos + 1)).leftSize
    (sweepAfter γ minLeaf counts samples c.feature (pos + 1)).rightSize
  lt : pos + 1 < samples.length
  left_enough : minLeaf ≤ pos + 1
  right_enough : minLeaf ≤ samples.length - (pos + 1)

theorem length_sortedBy (feature : Nat) (samples : List (TreeSample α)) :
    (sortedBy feature samples).length = samples.length := by
  rw [sortedBy, List.length_mergeSort, List.length_map]

theorem sortedValues_perm (feature : Nat) (samples : List (TreeSample α)) :
    (sortedValues feature samples).Perm (samples.map fun s => s.features.getD feature 0) := by
  have hperm := (List.mergeSort_perm (samples.map fun s => (s.features.getD feature 0, s.label))
    fun a b => Scalar.rank a.1 b.1).map Prod.fst
  rwa [List.map_map] at hperm

section

variable (γ) (minLeaf : Nat) (counts : ClassCounts) {samples : List (TreeSample α)} {feature k : Nat}

theorem sweepAfter_succ {v w : α × Nat} (hv : (sortedBy feature samples)[k]? = some v)
    (hw : (sortedBy feature samples)[k + 1]? = some w) :
    sweepAfter γ minLeaf counts samples feature (k + 1) = (sweepAfter γ minLeaf counts samples feature k).move
      minLeaf feature (gini γ counts samples.length) v.1 w.1 v.2 := by
  obtain ⟨hk, rfl⟩ := List.getElem?_eq_some_iff.1 hw
  obtain ⟨-, rfl⟩ := List.getElem?_eq_some_iff.1 hv
  exact Sweep.after_succ minLeaf feature _ _ hk

/-- The sides of a sweep have the sizes of the position. -/
theorem sizes_sweepAfter (feature : Nat) (hk : k < samples.length) :
    (sweepAfter γ minLeaf counts samples feature k).leftSize = k ∧
      (sweepAfter γ minLeaf counts samples feature k).rightSize = samples.length - k :=
  Sweep.sizes_after minLeaf feature _ counts samples.length (length_sortedBy feature samples ▸ hk)

/-- A sweep ends when all samples but the last one were moved. -/
theorem bestBy_eq_sweepAfter (feature : Nat) : bestBy γ minLeaf counts samples feature =
    (sweepAfter γ minLeaf counts samples feature (samples.length - 1)).best := by
  have hlength := length_sortedBy feature samples
  rw [sweepAfter, Sweep.after, List.take_of_length_le (by omega)]
  rfl

end

variable {minLeaf feature : Nat} {counts : ClassCounts} {samples : List (TreeSample α)} {c : Candidate α γ}

/-- What is best after some moves was found at one of them. -/
theorem exists_foundAt_of_after {k : Nat} (hk : k < samples.length)
    (h : (sweepAfter γ minLeaf counts samples feature k).best = some c) :
    ∃ pos v w, c.FoundAt minLeaf counts samples pos v w := by
  induction k with
  | zero =>
    rw [sweepAfter, Sweep.after_zero] at h
    cases h
  | succ k ih =>
    have hlength := length_sortedBy feature samples
    obtain ⟨v, hv⟩ : ∃ v, (sortedBy feature samples)[k]? = some v := ⟨_, List.getElem?_eq_getElem (by omega)⟩
    obtain ⟨w, hw⟩ : ∃ w, (sortedBy feature samples)[k + 1]? = some w := ⟨_, List.getElem?_eq_getElem (by omega)⟩
    have hmove := sweepAfter_succ γ minLeaf counts hv hw
    have hsizes := sizes_sweepAfter γ minLeaf counts feature hk
    obtain ⟨hleft, hright⟩ := hmove ▸ hsizes
    have hbest := h
    rw [hmove] at h
    simp only [Sweep.move] at h hleft hright
    split at h
    · exact ih (Nat.lt_of_succ_lt hk) h
    · next hlooked =>
      rcases Candidate.eq_or_eq_of_better h with rfl | hold
      · simp only [hleft, hright, Bool.or_eq_true, decide_eq_true_eq, not_or, Bool.not_eq_true, not_lt] at hlooked
        obtain ⟨⟨hsame, hminLeft⟩, hminRight⟩ := hlooked
        refine ⟨k, v.1, w.1, ?_, ?_, hsame, rfl, hbest, hsizes.1, hsizes.2, ?_, hk, hminLeft, hminRight⟩
        · rw [sortedValues, List.getElem?_map, hv, Option.map_some]
        · rw [sortedValues, List.getElem?_map, hw, Option.map_some]
        · rw [hmove]
          rfl
      · exact ih (Nat.lt_of_succ_lt hk) hold

/-- Every best split was found somewhere. -/
theorem exists_foundAt {features : List Nat} (h : bestSplit γ minLeaf counts samples features = some c) :
    ∃ pos v w, c.FoundAt minLeaf counts samples pos v w := by
  obtain ⟨feature, -, hbest⟩ := List.mem_filterMap.1 (mem_of_firstBest h)
  rw [bestBy_eq_sweepAfter] at hbest
  rcases Nat.eq_zero_or_pos samples.length with hzero | hpos
  · rw [hzero, Nat.zero_sub, sweepAfter, Sweep.after_zero] at hbest
    cases hbest
  · exact exists_foundAt_of_after (Nat.sub_lt hpos Nat.one_pos) hbest

end PackageTriage
