import PackageTriage.Proofs.Scalar.Comparison
import PackageTriage.Proofs.Tree.Counting
import PackageTriage.Proofs.Tree.Sweeps

/-!
# Boundaries

Between two different values of a feature the samples of a node part into those that are at most the lower one and the
others. A sweep has moved just the former when it comes there, whatever order equal values come in, so what it finds
along a feature is the best of the splits at the boundaries, with both sides counted anew.
-/

namespace PackageTriage

variable {α : Type} [Scalar α]

/-- The samples whose value of a feature is at most `v`. -/
def lowerSide (feature : Nat) (v : α) (samples : List (TreeSample α)) : List (TreeSample α) :=
  samples.filter fun s => Scalar.atMost (s.features.getD feature 0) v

def upperSide (feature : Nat) (v : α) (samples : List (TreeSample α)) : List (TreeSample α) :=
  samples.filter fun s => !Scalar.atMost (s.features.getD feature 0) v

/-- The neighbours among the values of a feature in rising order that are not the same. -/
def boundaries (feature : Nat) (samples : List (TreeSample α)) : List (α × α) :=
  let values := (samples.map fun s => s.features.getD feature 0).mergeSort Scalar.rank
  (values.zip values.tail).filter fun b => !Scalar.same b.1 b.2

def countsOf (classes : Nat) (samples : List (TreeSample α)) : ClassCounts :=
  ClassCounts.recount classes (samples.map (·.label))

omit [Scalar α] in
theorem ofLabels_eq_countsOf (classes : Nat) (samples : List (TreeSample α)) :
    ClassCounts.ofLabels classes (samples.map (·.label)) = countsOf classes samples :=
  ClassCounts.ofLabels_eq_recount _ _

/-- The split at a boundary; what it gains is computed from its two sides. -/
def splitAt (γ : Type) [Scalar γ] (classes : Nat) (samples : List (TreeSample α)) (feature : Nat) (b : α × α) :
    Candidate α γ where
  feature := feature
  threshold := (b.1 + b.2) / Scalar.two
  gain := gain (gini γ (countsOf classes samples) samples.length)
    (countsOf classes (lowerSide feature b.1 samples)) (countsOf classes (upperSide feature b.1 samples))
    (lowerSide feature b.1 samples).length (upperSide feature b.1 samples).length

def leavesEnough (minLeaf feature : Nat) (samples : List (TreeSample α)) (b : α × α) : Bool :=
  minLeaf ≤ (lowerSide feature b.1 samples).length && minLeaf ≤ (upperSide feature b.1 samples).length

def splitsBy (γ : Type) [Scalar γ] (classes minLeaf : Nat) (samples : List (TreeSample α)) (feature : Nat) :
    List (Candidate α γ) :=
  ((boundaries feature samples).filter (leavesEnough minLeaf feature samples)).map (splitAt γ classes samples feature)

/-- A list cut where a test turns is filtered by the test. -/
theorem filter_eq_take {β : Type} {l : List β} {k : Nat} {p : β → Bool} (htake : ∀ a ∈ l.take k, p a = true)
    (hdrop : ∀ a ∈ l.drop k, p a = false) : l.filter p = l.take k ∧ l.filter (fun a => !p a) = l.drop k := by
  have hnone : (l.drop k).filter p = [] := List.filter_eq_nil_iff.2 fun a ha => by simp [hdrop a ha]
  have hall : (l.take k).filter (fun a => !p a) = [] := List.filter_eq_nil_iff.2 fun a ha => by simp [htake a ha]
  constructor
  · conv_lhs => rw [← List.take_append_drop k l]
    rw [List.filter_append, hnone, List.append_nil, List.filter_eq_self.2 htake]
  · conv_lhs => rw [← List.take_append_drop k l]
    rw [List.filter_append, hall, List.nil_append, List.filter_eq_self.2 fun a ha => by simp [hdrop a ha]]

theorem sortedBy_perm (feature : Nat) (samples : List (TreeSample α)) :
    (sortedBy feature samples).Perm (samples.map fun s => (s.features.getD feature 0, s.label)) :=
  List.mergeSort_perm _ _

theorem isNumber_of_mem_sortedBy {feature : Nat} {samples : List (TreeSample α)}
    (hnumber : ∀ s ∈ samples, Scalar.isNumber (s.features.getD feature 0) = true) {a : α × Nat}
    (ha : a ∈ sortedBy feature samples) : Scalar.isNumber a.1 = true := by
  obtain ⟨s, hs, rfl⟩ := List.mem_map.1 ((sortedBy_perm feature samples).mem_iff.1 ha)
  exact hnumber s hs

section

variable [OrderedScalar α] {feature : Nat} {samples : List (TreeSample α)}

/-- Sorted values rise along the positions. -/
theorem sortedBy_pairwise (feature : Nat) (samples : List (TreeSample α)) :
    (sortedBy feature samples).Pairwise fun a b => Scalar.rank a.1 b.1 = true :=
  OrderedScalar.sorted_by Prod.fst _

/-- The values come in one order, whether the labels are sorted along or not. -/
theorem sortedValues_eq (feature : Nat) (samples : List (TreeSample α)) :
    sortedValues feature samples = (samples.map fun s => s.features.getD feature 0).mergeSort Scalar.rank := by
  refine List.Perm.eq_of_pairwise (fun _ _ _ _ => OrderedScalar.rank_antisymm)
    (List.pairwise_map.2 (sortedBy_pairwise feature samples)) (OrderedScalar.sorted _) ?_
  exact (sortedValues_perm feature samples).trans (List.mergeSort_perm _ _).symm

variable (hnumber : ∀ s ∈ samples, Scalar.isNumber (s.features.getD feature 0) = true)

include hnumber

/-- Up to a place with another value behind it stand the samples that are at most that value. -/
theorem filter_sortedBy {k : Nat} {a b : α × Nat} (ha : (sortedBy feature samples)[k]? = some a)
    (hb : (sortedBy feature samples)[k + 1]? = some b) (hne : Scalar.same a.1 b.1 = false) :
    (sortedBy feature samples).filter (fun c => Scalar.atMost c.1 a.1) = (sortedBy feature samples).take (k + 1) ∧
      (sortedBy feature samples).filter (fun c => !Scalar.atMost c.1 a.1) =
        (sortedBy feature samples).drop (k + 1) := by
  have hsorted := sortedBy_pairwise feature samples
  obtain ⟨hk, rfl⟩ := List.getElem?_eq_some_iff.1 ha
  obtain ⟨hk', rfl⟩ := List.getElem?_eq_some_iff.1 hb
  have hnum {i : Nat} (hi : i < (sortedBy feature samples).length) :
      Scalar.isNumber (sortedBy feature samples)[i].1 = true :=
    isNumber_of_mem_sortedBy hnumber (List.getElem_mem hi)
  have hrank {i j : Nat} (hij : i ≤ j) (hj : j < (sortedBy feature samples).length) :
      Scalar.less (sortedBy feature samples)[j].1 (sortedBy feature samples)[i].1 = false := by
    rcases Nat.lt_or_eq_of_le hij with hlt | rfl
    · exact OrderedScalar.not_less_of_rank (List.pairwise_iff_getElem.1 hsorted i j (by omega) hj hlt)
    · exact OrderedScalar.less_irrefl _
  have hgap : Scalar.less (sortedBy feature samples)[k].1 (sortedBy feature samples)[k + 1].1 = true :=
    OrderedScalar.less_of_rank (hnum hk) (hnum hk')
      (List.pairwise_iff_getElem.1 hsorted k (k + 1) hk hk' (Nat.lt_succ_self k)) hne
  refine filter_eq_take (fun c hc => ?_) (fun c hc => ?_)
  · obtain ⟨i, hi, rfl⟩ := List.getElem_of_mem hc
    rw [List.length_take] at hi
    rw [List.getElem_take, OrderedScalar.atMost_eq (hnum (by omega)) (hnum hk), hrank (by omega) hk]
    rfl
  · obtain ⟨i, hi, rfl⟩ := List.getElem_of_mem hc
    rw [List.length_drop] at hi
    rw [List.getElem_drop, OrderedScalar.atMost_eq (hnum (by omega)) (hnum hk)]
    rcases OrderedScalar.less_or_less (hnum (i := k + 1 + i) (by omega)) hgap with h | h
    · rw [h]
      rfl
    · exact absurd (h.symm.trans (hrank (by omega) (by omega))) (by simp)

/-- So the labels of the two sides are those before and behind the place. -/
theorem sides_perm {k : Nat} {a b : α × Nat} (ha : (sortedBy feature samples)[k]? = some a)
    (hb : (sortedBy feature samples)[k + 1]? = some b) (hne : Scalar.same a.1 b.1 = false) :
    ((lowerSide feature a.1 samples).map (·.label)).Perm (((sortedBy feature samples).take (k + 1)).map Prod.snd) ∧
      ((upperSide feature a.1 samples).map (·.label)).Perm
        (((sortedBy feature samples).drop (k + 1)).map Prod.snd) := by
  obtain ⟨htake, hdrop⟩ := filter_sortedBy hnumber ha hb hne
  have hside (p : α → Bool) : ((samples.filter fun s => p (s.features.getD feature 0)).map (·.label)).Perm
      (((sortedBy feature samples).filter fun c => p c.1).map Prod.snd) := by
    have hperm := (((sortedBy_perm feature samples).filter fun c => p c.1).map Prod.snd).symm
    rwa [List.filter_map, List.map_map] at hperm
  rw [← htake, ← hdrop]
  exact ⟨hside fun v => Scalar.atMost v a.1, hside fun v => !Scalar.atMost v a.1⟩

end

def look (γ : Type) [Scalar γ] (classes minLeaf : Nat) (samples : List (TreeSample α)) (feature : Nat)
    (best : Option (Candidate α γ)) (b : α × α) : Option (Candidate α γ) :=
  if !Scalar.same b.1 b.2 then
    if leavesEnough minLeaf feature samples b then Candidate.better best (splitAt γ classes samples feature b)
    else best
  else best

section

variable (γ : Type) [Scalar γ] (classes minLeaf : Nat) {feature k : Nat} {samples : List (TreeSample α)}

variable (feature) in
/-- The counts of a sweep are those of the samples that it has moved and of the others. -/
theorem counts_sweepAfter (hk : k < samples.length) :
    (sweepAfter γ minLeaf (countsOf classes samples) samples feature k).left =
        ClassCounts.recount classes (((sortedBy feature samples).take k).map Prod.snd) ∧
      (sweepAfter γ minLeaf (countsOf classes samples) samples feature k).right =
        ClassCounts.recount classes (((sortedBy feature samples).drop k).map Prod.snd) := by
  have hlength := length_sortedBy feature samples
  induction k with
  | zero =>
    have hlabels : ((sortedBy feature samples).map Prod.snd).Perm (samples.map (·.label)) := by
      have hperm := (sortedBy_perm feature samples).map Prod.snd
      rwa [List.map_map] at hperm
    rw [sweepAfter, Sweep.after_zero]
    refine ⟨?_, ClassCounts.recount_perm hlabels.symm classes⟩
    rw [List.take_zero, List.map_nil, ClassCounts.recount_nil]
    exact congrArg ClassCounts.zero (ClassCounts.length_recount _ _)
  | succ k ih =>
    obtain ⟨hleft, hright⟩ := ih (by omega)
    have hv := List.getElem?_eq_getElem (l := sortedBy feature samples) (i := k) (by omega)
    have hw := List.getElem?_eq_getElem (l := sortedBy feature samples) (i := k + 1) (by omega)
    rw [sweepAfter_succ γ minLeaf _ hv hw]
    constructor
    · rw [← List.take_append_getElem (by omega), List.map_append]
      exact (congrArg (ClassCounts.add · _) hleft).trans
        ((ClassCounts.add_recount ..).trans (ClassCounts.recount_perm (List.perm_append_singleton _ _).symm classes))
    · rw [List.drop_eq_getElem_cons (by omega), List.map_cons] at hright
      exact (congrArg (ClassCounts.remove · _) hright).trans (ClassCounts.remove_recount ..)

variable [OrderedScalar α] (hnumber : ∀ s ∈ samples, Scalar.isNumber (s.features.getD feature 0) = true)

include hnumber

/-- Between two values that are not the same a sweep has the sides of the boundary before it. -/
theorem sweepAfter_boundary {a b : α × Nat} (ha : (sortedBy feature samples)[k]? = some a)
    (hb : (sortedBy feature samples)[k + 1]? = some b) (hne : Scalar.same a.1 b.1 = false) :
    (sweepAfter γ minLeaf (countsOf classes samples) samples feature (k + 1)).left =
        countsOf classes (lowerSide feature a.1 samples) ∧
      (sweepAfter γ minLeaf (countsOf classes samples) samples feature (k + 1)).right =
        countsOf classes (upperSide feature a.1 samples) ∧
      (sweepAfter γ minLeaf (countsOf classes samples) samples feature (k + 1)).leftSize =
        (lowerSide feature a.1 samples).length ∧
      (sweepAfter γ minLeaf (countsOf classes samples) samples feature (k + 1)).rightSize =
        (upperSide feature a.1 samples).length := by
  have hlength := length_sortedBy feature samples
  have hk : k + 1 < samples.length := hlength ▸ (List.getElem?_eq_some_iff.1 hb).1
  obtain ⟨hleft, hright⟩ := counts_sweepAfter γ classes minLeaf feature hk
  obtain ⟨hleftSize, hrightSize⟩ := sizes_sweepAfter γ minLeaf (countsOf classes samples) feature hk
  obtain ⟨hlower, hupper⟩ := sides_perm hnumber ha hb hne
  have hlowerSize := hlower.length_eq
  have hupperSize := hupper.length_eq
  simp only [List.length_map, List.length_take, List.length_drop, hlength] at hlowerSize hupperSize
  refine ⟨hleft.trans (ClassCounts.recount_perm hlower.symm classes),
    hright.trans (ClassCounts.recount_perm hupper.symm classes), ?_, ?_⟩
  · rw [hleftSize, hlowerSize, Nat.min_eq_left hk.le]
  · rw [hrightSize, hupperSize]

omit hnumber [OrderedScalar α] in
/-- Every threshold of a feature, tried in rising order. -/
theorem foldl_splitsBy : (splitsBy γ classes minLeaf samples feature).foldl Candidate.better none =
    (let values := (samples.map fun s => s.features.getD feature 0).mergeSort Scalar.rank
    (values.zip values.tail).foldl (look γ classes minLeaf samples feature) none) := by
  rw [splitsBy, List.foldl_map, List.foldl_filter, boundaries, List.foldl_filter]
  rfl

/-- The next move looks at the next pair of neighbours. -/
theorem best_sweepAfter_succ {a b : α × Nat} (ha : (sortedBy feature samples)[k]? = some a)
    (hb : (sortedBy feature samples)[k + 1]? = some b) :
    (sweepAfter γ minLeaf (countsOf classes samples) samples feature (k + 1)).best =
      look γ classes minLeaf samples feature
        (sweepAfter γ minLeaf (countsOf classes samples) samples feature k).best (a.1, b.1) := by
  have hmove := sweepAfter_succ γ minLeaf (countsOf classes samples) ha hb
  rw [look]
  cases hsame : Scalar.same a.1 b.1 with
  | true =>
    rw [hmove, Sweep.move]
    simp [hsame]
  | false =>
    obtain ⟨hleft, hright, hleftSize, hrightSize⟩ := sweepAfter_boundary γ classes minLeaf hnumber ha hb hsame
    rw [hmove] at hleft hright hleftSize hrightSize ⊢
    simp only [Sweep.move] at hleft hright hleftSize hrightSize ⊢
    rw [hleft, hright, hleftSize, hrightSize, hsame]
    simp only [leavesEnough, splitAt]
    by_cases hl : minLeaf ≤ (lowerSide feature a.1 samples).length <;>
      by_cases hr : minLeaf ≤ (upperSide feature a.1 samples).length <;> simp [hl, hr, not_lt.2, not_le.1]

/-- After some positions the sweep holds the best threshold among those passed. -/
theorem best_sweepAfter (hk : k ≤ samples.length - 1) :
    (sweepAfter γ minLeaf (countsOf classes samples) samples feature k).best =
      (((sortedValues feature samples).zip (sortedValues feature samples).tail).take k).foldl
        (look γ classes minLeaf samples feature) none := by
  have hlength := length_sortedBy feature samples
  induction k with
  | zero =>
    rw [sweepAfter, Sweep.after_zero]
    rfl
  | succ k ih =>
    have ha := List.getElem?_eq_getElem (l := sortedBy feature samples) (i := k) (by omega)
    have hb := List.getElem?_eq_getElem (l := sortedBy feature samples) (i := k + 1) (by omega)
    have hzip : k < ((sortedValues feature samples).zip (sortedValues feature samples).tail).length := by
      simp only [sortedValues, List.length_zip, List.length_tail, List.length_map]
      omega
    rw [best_sweepAfter_succ γ classes minLeaf hnumber ha hb, ih (by omega), ← List.take_append_getElem hzip,
      List.foldl_append]
    simp [sortedValues]

/-- The best split by a feature is the best of those at its boundaries. -/
theorem bestBy_eq_foldl : bestBy γ minLeaf (countsOf classes samples) samples feature =
    (splitsBy γ classes minLeaf samples feature).foldl Candidate.better none := by
  have hzip : ((sortedValues feature samples).zip (sortedValues feature samples).tail).length = samples.length - 1 := by
    rw [List.length_zip, List.length_tail, sortedValues, List.length_map, length_sortedBy]
    exact Nat.min_eq_right (Nat.sub_le _ _)
  rw [bestBy_eq_sweepAfter, best_sweepAfter γ classes minLeaf hnumber le_rfl, List.take_of_length_le hzip.le,
    foldl_splitsBy, ← sortedValues_eq]

end

end PackageTriage
