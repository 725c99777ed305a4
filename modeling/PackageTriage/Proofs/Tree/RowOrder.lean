import PackageTriage.Proofs.Selection
import PackageTriage.Proofs.Tree.Boundaries
import PackageTriage.Proofs.Tree.SeparatedFits

/-!
# Rows in any order

Sorting by a feature brings the same values into the same order whatever order the samples come in, and only equal
values can change places. No split lies between those, so every node finds the same split, the same samples go to
either side, and both sides draw the same features. A tree thus does not depend on the order of its training rows.
-/

namespace PackageTriage

variable {α : Type} {samples others : List (TreeSample α)}

theorem countsOf_perm (h : samples.Perm others) (classes : Nat) : countsOf classes samples = countsOf classes others :=
  ClassCounts.recount_perm (h.map _) classes

section

variable [Scalar α] [OrderedScalar α]

theorem boundaries_perm (h : samples.Perm others) (feature : Nat) :
    boundaries feature samples = boundaries feature others := by
  simp only [boundaries, OrderedScalar.mergeSort_perm (h.map fun s => s.features.getD feature 0)]

variable (γ : Type) [Scalar γ]

theorem splitsBy_perm (h : samples.Perm others) (classes minLeaf feature : Nat) :
    splitsBy γ classes minLeaf samples feature = splitsBy γ classes minLeaf others feature := by
  have hlower (v : α) : (lowerSide feature v samples).Perm (lowerSide feature v others) := h.filter _
  have hupper (v : α) : (upperSide feature v samples).Perm (upperSide feature v others) := h.filter _
  have hsplit : splitAt γ classes samples feature = splitAt γ classes others feature := by
    funext b
    simp only [splitAt, countsOf_perm h, countsOf_perm (hlower b.1), countsOf_perm (hupper b.1), h.length_eq,
      (hlower b.1).length_eq, (hupper b.1).length_eq]
  have henough : leavesEnough minLeaf feature samples = leavesEnough minLeaf feature others := by
    funext b
    rw [leavesEnough, leavesEnough, (hlower b.1).length_eq, (hupper b.1).length_eq]
  rw [splitsBy, splitsBy, boundaries_perm h, hsplit, henough]

variable (hnumber : ∀ s ∈ samples, ∀ f, Scalar.isNumber (s.features.getD f 0) = true)

include hnumber

theorem bestSplit_perm (h : samples.Perm others) (classes minLeaf : Nat) (features : List Nat) :
    bestSplit γ minLeaf (countsOf classes samples) samples features =
      bestSplit γ minLeaf (countsOf classes others) others features := by
  have hby : bestBy γ minLeaf (countsOf classes samples) samples =
      bestBy γ minLeaf (countsOf classes others) others := by
    funext f
    rw [bestBy_eq_foldl γ classes minLeaf fun s hs => hnumber s hs f,
      bestBy_eq_foldl γ classes minLeaf fun s hs => hnumber s (h.mem_iff.2 hs) f, splitsBy_perm γ h]
  rw [bestSplit, bestSplit, hby]

/-- Growth does not depend on the order of its samples. -/
theorem Node.grow_perm {σ : Type} [Generator σ] (rules : GrowthRules) (classes : List α) (fuel : Nat)
    (levels : Option Nat) (h : samples.Perm others) (g : σ) :
    grow γ rules classes fuel levels samples g = grow γ rules classes fuel levels others g := by
  induction fuel generalizing levels samples others g with
  | zero => rfl
  | succ fuel ih =>
    have hside (p : TreeSample α → Bool) (g : σ) :
        grow γ rules classes fuel (levels.map (· - 1)) (samples.filter p) g =
          grow γ rules classes fuel (levels.map (· - 1)) (others.filter p) g :=
      ih (fun s hs => hnumber s (List.mem_of_mem_filter hs)) _ (h.filter p) g
    have hcounts (l : List (TreeSample α)) : ClassCounts.ofLabels classes.length (l.map (·.label)) =
        countsOf classes.length l := ClassCounts.ofLabels_eq_recount _ _
    -- Both nodes have the same counts and size, so they stop alike; else they split alike and the generator that
    -- the left side leaves is the same for the right one.
    simp only [grow, hcounts, List.partition_eq_filter_filter, bestSplit_perm γ hnumber h, hside]
    rw [countsOf_perm h, h.length_eq]

end

namespace DecisionTree

variable [Scalar α] {x : Matrix α} {y : List α} {places : List Nat}

/-- The samples of selected rows are the selected samples. -/
theorem samplesOf_select (classes : List α) (h : ∀ i ∈ places, i < x.height) (y : List α) :
    samplesOf classes (x.select places) (places.map fun i => y.getD i 0) =
      places.map fun i => ⟨x.rows.getD i [], (Classes.index? classes (y.getD i 0)).getD 0⟩ := by
  rw [samplesOf, Matrix.rows_select h, Classes.indices, List.map_map, List.zipWith_map, List.zipWith_self]
  rfl

variable (hheight : x.height = y.length) (hplaces : places.Perm (List.range x.height))

include hheight hplaces

theorem labels_select_perm : (places.map fun i => y.getD i 0).Perm y := by
  have hmap := hplaces.map fun i => y.getD i 0
  rwa [hheight, map_getD_range] at hmap

theorem samplesOf_select_perm (classes : List α) :
    (samplesOf classes (x.select places) (places.map fun i => y.getD i 0)).Perm (samplesOf classes x y) := by
  have hall : samplesOf classes (x.select (List.range x.height)) ((List.range x.height).map fun i => y.getD i 0) =
      samplesOf classes x y := by
    rw [samplesOf, Matrix.rows_select fun i hi => List.mem_range.1 hi, Matrix.height, map_getD_range, ← Matrix.height,
      hheight, map_getD_range, ← samplesOf]
  rw [← hall, samplesOf_select classes fun i hi => List.mem_range.1 hi,
    samplesOf_select classes fun i hi => List.mem_range.1 (hplaces.mem_iff.1 hi)]
  exact hplaces.map _

end DecisionTree

/-- Rows of numbers that are put into another order with their labels give the same tree, whether all features are
looked at or some are drawn at every split. -/
theorem DecisionTree.refit_select_perm (γ : Type) [Scalar γ] [Scalar α] [OrderedScalar α] (t : DecisionTree α)
    {x : Matrix α} {y : List α} (hheight : x.height = y.length)
    (hnumber : ∀ row ∈ x.rows, ∀ v ∈ row, Scalar.isNumber v = true) {places : List Nat}
    (hplaces : places.Perm (List.range x.height)) :
    t.refit γ (x.select places) (places.map fun i => y.getD i 0) = t.refit γ x y := by
  have hselected : (x.select places).height = x.height := by
    rw [Matrix.height_select fun i hi => List.mem_range.1 (hplaces.mem_iff.1 hi), hplaces.length_eq, List.length_range]
  have hlabels := labels_select_perm hheight hplaces
  have hclasses : Classes.distinct (places.map fun i => y.getD i 0) = Classes.distinct y := by
    rw [Classes.distinct, Classes.distinct, OrderedScalar.mergeSort_perm hlabels]
  have hempty : (x.select places).rows.isEmpty = x.rows.isEmpty := by
    rw [Bool.eq_iff_iff, List.isEmpty_iff_length_eq_zero, List.isEmpty_iff_length_eq_zero]
    exact iff_of_eq (congrArg (· = 0) hselected)
  have hsamples := samplesOf_select_perm hheight hplaces (Classes.distinct y)
  have hsampleNumber : ∀ s ∈ samplesOf (Classes.distinct y) (x.select places) (places.map fun i => y.getD i 0),
      ∀ f, Scalar.isNumber (s.features.getD f 0) = true := by
    intro s hs f
    have hrow : s.features ∈ x.rows :=
      features_samplesOf (Classes.distinct y) hheight ▸ List.mem_map_of_mem (hsamples.mem_iff.1 hs)
    exact OrderedScalar.isNumber_getD (hnumber s.features hrow) f
  rw [refit, refit, hselected, hlabels.length_eq, hempty, hclasses]
  dsimp only
  rw [Node.grow_perm γ hsampleNumber _ _ _ _ hsamples]
  rfl

/-- Two samples with the same value change places. -/
theorem DecisionTree.refit_select_tied :
    let x : Matrix Float := ⟨1, [[1], [1], [2]], by simp⟩
    (∀ row ∈ x.rows, ∀ v ∈ row, Scalar.isNumber v = true) ∧ [1, 0, 2].Perm (List.range x.height) ∧
    stump.refit Float (x.select [1, 0, 2]) [1, 0, 1] = stump.refit Float x [0, 1, 1] ∧
    ∃ u, stump.refit Float x [0, 1, 1] = .fitted u := by
  intro x
  have hnumber : ∀ row ∈ x.rows, ∀ v ∈ row, Scalar.isNumber v = true := by decide +kernel
  have hplaces : [1, 0, 2].Perm (List.range x.height) := List.Perm.swap 0 1 [2]
  obtain ⟨root, g, hgrow⟩ := Node.exists_grow_of_levels (γ := Float) (stump.rules x.width)
    (Classes.distinct [0, 1, 1]) (Nat.lt_succ_self 1) (samplesOf (Classes.distinct [0, 1, 1]) x [0, 1, 1])
    (ChaCha.ofSeed stump.seed)
  exact ⟨hnumber, hplaces, refit_select_perm Float stump (y := [0, 1, 1]) rfl hnumber hplaces, _,
    refit_of_grow rfl (List.cons_ne_nil _ _) hgrow⟩

end PackageTriage
