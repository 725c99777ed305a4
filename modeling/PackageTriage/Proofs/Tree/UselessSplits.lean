import PackageTriage.Proofs.Classifier.Fitting
import PackageTriage.Proofs.Tree.Impurity
import PackageTriage.Proofs.Tree.SeparatedFits

/-!
# Leaves and useless splits

A split at a boundary is useless if its sides have the same shares of all classes. In exact arithmetic these are the
splits that gain nothing. So where growth need not stop it makes a leaf exactly if all the splits that it may choose
from are useless, and a fitted tree is split wherever that is not so.
-/

namespace PackageTriage

open ClassCounts

variable {α : Type} [Scalar α]

theorem ClassCounts.recount_append (classes : ℕ) (labels others : List ℕ) :
    recount classes (labels ++ others) = join (recount classes labels) (recount classes others) :=
  List.ext_getElem (by simp [join]) fun c _ _ => by simp [join, recount]

omit [Scalar α] in
/-- However samples are divided, the counts of the parts are together those of all. -/
theorem countsOf_eq_join (classes : ℕ) (samples : List (TreeSample α)) (p : TreeSample α → Bool) :
    countsOf classes samples =
      join (countsOf classes (samples.filter p)) (countsOf classes (samples.filter fun s => !p s)) := by
  have hperm := ((List.filter_append_perm p samples).map (·.label)).symm
  rw [List.map_append] at hperm
  exact (recount_perm hperm classes).trans (recount_append ..)

theorem length_lower_add_upper (feature : ℕ) (v : α) (samples : List (TreeSample α)) :
    (lowerSide feature v samples).length + (upperSide feature v samples).length = samples.length := by
  rw [lowerSide, upperSide, ← List.length_append]
  exact (List.filter_append_perm _ samples).length_eq

section

variable [OrderedScalar α] {samples : List (TreeSample α)} {feature : ℕ} {b : α × α}

/-- A boundary has samples on both sides, those with the values that it parts. -/
theorem sides_pos (hnumber : ∀ s ∈ samples, Scalar.isNumber (s.features.getD feature 0) = true)
    (hb : b ∈ boundaries feature samples) :
    0 < (lowerSide feature b.1 samples).length ∧ 0 < (upperSide feature b.1 samples).length := by
  obtain ⟨hzip, hne⟩ := List.mem_filter.1 hb
  obtain ⟨i, hi, rfl⟩ := List.getElem_of_mem hzip
  have hvalue {v : α} (hv : v ∈ (samples.map fun s => s.features.getD feature 0).mergeSort Scalar.rank) :
      ∃ s ∈ samples, s.features.getD feature 0 = v := List.mem_map.1 (List.mem_mergeSort.1 hv)
  have hrank := List.pairwise_iff_getElem.1 (OrderedScalar.sorted (samples.map fun s => s.features.getD feature 0)) i
    (i + 1)
  simp only [List.length_zip, List.length_tail, lt_min_iff, Nat.lt_sub_iff_add_lt] at hi
  simp only [List.getElem_zip, List.getElem_tail] at hne ⊢
  obtain ⟨s, hs, hlow⟩ := hvalue (List.getElem_mem hi.1)
  obtain ⟨t, ht, hhigh⟩ := hvalue (List.getElem_mem hi.2)
  have hless := OrderedScalar.less_of_rank (hlow ▸ hnumber s hs) (hhigh ▸ hnumber t ht)
    (hrank hi.1 hi.2 (Nat.lt_succ_self i)) (by simpa using hne)
  refine ⟨List.length_pos_of_mem (List.mem_filter.2 ⟨hs, ?_⟩), List.length_pos_of_mem (List.mem_filter.2 ⟨ht, ?_⟩)⟩
  · rw [hlow, OrderedScalar.atMost_eq (hlow ▸ hnumber s hs) (hlow ▸ hnumber s hs), OrderedScalar.less_irrefl]
    rfl
  · rw [hhigh, OrderedScalar.atMost_eq (hhigh ▸ hnumber t ht) (hlow ▸ hnumber s hs), hless]
    rfl

end

/-- Each boundary of the features that leaves enough samples on both sides leaves the same shares of the classes
there. -/
def Useless (classes minLeaf : ℕ) (samples : List (TreeSample α)) (features : List ℕ) : Prop :=
  ∀ f ∈ features, ∀ b ∈ boundaries f samples, leavesEnough minLeaf f samples b = true →
    SameShares (countsOf classes (lowerSide f b.1 samples)) (countsOf classes (upperSide f b.1 samples))
      (lowerSide f b.1 samples).length (upperSide f b.1 samples).length

variable [OrderedScalar α]

/-- The split at a boundary gains something exactly if the shares differ. -/
theorem gain_splitAt_pos_iff (classes : ℕ) {samples : List (TreeSample α)} {feature : ℕ} {b : α × α}
    (hnumber : ∀ s ∈ samples, Scalar.isNumber (s.features.getD feature 0) = true)
    (hb : b ∈ boundaries feature samples) :
    0 < (splitAt ℝ classes samples feature b).gain ↔
      ¬SameShares (countsOf classes (lowerSide feature b.1 samples)) (countsOf classes (upperSide feature b.1 samples))
        (lowerSide feature b.1 samples).length (upperSide feature b.1 samples).length := by
  obtain ⟨hlower, hupper⟩ := sides_pos hnumber hb
  have hlength : (countsOf classes (lowerSide feature b.1 samples)).length =
      (countsOf classes (upperSide feature b.1 samples)).length := by
    rw [countsOf, countsOf, length_recount, length_recount]
  have hgain : (splitAt ℝ classes samples feature b).gain =
      gain (gini ℝ (join (countsOf classes (lowerSide feature b.1 samples))
          (countsOf classes (upperSide feature b.1 samples)))
        ((lowerSide feature b.1 samples).length + (upperSide feature b.1 samples).length))
      (countsOf classes (lowerSide feature b.1 samples)) (countsOf classes (upperSide feature b.1 samples))
      (lowerSide feature b.1 samples).length (upperSide feature b.1 samples).length := by
    rw [length_lower_add_upper, lowerSide, upperSide, ← countsOf_eq_join]
    rfl
  rw [hgain, ← gain_eq_zero_iff hlength hlower hupper]
  exact (gain_nonneg hlength hlower hupper).lt_iff_ne'

/-- No split is found exactly if all are useless. -/
theorem bestSplit_eq_none_iff {samples : List (TreeSample α)}
    (hnumber : ∀ s ∈ samples, ∀ v ∈ s.features, Scalar.isNumber v = true) (classes minLeaf : ℕ) (features : List ℕ) :
    bestSplit ℝ minLeaf (countsOf classes samples) samples features = none ↔
      Useless classes minLeaf samples features := by
  have hvalue (f : ℕ) (s) (hs : s ∈ samples) : Scalar.isNumber (s.features.getD f 0) = true :=
    OrderedScalar.isNumber_getD (hnumber s hs) f
  have hwins : Wins (features.flatMap (splitsBy ℝ classes minLeaf samples))
      (bestSplit ℝ minLeaf (countsOf classes samples) samples features) :=
    wins_bestSplit (fun s hs f => hvalue f s hs) minLeaf features
  rw [hwins.eq_none_iff]
  have hgain {f : ℕ} {b : α × α} (hb : b ∈ boundaries f samples) :=
    gain_splitAt_pos_iff classes (hvalue f) hb
  constructor
  · intro hnone f hf b hb henough
    have hless := hnone (splitAt ℝ classes samples f b) (List.mem_flatMap.2 ⟨f, hf,
      List.mem_map_of_mem (List.mem_filter.2 ⟨hb, henough⟩)⟩)
    rw [Scalar.less_real, decide_eq_false_iff_not, hgain hb, not_not] at hless
    exact hless
  · intro huseless d hd
    obtain ⟨f, hf, hd⟩ := List.mem_flatMap.1 hd
    obtain ⟨b, hb, rfl⟩ := List.mem_map.1 hd
    obtain ⟨hb, henough⟩ := List.mem_filter.1 hb
    rw [Scalar.less_real, decide_eq_false_iff_not, hgain hb, not_not]
    exact huseless f hf b hb henough

namespace Node

variable {σ : Type} [Generator σ]

/-- A node is a leaf where growth has to stop or all splits are useless, and only there. Its samples are known by the
way down to it, and the features that it may be split by are those drawn when growth comes to it. -/
def LeafIffUseless (rules : GrowthRules) (classes : ℕ) :
    (levels : Option ℕ) → List (TreeSample α) → σ → Node α → σ → Prop
  | levels, samples, g, .leaf _ _, g' =>
    rules.stops levels (countsOf classes samples) samples.length = true ∧ g' = g ∨
      rules.stops levels (countsOf classes samples) samples.length = false ∧
        Useless classes rules.minLeaf samples (rules.features g).1 ∧ g' = (rules.features g).2
  | levels, samples, g, .split feature threshold left right _, g' =>
    rules.stops levels (countsOf classes samples) samples.length = false ∧
      ¬Useless classes rules.minLeaf samples (rules.features g).1 ∧
      ∃ gl, left.LeafIffUseless rules classes (levels.map (· - 1))
          (samples.filter fun s => goesLeft feature threshold s.features) (rules.features g).2 gl ∧
        right.LeafIffUseless rules classes (levels.map (· - 1))
          (samples.filter fun s => !goesLeft feature threshold s.features) gl g'

variable {rules : GrowthRules} {classes : List α} {samples : List (TreeSample α)}

omit [OrderedScalar α] in
/-- Where growth stops, nothing is drawn. -/
theorem grow_of_stops {levels : Option ℕ} (g : σ) (fuel : ℕ)
    (hstops : rules.stops levels (countsOf classes.length samples) samples.length = true) :
    grow ℝ rules classes (fuel + 1) levels samples g =
      some (ofCounts classes (countsOf classes.length samples) samples.length, g) := by
  rw [grow, ofLabels_eq_countsOf]
  exact if_pos hstops

variable (hnumber : ∀ s ∈ samples, ∀ v ∈ s.features, Scalar.isNumber v = true)

include hnumber

/-- A grown tree has its leaves where growth stopped or all splits were useless, and its splits elsewhere. -/
theorem leafIffUseless_of_grow {fuel : ℕ} {levels : Option ℕ} {g g' : σ} {node : Node α}
    (h : grow ℝ rules classes fuel levels samples g = some (node, g')) :
    node.LeafIffUseless rules classes.length levels samples g g' := by
  induction fuel generalizing levels samples g g' node with
  | zero => simp [grow] at h
  | succ fuel ih =>
    cases hstops : rules.stops levels (countsOf classes.length samples) samples.length with
    | true =>
      obtain ⟨rfl, rfl⟩ := Prod.mk.inj (Option.some.inj ((grow_of_stops g fuel hstops).symm.trans h))
      exact .inl ⟨hstops, rfl⟩
    | false =>
      have hnone := bestSplit_eq_none_iff hnumber classes.length rules.minLeaf (rules.features g).1
      have hcases := grow_eq_some h
      rw [ofLabels_eq_countsOf] at hcases
      rcases hcases with ⟨hends, rfl⟩ | ⟨best, left, gl, right, -, hbest, hleft, hright, rfl⟩
      · obtain ⟨hends, hg⟩ := hends.resolve_left fun h => Bool.false_ne_true (hstops.symm.trans h.1)
        exact .inr ⟨hstops, hnone.1 hends, hg⟩
      · have hside (p : TreeSample α → Bool) : ∀ s ∈ samples.filter p, ∀ v ∈ s.features, Scalar.isNumber v = true :=
          fun s hs => hnumber s (List.mem_of_mem_filter hs)
        refine ⟨hstops, fun huseless => ?_, gl, ih (hside _) hleft, ih (hside _) hright⟩
        exact Option.some_ne_none best (hbest.symm.trans (hnone.2 huseless))

/-- So where growth need not stop, it makes a leaf exactly if all splits are useless. -/
theorem grow_leaf_iff {levels : Option ℕ} (g : σ) (fuel : ℕ)
    (hgoes : rules.stops levels (countsOf classes.length samples) samples.length = false) :
    (∃ value n g', grow ℝ rules classes (fuel + 1) levels samples g = some (.leaf value n, g')) ↔
      Useless classes.length rules.minLeaf samples (rules.features g).1 := by
  constructor
  · rintro ⟨value, n, g', hleaf⟩
    rcases leafIffUseless_of_grow hnumber hleaf with ⟨hstops, -⟩ | ⟨-, huseless, -⟩
    · exact absurd (hgoes.symm.trans hstops) Bool.false_ne_true
    · exact huseless
  · intro huseless
    have hnone := (bestSplit_eq_none_iff hnumber classes.length rules.minLeaf (rules.features g).1).2 huseless
    have hcases := grow_succ_cases ℝ rules classes fuel levels samples g
    rw [ofLabels_eq_countsOf] at hcases
    rcases hcases with ⟨g', -, hleaf⟩ | ⟨best, -, hbest, -⟩
    · exact ⟨_, _, g', hleaf⟩
    · exact absurd (hnone.symm.trans hbest) (Option.some_ne_none best).symm

end Node

namespace DecisionTree

/-- No division of class counts into two parts that are not empty loses anything, and just those gain nothing that
leave all classes their shares. So where growth need not stop it makes a leaf exactly if every boundary that leaves
enough samples on both sides leaves the same shares there, and so it was at all nodes of a fitted tree. -/
theorem leaf_iff_useless (t : DecisionTree α) {x : Matrix α} (y : List α)
    (hnumber : ∀ row ∈ x.rows, ∀ v ∈ row, Scalar.isNumber v = true) :
    (∀ counts left right : ClassCounts, left.length = right.length → counts = join left right →
      0 < left.sum → 0 < right.sum →
      (0 : ℝ) ≤ gain (gini ℝ counts counts.sum) left right left.sum right.sum ∧
      (gain (gini ℝ counts counts.sum) left right left.sum right.sum = 0 ↔
        SameShares left right left.sum right.sum)) ∧
    (∀ (σ : Type) [Generator σ] (rules : GrowthRules) (classes : List α) (fuel : ℕ) (levels : Option ℕ)
      (samples : List (TreeSample α)) (g : σ),
      (∀ s ∈ samples, s.features ∈ x.rows) →
      rules.stops levels (ofLabels classes.length (samples.map (·.label))) samples.length = false →
      ((∃ value n g', Node.grow ℝ rules classes (fuel + 1) levels samples g = some (.leaf value n, g')) ↔
        Useless classes.length rules.minLeaf samples (rules.features g).1)) ∧
    ∀ u, t.fit ℝ x y = .ok u → ∃ root g, u.root = some root ∧
      root.LeafIffUseless (t.rules x.width) (Classes.distinct y).length t.maxDepth
        (samplesOf (Classes.distinct y) x y) (ChaCha.ofSeed t.seed) g := by
  refine ⟨?_, fun σ _ rules classes fuel levels samples g hrows hgoes => ?_, fun u h => ?_⟩
  · rintro _ left right hlength rfl hleft hright
    rw [sum_join hlength]
    exact ⟨gain_nonneg hlength hleft hright, gain_eq_zero_iff hlength hleft hright⟩
  · rw [ofLabels_eq_countsOf] at hgoes
    exact Node.grow_leaf_iff (fun s hs => hnumber _ (hrows s hs)) g fuel hgoes
  · obtain ⟨hheight, -, root, g, hgrow, rfl⟩ := fit_eq_ok h
    refine ⟨root, g, rfl, Node.leafIffUseless_of_grow (fun s hs => hnumber _ ?_) hgrow⟩
    rw [← features_samplesOf (Classes.distinct y) hheight]
    exact List.mem_map_of_mem hs

def crossedRows : Matrix Float := ⟨2, [[0, 0], [0, 1], [1, 0], [1, 1]], by simp⟩

def crossedSamples : List (TreeSample Float) := [⟨[0, 0], 0⟩, ⟨[0, 1], 1⟩, ⟨[1, 0], 1⟩, ⟨[1, 1], 0⟩]

theorem mergeSort_crossed {values : List Float} (h : values.Perm [0, 0, 1, 1]) :
    values.mergeSort Scalar.rank = [0, 0, 1, 1] := by
  rw [OrderedScalar.mergeSort_perm h]
  exact List.mergeSort_of_pairwise (by decide +kernel)

theorem distinct_crossed : Classes.distinct [(0 : Float), 1, 1, 0] = [0, 1] := by
  rw [Classes.distinct, mergeSort_crossed (by decide +kernel)]
  decide +kernel

theorem samplesOf_crossed : samplesOf (Classes.distinct [0, 1, 1, 0]) crossedRows [0, 1, 1, 0] = crossedSamples := by
  have hindices : Classes.indices [(0 : Float), 1] [0, 1, 1, 0] = [0, 1, 1, 0] := by decide +kernel
  rw [samplesOf, distinct_crossed, hindices]
  rfl

theorem boundaries_crossed {f : ℕ} (hf : f < 2) : boundaries f crossedSamples = [((0 : Float), 1)] := by
  rw [boundaries, mergeSort_crossed]
  · decide +kernel
  · interval_cases f <;> decide +kernel

theorem useless_crossed : Useless 2 1 crossedSamples [0, 1] := by
  intro f hf b hb _
  have hlt : f < 2 := by simp at hf; omega
  rw [boundaries_crossed hlt, List.mem_singleton] at hb
  subst hb
  have hcounts : countsOf 2 (lowerSide f 0 crossedSamples) = [1, 1] ∧
      countsOf 2 (upperSide f 0 crossedSamples) = [1, 1] ∧
      (lowerSide f 0 crossedSamples).length = 2 ∧ (upperSide f 0 crossedSamples).length = 2 := by
    interval_cases f <;> decide +kernel
  dsimp only
  rw [hcounts.1, hcounts.2.1, hcounts.2.2.1, hcounts.2.2.2]
  exact .cons rfl (.cons rfl .nil)

/-- Neither feature alone tells the classes of the four rows apart, so the tree is one leaf. -/
theorem leaf_iff_useless_crossed : ∃ u value n, (unfitted : DecisionTree Float).fit ℝ crossedRows [0, 1, 1, 0] = .ok u ∧
    u.root = some (.leaf value n) ∧ Useless 2 1 crossedSamples [0, 1] ∧
    gain (gini ℝ [2, 2] 4) [1, 1] [1, 1] 2 2 = 0 := by
  obtain ⟨hgain, hleaf, -⟩ := leaf_iff_useless (unfitted : DecisionTree Float) (x := crossedRows) [0, 1, 1, 0]
    (by decide +kernel)
  have hrows : ∀ s ∈ crossedSamples, s.features ∈ crossedSamples.map (·.features) :=
    fun s hs => List.mem_map_of_mem hs
  obtain ⟨value, n, g, hgrow⟩ := (hleaf ChaCha ((unfitted : DecisionTree Float).rules 2) [0, 1] 4099 none crossedSamples
    (ChaCha.ofSeed 0) hrows (by decide)).2 useless_crossed
  have hfit : (unfitted : DecisionTree Float).fit ℝ crossedRows [0, 1, 1, 0] = _ :=
    fit_of_grow rfl (List.cons_ne_nil _ _) (by rw [samplesOf_crossed, distinct_crossed]; exact hgrow)
  refine ⟨_, value, n, hfit, rfl, useless_crossed, ?_⟩
  exact (hgain [2, 2] [1, 1] [1, 1] rfl rfl two_pos two_pos).2.2 (.cons rfl (.cons rfl .nil))

end DecisionTree

end PackageTriage
