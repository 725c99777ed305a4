import PackageTriage.Proofs.Tree.Separation

/-!
# Trees that separate

A tree with a limit on its depth is always fitted. Without one it is fitted if halfway between any two different
values of a feature there is a float that parts them, and then every leaf below a split holds enough samples.
Between neighbouring floats there may be none: then a split sends all samples to one side, and an unlimited tree
splits them for ever.
-/

namespace PackageTriage

namespace DecisionTree

theorem features_samplesOf {α : Type} [Scalar α] (classes : List α) {x : Matrix α} {y : List α}
    (hheight : x.height = y.length) : (samplesOf classes x y).map (·.features) = x.rows := by
  have hlength : x.rows.length = (Classes.indices classes y).length := by
    rw [Classes.indices, List.length_map]
    exact hheight
  refine List.ext_getElem (by simp [samplesOf, hlength]) fun i hi hi' => ?_
  simp [samplesOf]

section

variable {α γ : Type} [Scalar α] [Scalar γ] {t : DecisionTree α} {x : Matrix α} {y : List α}
  (hheight : x.height = y.length) (hrows : x.rows ≠ [])

include hheight hrows

/-- A tree that grows is the one the fit leaves behind. -/
theorem refit_of_grow {root : Node α} {g : ChaCha}
    (h : Node.grow γ (t.rules x.width) (Classes.distinct y) (t.fuel x.height) t.maxDepth
      (samplesOf (Classes.distinct y) x y) (ChaCha.ofSeed t.seed) = some (root, g)) :
    t.refit γ x y = .fitted { t with width := x.width, classes := Classes.distinct y, root := some root } := by
  rw [refit, if_neg (not_not.2 hheight), if_neg (by simpa using hrows)]
  dsimp only
  rw [h]

theorem fit_of_grow {root : Node α} {g : ChaCha}
    (h : Node.grow γ (t.rules x.width) (Classes.distinct y) (t.fuel x.height) t.maxDepth
      (samplesOf (Classes.distinct y) x y) (ChaCha.ofSeed t.seed) = some (root, g)) :
    t.fit γ x y = .ok { t with width := x.width, classes := Classes.distinct y, root := some root } :=
  congrArg Attempt.result (refit_of_grow hheight hrows h)

/-- Growth that runs out of levels is reported as endless. -/
theorem failure_of_grow (h : Node.grow γ (t.rules x.width) (Classes.distinct y) (t.fuel x.height) t.maxDepth
      (samplesOf (Classes.distinct y) x y) (ChaCha.ofSeed t.seed) = none) :
    (t.refit γ x y).failure = some .endlessGrowth := by
  rw [refit, if_neg (not_not.2 hheight), if_neg (by simpa using hrows)]
  dsimp only
  rw [h]
  rfl

/-- Within a limit on its depth a tree is fitted to any rows with labels. -/
theorem exists_fit_of_maxDepth {d : Nat} (hd : t.maxDepth = some d) : ∃ u, t.fit γ x y = .ok u := by
  obtain ⟨root, g, hgrow⟩ := Node.exists_grow_of_levels (γ := γ) (t.rules x.width) (Classes.distinct y)
    (Nat.lt_succ_self d) (samplesOf (Classes.distinct y) x y) (ChaCha.ofSeed t.seed)
  have hfuel : t.fuel x.height = d + 1 := by rw [fuel, hd]
  exact ⟨_, fit_of_grow hheight hrows (by rw [hfuel, hd]; exact hgrow)⟩

end

def twoRows (v w : Float) : Matrix Float := ⟨1, [[v], [w]], by simp⟩

def twoSamples (v w : Float) : List (TreeSample Float) := [⟨[v], 0⟩, ⟨[w], 1⟩]

theorem distinct_zero_one : Classes.distinct [(0 : Float), 1] = [0, 1] := by
  rw [Classes.distinct, List.mergeSort_of_pairwise (by decide +kernel)]
  decide +kernel

theorem samplesOf_twoRows (v w : Float) :
    samplesOf (Classes.distinct [0, 1]) (twoRows v w) [0, 1] = twoSamples v w := by
  have hindices : Classes.indices [(0 : Float), 1] [0, 1] = [0, 1] := by decide +kernel
  rw [samplesOf, distinct_zero_one, hindices]
  rfl

section

variable {v w : Float} (h : Scalar.rank v w = true) (hne : Scalar.same v w = false)

include h

theorem sortedBy_twoSamples : sortedBy 0 (twoSamples v w) = [(v, 0), (w, 1)] := by
  rw [sortedBy, List.mergeSort_of_pairwise]
  · rfl
  · simp [twoSamples, h]

/-- There is one place where a split can be found. -/
theorem place_twoSamples {threshold gain v' w' : Float} {pos : Nat}
    (hfound : (⟨0, threshold, gain⟩ : Candidate Float Float).FoundAt 1 [1, 1] (twoSamples v w) pos v' w') :
    pos = 0 ∧ v = v' ∧ w = w' := by
  have hlt : pos + 1 < 2 := hfound.lt
  obtain rfl : pos = 0 := by omega
  have hvalues : sortedValues 0 (twoSamples v w) = [v, w] := by
    rw [sortedValues, sortedBy_twoSamples h]
    rfl
  have hv := hfound.value_eq
  have hw := hfound.next_eq
  rw [hvalues] at hv hw
  exact ⟨rfl, Option.some.inj hv, Option.some.inj hw⟩

include hne

/-- The samples are split halfway between their values. -/
theorem bestSplit_twoSamples :
    bestSplit Float 1 [1, 1] (twoSamples v w) [0] = some ⟨0, (v + w) / Scalar.two, 0.5⟩ := by
  have hgain : (gain (gini Float [1, 1] 2) [1, 0] [0, 1] 1 1 : Float) = 0.5 := by decide +kernel
  have hmove : ((Sweep.start [1, 1] 2 : Sweep Float Float).move 1 0 (gini Float [1, 1] 2) v w 0).best =
      Candidate.better none ⟨0, (v + w) / Scalar.two, gain (gini Float [1, 1] 2) [1, 0] [0, 1] 1 1⟩ :=
    Sweep.best_move _ _ _ _ _ hne le_rfl le_rfl
  have hmore : Scalar.less (0 : Float) 0.5 = true := by decide +kernel
  have hbest : bestBy Float 1 [1, 1] (twoSamples v w) 0 = some ⟨0, (v + w) / Scalar.two, 0.5⟩ := by
    rw [bestBy, sortedBy_twoSamples h]
    rw [hgain] at hmove
    exact hmove.trans (if_pos hmore)
  rw [bestSplit, List.filterMap_cons, hbest]
  rfl

theorem foundAt_twoSamples : (⟨0, (v + w) / Scalar.two, 0.5⟩ : Candidate Float Float).FoundAt 1 [1, 1]
    (twoSamples v w) 0 v w := by
  obtain ⟨pos, v', w', hfound⟩ := exists_foundAt (bestSplit_twoSamples h hne)
  obtain ⟨rfl, rfl, rfl⟩ := place_twoSamples h hfound
  exact hfound

end

theorem allFinite_twoRows {v w : Float} (hv : v.isFinite = true) (hw : w.isFinite = true) :
    AllFinite (twoRows v w).rows := by
  simp [AllFinite, twoRows, hv, hw]

/-- Two rows can be separated where their midpoint parts them. -/
theorem separable_twoRows {v w : Float} (hv : v.isFinite = true) (hw : w.isFinite = true)
    (hless : Scalar.less w v = false) (hparted : Parted v w) : Separable (twoRows v w).rows := by
  have hself {u : Float} (hu : u.isFinite = true) : Scalar.less u u = false := by
    rw [← Bool.not_eq_true, Binary.less_iff hu hu]
    exact lt_irrefl _
  intro a ha b hb j hab
  cases j with
  | zero =>
    simp only [twoRows, List.mem_cons, List.not_mem_nil, or_false] at ha hb
    rcases ha with rfl | rfl <;> rcases hb with rfl | rfl
    · exact absurd hab (by simp [hself hv])
    · exact hparted
    · exact absurd hab (by simp [hless])
    · exact absurd hab (by simp [hself hw])
  | succ j =>
    have hlength {row : List Float} (hrow : row ∈ (twoRows v w).rows) : row.length ≤ j + 1 :=
      ((twoRows v w).rows_width row hrow).le.trans (Nat.le_add_left 1 j)
    rw [List.getD_eq_default _ _ (hlength ha), List.getD_eq_default _ _ (hlength hb)] at hab
    exact Bool.noConfusion (hab.symm.trans (hself rfl))

def stump : DecisionTree Float := { unfitted with maxDepth := some 1 }

section

variable {v w : Float} (h : Scalar.rank v w = true) (hne : Scalar.same v w = false)
  (hleft : ∀ s ∈ twoSamples v w, Node.goesLeft 0 ((v + w) / Scalar.two) s.features = true)

include h hne hleft

theorem grow_stump (g : ChaCha) : ∃ root g',
    Node.grow Float (stump.rules 1) [0, 1] 2 (some 1) (twoSamples v w) g = some (root, g') ∧
      root.leafSizes = [2, 0] := by
  have hleaf (samples : List (TreeSample Float)) (g : ChaCha) : ∃ value g',
      Node.grow Float (stump.rules 1) [0, 1] 1 (some 0) samples g = some (.leaf value samples.length, g') := by
    rcases Node.grow_succ_cases Float (stump.rules 1) [0, 1] 0 (some 0) samples g with ⟨g', -, hleaf⟩ | ⟨_, hgoes, -⟩
    · exact ⟨_, g', hleaf⟩
    · exact absurd rfl (GrowthRules.levels_ne hgoes)
  have hbest : bestSplit Float 1 (ClassCounts.ofLabels 2 [0, 1]) (twoSamples v w) [0] = _ := bestSplit_twoSamples h hne
  rcases Node.grow_succ_cases Float (stump.rules 1) [0, 1] 1 (some 1) (twoSamples v w) g with
    ⟨_, hends, -⟩ | ⟨best, -, hagain, hsplit⟩
  · rcases hends with ⟨hstops, -⟩ | ⟨hnone, -⟩
    · have hgoes : (stump.rules 1).stops (some 1) (ClassCounts.ofLabels 2 [0, 1]) 2 = false := by decide
      exact Bool.noConfusion (hgoes.symm.trans hstops)
    · exact absurd (hbest.symm.trans hnone) (Option.some_ne_none _)
  · obtain rfl := Option.some.inj (hbest.symm.trans hagain)
    have hright : (twoSamples v w).filter (fun s => !Node.goesLeft 0 ((v + w) / Scalar.two) s.features) = [] :=
      List.filter_eq_nil_iff.2 fun s hs => by simp [hleft s hs]
    have hfeatures : (stump.rules 1).features g = ([0], g) := rfl
    obtain ⟨a, gl, hl⟩ := hleaf (twoSamples v w) g
    obtain ⟨b, gr, hr⟩ := hleaf [] gl
    dsimp only at hsplit
    rw [List.filter_eq_self.2 hleft, hright, hfeatures] at hsplit
    dsimp only [Option.map_some, Nat.sub_self] at hsplit
    rw [hl, Option.bind_some, hr] at hsplit
    exact ⟨_, gr, hsplit, rfl⟩

/-- If the midpoint goes with the greater value, a tree of one level is left with a leaf without samples. -/
theorem leafSizes_stump :
    (stump.refit Float (twoRows v w) [0, 1]).model.root.map Node.leafSizes = some [2, 0] := by
  obtain ⟨root, g, hgrow, hsizes⟩ := grow_stump h hne hleft (ChaCha.ofSeed stump.seed)
  have hall : Node.grow Float (stump.rules (twoRows v w).width) (Classes.distinct [0, 1])
      (stump.fuel (twoRows v w).height) stump.maxDepth
      (samplesOf (Classes.distinct [0, 1]) (twoRows v w) [0, 1]) (ChaCha.ofSeed stump.seed) = some (root, g) := by
    rw [samplesOf_twoRows, distinct_zero_one]
    exact hgrow
  rw [refit_of_grow rfl (List.cons_ne_nil _ _) hall]
  exact congrArg some hsizes

/-- An unlimited tree is then never finished. -/
theorem grow_twoSamples (fuel : Nat) (g : ChaCha) :
    Node.grow Float (rules (unfitted : DecisionTree Float) 1) [0, 1] fuel none (twoSamples v w) g = none := by
  have hcounts : ClassCounts.ofLabels [(0 : Float), 1].length ((twoSamples v w).map (·.label)) = [1, 1] := rfl
  refine Node.grow_of_all_left (c := ⟨0, (v + w) / Scalar.two, 0.5⟩) (rules (unfitted : DecisionTree Float) 1) [0, 1]
    rfl ?_ ?_ hleft fuel g
  · rw [hcounts]
    rfl
  · rw [hcounts]
    exact bestSplit_twoSamples h hne

theorem failure_twoSamples :
    ((unfitted : DecisionTree Float).refit Float (twoRows v w) [0, 1]).failure = some .endlessGrowth := by
  refine failure_of_grow rfl (List.cons_ne_nil _ _) ?_
  rw [samplesOf_twoRows, distinct_zero_one]
  exact grow_twoSamples h hne hleft _ _

end

/-- The sweep and the split count alike exactly where the midpoint parts the two values that a split was found
between, which it does if a float lies between them and their sum does not overflow. A tree of limited depth is
always fitted; any tree is where all values are parted, and then its splits leave enough samples on both sides. -/
theorem refit_separates (γ : Type) [Scalar γ] (t : DecisionTree Float) {x : Matrix Float} {y : List Float}
    (hfinite : AllFinite x.rows) (hheight : x.height = y.length) (hrows : x.rows ≠ []) :
    (∀ samples : List (TreeSample Float), (∀ s ∈ samples, s.features ∈ x.rows) →
      ∀ (minLeaf : Nat) (counts : ClassCounts) (features : List Nat) (c : Candidate Float γ),
        bestSplit γ minLeaf counts samples features = some c → ∃ pos v w,
          c.FoundAt minLeaf counts samples pos v w ∧ Scalar.less v w = true ∧
          max 1 minLeaf ≤ pos + 1 ∧ max 1 minLeaf ≤ samples.length - (pos + 1) ∧
          ((samples.filter fun s => Node.goesLeft c.feature c.threshold s.features).length = pos + 1 ↔
            Parted v w)) ∧
    (∀ u v w : Float, u.isFinite = true → v.isFinite = true → w.isFinite = true →
      Scalar.less v u = true → Scalar.less u w = true → (v + w).isFinite = true → Parted v w) ∧
    (∀ d, t.maxDepth = some d → ∃ root, t.refit γ x y =
      .fitted { t with width := x.width, classes := Classes.distinct y, root := some root }) ∧
    (Separable x.rows → ∃ root, t.refit γ x y =
        .fitted { t with width := x.width, classes := Classes.distinct y, root := some root } ∧
      root.Separates (max 1 t.minLeaf) (samplesOf (Classes.distinct y) x y) ∧
      ((∃ value, root = .leaf value x.height) ∨ ∀ n ∈ root.leafSizes, max 1 t.minLeaf ≤ n)) := by
  have hsamples := features_samplesOf (Classes.distinct y) hheight
  have hlength : (samplesOf (Classes.distinct y) x y).length = x.height := by
    rw [← List.length_map (·.features), hsamples]
    rfl
  have hlimited (d : Nat) (hd : t.maxDepth = some d) := Node.exists_grow_of_levels (γ := γ) (t.rules x.width)
    (Classes.distinct y) (Nat.lt_succ_self d) (samplesOf (Classes.distinct y) x y) (ChaCha.ofSeed t.seed)
  refine ⟨fun samples hsub minLeaf counts features c hbest => ?_, fun u v w hu hv hw hvu huw hsum => ?_,
    fun d hd => ?_, fun hseparable => ?_⟩
  · obtain ⟨pos, v, w, hfound⟩ := exists_foundAt hbest
    have hfinite' : AllFinite (samples.map (·.features)) := by
      intro row hrow
      obtain ⟨s, hs, rfl⟩ := List.mem_map.1 hrow
      exact hfinite _ (hsub s hs)
    have hlt := hfound.lt
    have hminLeft := hfound.left_enough
    have hminRight := hfound.right_enough
    exact ⟨pos, v, w, hfound, hfound.less hfinite', by omega, by omega, hfound.length_left_iff hfinite'⟩
  · have hvw : Scalar.less v w = true := by
      rw [Binary.less_iff hv hu] at hvu
      rw [Binary.less_iff hu hw] at huw
      exact (Binary.less_iff hv hw).2 (hvu.trans huw)
    exact ⟨Binary.atMost_midpoint hv hw hsum hvw, Binary.midpoint_less hv hw hsum hu hvu huw⟩
  · obtain ⟨root, g, hgrow⟩ := hlimited d hd
    refine ⟨root, refit_of_grow hheight hrows (g := g) ?_⟩
    rw [fuel, hd]
    exact hgrow
  · have hparting : Parting (samplesOf (Classes.distinct y) x y) := by
      constructor <;> rw [hsamples] <;> assumption
    obtain ⟨root, g, hgrow⟩ : ∃ root g, Node.grow γ (t.rules x.width) (Classes.distinct y) (t.fuel x.height)
        t.maxDepth (samplesOf (Classes.distinct y) x y) (ChaCha.ofSeed t.seed) = some (root, g) := by
      rw [fuel]
      cases hd : t.maxDepth with
      | some d => exact hlimited d hd
      | none =>
        exact Node.exists_grow_of_parting _ _ (hlength ▸ List.length_pos_iff.2 hrows)
          (hlength ▸ Nat.le_add_right _ _) hparting none _
    have hseparates := Node.separates_of_grow _ _ hparting hgrow
    refine ⟨root, refit_of_grow hheight hrows hgrow, hseparates, ?_⟩
    cases root with
    | leaf value n =>
      obtain rfl : n = x.height := Eq.trans hseparates hlength
      exact .inl ⟨value, rfl⟩
    | split feature threshold left right n =>
      have hall : max 1 t.minLeaf ≤ (samplesOf (Classes.distinct y) x y).length :=
        hseparates.2.1.trans (List.length_filter_le _ _)
      exact .inr (hseparates.le_of_mem_leafSizes hall)

/-- The values 1 and 2 are parted by their midpoint, since 1.5 lies between. -/
theorem refit_separates_two : ∃ root : Node Float,
    ((twoSamples 1 2).filter fun s => Node.goesLeft 0 ((1 + 2) / Scalar.two) s.features).length = 1 ∧
    Parted (1 : Float) 2 ∧
    stump.refit Float (twoRows 1 2) [0, 1] =
      .fitted { stump with width := 1, classes := Classes.distinct [0, 1], root := some root } ∧
    root.Separates 1 (twoSamples 1 2) := by
  have hrank : Scalar.rank (1 : Float) 2 = true := by decide +kernel
  have hne : Scalar.same (1 : Float) 2 = false := by decide +kernel
  have hfinite : AllFinite (twoRows 1 2).rows := allFinite_twoRows rfl rfl
  have hheight : (twoRows 1 2).height = [(0 : Float), 1].length := rfl
  obtain ⟨hlocal, hbetween, hlimited, hall⟩ := refit_separates Float stump hfinite hheight (List.cons_ne_nil _ _)
  have hparted : Parted (1 : Float) 2 := hbetween 1.5 1 2 (by decide +kernel) (by decide +kernel) (by decide +kernel)
    (by decide +kernel) (by decide +kernel) (by decide +kernel)
  obtain ⟨-, -⟩ := hlimited 1 rfl
  obtain ⟨root, hrefit, hseparates, -⟩ := hall (separable_twoRows rfl rfl (by decide +kernel) hparted)
  rw [samplesOf_twoRows] at hseparates
  refine ⟨root, ?_, hparted, hrefit, hseparates⟩
  obtain ⟨pos, v, w, hfound, -, -, -, hcount⟩ := hlocal (twoSamples 1 2) (by simp [twoSamples, twoRows]) 1 [1, 1] [0] _
    (bestSplit_twoSamples hrank hne)
  obtain ⟨rfl, rfl, rfl⟩ := place_twoSamples hrank hfound
  exact hcount.2 hparted

/-- Between 0.3 and the next float there is none, and their midpoint is rounded up: both samples go to the left. A
tree of one level has an empty leaf, and an unlimited one is never finished. -/
theorem fit_neighbours :
    (∃ c : Candidate Float Float,
      bestSplit Float 1 [1, 1] (twoSamples 0.3 0.30000000000000004) [0] = some c ∧
      c.FoundAt 1 [1, 1] (twoSamples 0.3 0.30000000000000004) 0 0.3 0.30000000000000004 ∧
      ((twoSamples 0.3 0.30000000000000004).filter fun s =>
        Node.goesLeft c.feature c.threshold s.features).length = 2) ∧
    (stump.refit Float (twoRows 0.3 0.30000000000000004) [0, 1]).model.root.map Node.leafSizes = some [2, 0] ∧
    ((unfitted : DecisionTree Float).refit Float (twoRows 0.3 0.30000000000000004) [0, 1]).failure =
      some .endlessGrowth := by
  have hrank : Scalar.rank (0.3 : Float) 0.30000000000000004 = true := by decide +kernel
  have hne : Scalar.same (0.3 : Float) 0.30000000000000004 = false := by decide +kernel
  have hleft : ∀ s ∈ twoSamples 0.3 0.30000000000000004,
      Node.goesLeft 0 ((0.3 + 0.30000000000000004) / Scalar.two) s.features = true := by decide +kernel
  refine ⟨⟨_, bestSplit_twoSamples hrank hne, foundAt_twoSamples hrank hne, ?_⟩, leafSizes_stump hrank hne hleft,
    failure_twoSamples hrank hne hleft⟩
  rw [List.filter_eq_self.2 hleft]
  rfl

end DecisionTree

end PackageTriage
