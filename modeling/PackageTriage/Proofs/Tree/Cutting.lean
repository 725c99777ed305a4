import PackageTriage.Proofs.Tree.Routing

/-!
# Trees cut short

A limit on the depth decides only where growth stops. As long as every split looks at all features nothing is drawn, so
above the limit a tree grows as it would with a greater one, and at the limit it has leaves. A leaf is right for no more
rows than the tree that it takes the place of.
-/

namespace PackageTriage

variable {α γ : Type} [Scalar α] [Scalar γ]

namespace GrowthRules

variable {rules : GrowthRules} {levels : Option Nat} {counts : ClassCounts} {n d : Nat}

/-- Growth with fewer levels left stops no later. -/
theorem stops_of_le (hd : ∀ e, levels = some e → d ≤ e) (h : rules.stops levels counts n = true) :
    rules.stops (some d) counts n = true := by
  simp only [stops, Bool.or_eq_true, beq_iff_eq, Option.some_inj] at h ⊢
  rcases h with ((h | h) | h) | h
  · exact .inl (.inl (.inl h))
  · exact .inl (.inl (.inr h))
  · exact .inl (.inr (Nat.le_zero.1 (hd 0 h)))
  · exact .inr h

/-- Where growth goes on, it goes on whenever a level is left. -/
theorem stops_succ (h : rules.stops levels counts n = false) (d : Nat) :
    rules.stops (some (d + 1)) counts n = false := by
  simp only [stops, Bool.or_eq_false_iff] at h ⊢
  exact ⟨⟨h.1.1, rfl⟩, h.2⟩

end GrowthRules

namespace Node

/-- The tree down to the depth `d`, where every node gives way to a leaf with the most frequent label of the rows that
come to it. -/
def cut (classes : List α) : Nat → List (List α × α) → Node α → Node α
  | 0, rows, _ => leaf (Classes.mostFrequent classes (rows.map Prod.snd)) rows.length
  | _ + 1, _, leaf value n => leaf value n
  | d + 1, rows, split feature threshold left right n =>
    split feature threshold (left.cut classes d (rows.filter fun r => goesLeft feature threshold r.1))
      (right.cut classes d (rows.filter fun r => !goesLeft feature threshold r.1)) n

theorem cut_leaf (classes : List α) (d : Nat) (rows : List (List α × α)) :
    (leaf (Classes.mostFrequent classes (rows.map Prod.snd)) rows.length).cut classes d rows =
      leaf (Classes.mostFrequent classes (rows.map Prod.snd)) rows.length := by
  cases d <;> rfl

/-- Cutting a tree short makes it right for no more of the rows that it was grown from. -/
theorem GrownFrom.hits_cut_le {node : Node α} {rows : List (List α × α)} (h : node.GrownFrom rows) (classes : List α)
    (d : Nat) : (node.cut classes d rows).hits rows ≤ node.hits rows := by
  induction d generalizing node rows with
  | zero =>
    rw [cut, hits_leaf]
    exact h.frequency_le_hits _
  | succ d ih =>
    cases node with
    | leaf value n => exact le_rfl
    | split feature threshold left right n =>
      rw [cut, hits_split, hits_split]
      exact Nat.add_le_add (ih h.2.1) (ih h.2.2)

variable [OrderedScalar α] {σ : Type} [Generator σ] {rules : GrowthRules} {classes : List α} {rows : List (List α × α)}
  {g g' : σ}

/-- Where growth ends it ends with fewer levels too. -/
theorem grow_of_ends (hall : rules.maxFeatures = none) (hclassify : Classes.Classify classes (rows.map Prod.snd))
    {levels : Option Nat} {d : Nat} (hd : ∀ e, levels = some e → d ≤ e)
    (hends : rules.stops levels (ClassCounts.ofLabels classes.length ((rows.map (sampleOf classes)).map (·.label)))
        (rows.map (sampleOf classes)).length = true ∨
      bestSplit γ rules.minLeaf (ClassCounts.ofLabels classes.length ((rows.map (sampleOf classes)).map (·.label)))
        (rows.map (sampleOf classes)) (List.range rules.width) = none) (fuel : Nat) :
    grow γ rules classes (fuel + 1) (some d) (rows.map (sampleOf classes)) g =
      some (leaf (Classes.mostFrequent classes (rows.map Prod.snd)) rows.length, g) := by
  rcases grow_succ_cases γ rules classes fuel (some d) (rows.map (sampleOf classes)) g with
    ⟨g', hends', hleaf⟩ | ⟨best, hgoes, hbest, -⟩
  · rw [GrowthRules.features_eq hall] at hends'
    obtain rfl : g' = g := hends'.elim And.right And.right
    rw [hleaf, ofCounts_sampleOf hclassify]
  · rw [GrowthRules.features_eq hall] at hbest
    rcases hends with hstops | hnone
    · exact Bool.noConfusion (hgoes.symm.trans (GrowthRules.stops_of_le hd hstops))
    · exact absurd (hbest.symm.trans hnone) (Option.some_ne_none best)

/-- A tree that looks at all features draws nothing, and with a lower limit growth makes that tree cut there. -/
theorem grow_cut (hall : rules.maxFeatures = none) {fuel : Nat} {levels : Option Nat} {node : Node α}
    (hclassify : Classes.Classify classes (rows.map Prod.snd))
    (h : grow γ rules classes fuel levels (rows.map (sampleOf classes)) g = some (node, g')) :
    g' = g ∧ ∀ d fuel', d < fuel' → (∀ e, levels = some e → d ≤ e) →
      grow γ rules classes fuel' (some d) (rows.map (sampleOf classes)) g = some (node.cut classes d rows, g) := by
  induction fuel generalizing levels rows g g' node with
  | zero => simp [grow] at h
  | succ fuel ih =>
    rcases grow_eq_some h with ⟨hends, rfl⟩ | ⟨best, left, gl, right, hgoes, hbest, hleft, hright, rfl⟩
    · rw [GrowthRules.features_eq hall] at hends
      refine ⟨hends.elim And.right And.right, fun d fuel' hfuel hd => ?_⟩
      obtain ⟨fuel', rfl⟩ := Nat.exists_eq_succ_of_ne_zero (Nat.ne_zero_of_lt hfuel)
      rw [grow_of_ends hall hclassify hd (hends.imp And.left And.left), ofCounts_sampleOf hclassify, cut_leaf]
    · rw [GrowthRules.features_eq hall] at hbest hleft
      rw [filter_sampleOf classes (goesLeft best.feature best.threshold)] at hleft
      rw [filter_sampleOf classes fun sample => !goesLeft best.feature best.threshold sample] at hright
      obtain ⟨rfl, ihl⟩ := ih (hclassify.filter _) hleft
      obtain ⟨rfl, ihr⟩ := ih (hclassify.filter _) hright
      refine ⟨rfl, fun d fuel' hfuel hd => ?_⟩
      obtain ⟨fuel', rfl⟩ := Nat.exists_eq_succ_of_ne_zero (Nat.ne_zero_of_lt hfuel)
      cases d with
      | zero =>
        have hstops (counts : ClassCounts) (n : Nat) : rules.stops (some 0) counts n = true := by
          simp [GrowthRules.stops]
        exact grow_of_ends hall hclassify (fun e _ => Nat.zero_le e) (.inl (hstops _ _)) fuel'
      | succ d =>
        -- A level less is left for both sides in either run.
        have hlevel : ∀ e, levels.map (· - 1) = some e → d ≤ e := by
          intro e he
          obtain ⟨e', he', rfl⟩ := Option.map_eq_some_iff.1 he
          exact Nat.le_sub_of_add_le (hd e' he')
        rcases grow_succ_cases γ rules classes fuel' (some (d + 1)) (rows.map (sampleOf classes)) g' with
          ⟨_, ⟨hstops, -⟩ | ⟨hnone, -⟩, -⟩ | ⟨best', -, hagain, hsplit⟩
        · exact Bool.noConfusion ((GrowthRules.stops_succ hgoes d).symm.trans hstops)
        · rw [GrowthRules.features_eq hall] at hnone
          exact absurd (hbest.symm.trans hnone) (Option.some_ne_none best)
        · rw [GrowthRules.features_eq hall] at hagain hsplit
          obtain rfl := Option.some.inj (hbest.symm.trans hagain)
          rw [filter_sampleOf classes (goesLeft best.feature best.threshold),
            filter_sampleOf classes fun sample => !goesLeft best.feature best.threshold sample] at hsplit
          rw [hsplit, Option.map_some, Nat.add_sub_cancel, ihl d fuel' (Nat.lt_of_succ_lt_succ hfuel) hlevel,
            Option.bind_some, ihr d fuel' (Nat.lt_of_succ_lt_succ hfuel) hlevel, List.length_map]
          rfl

end Node

namespace DecisionTree

def mistakes (y answers : List α) : Nat := (answers.zip y).countP fun p => !Scalar.same p.1 p.2

/-- Every row is a hit or a mistake. -/
theorem mistakes_add_hits (root : Node α) {x : Matrix α} {y : List α} (hheight : x.height = y.length) :
    mistakes y (x.rows.map root.predict) + root.hits (x.rows.zip y) = y.length := by
  have hlength : ((x.rows.map root.predict).zip y).length = y.length := by
    rw [List.length_zip, List.length_map]
    exact Nat.min_eq_right hheight.ge
  have hsplit := List.length_eq_countP_add_countP (l := (x.rows.map root.predict).zip y) fun p => Scalar.same p.1 p.2
  rw [hlength, countP_answers, Nat.add_comm] at hsplit
  rw [hsplit, mistakes]
  simp only [Bool.not_eq_true, Bool.decide_eq_false]

/-- The tree of a lower limit on the depth is that of a higher one, or of none if growth then ends, cut at the lower
limit; it makes no fewer mistakes on the training rows. -/
theorem fit_cut (γ : Type) [Scalar γ] [OrderedScalar α] (t : DecisionTree α) {x : Matrix α} {y : List α}
    (hheight : x.height = y.length) (hrows : x.rows ≠ []) (hy : ∀ c ∈ y, Scalar.isNumber c = true)
    (hall : t.maxFeatures = none) {d : Nat} {limit : Option Nat} (hd : ∀ e, limit = some e → d ≤ e)
    (hends : limit = none → ∃ u, { t with maxDepth := none }.fit γ x y = .ok u) :
    ∃ u v root, { t with maxDepth := limit }.fit γ x y = .ok u ∧ { t with maxDepth := some d }.fit γ x y = .ok v ∧
      u.root = some root ∧
      v = { u with
        maxDepth := some d, root := some (root.cut (Classes.distinct y) d (x.rows.zip y)) } ∧
      ∃ answers coarse, u.predict x = .ok answers ∧ v.predict x = .ok coarse ∧
        mistakes y answers ≤ mistakes y coarse := by
  have hlabels : (x.rows.zip y).map Prod.snd = y := List.map_snd_zip hheight.ge
  have hclassify : Classes.Classify (Classes.distinct y) ((x.rows.zip y).map Prod.snd) :=
    hlabels.symm ▸ Classes.classify_distinct hy
  obtain ⟨root, g, hgrow⟩ : ∃ root g, Node.grow γ (t.rules x.width) (Classes.distinct y)
      ({ t with maxDepth := limit }.fuel x.height) limit (samplesOf (Classes.distinct y) x y) (ChaCha.ofSeed t.seed) =
        some (root, g) := by
    cases limit with
    | some e => exact Node.exists_grow_of_levels _ _ (Nat.lt_succ_self e) _ _
    | none =>
      obtain ⟨u, hu⟩ := hends rfl
      obtain ⟨-, -, root, g, hgrow, -⟩ := fit_eq_ok hu
      exact ⟨root, g, hgrow⟩
  have hfit := fit_of_grow (t := { t with maxDepth := limit }) hheight hrows hgrow
  rw [samplesOf_eq_map] at hgrow
  have hgrown := Node.grownFrom_of_grow hclassify hgrow
  obtain ⟨rfl, hcut⟩ := Node.grow_cut hall hclassify hgrow
  have hcoarse := hcut d (d + 1) (Nat.lt_succ_self d) hd
  rw [← samplesOf_eq_map] at hcoarse
  refine ⟨_, _, root, hfit, fit_of_grow (t := { t with maxDepth := some d }) hheight hrows hcoarse, rfl, rfl,
    _, _, if_pos rfl, if_pos rfl, ?_⟩
  have hhits := hgrown.hits_cut_le (Classes.distinct y) d
  have hroot := mistakes_add_hits root hheight
  have hcoarseRoot := mistakes_add_hits (root.cut (Classes.distinct y) d (x.rows.zip y)) hheight
  omega

/-- A tree of no levels answers with the lower one of two labels that occur once each. -/
theorem fit_cut_stump : ∃ u v, stump.fit Float (twoRows 1 2) [0, 1] = .ok u ∧
    { stump with maxDepth := some 0 }.fit Float (twoRows 1 2) [0, 1] = .ok v ∧ v.root = some (.leaf 0 2) ∧
    ∃ answers coarse, u.predict (twoRows 1 2) = .ok answers ∧ v.predict (twoRows 1 2) = .ok coarse ∧
      mistakes [0, 1] answers ≤ mistakes [0, 1] coarse := by
  have hlimit : ∀ e, some 1 = some e → 0 ≤ e := fun e _ => Nat.zero_le e
  obtain ⟨u, v, root, hu, hv, -, rfl, hmistakes⟩ := fit_cut (x := twoRows 1 2) (y := [(0 : Float), 1]) Float stump rfl
    (List.cons_ne_nil _ _) (by decide +kernel) rfl hlimit nofun
  have hlowest : Classes.mostFrequent [(0 : Float), 1] [0, 1] = 0 := by decide +kernel
  refine ⟨u, _, hu, hv, ?_, hmistakes⟩
  rw [distinct_zero_one]
  exact congrArg (fun value => some (Node.leaf value 2)) hlowest

end DecisionTree

end PackageTriage
