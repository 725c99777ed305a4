import PackageTriage.Proofs.Random.Draws
import PackageTriage.Proofs.Tree.Counting
import PackageTriage.Tree.Growth

/-!
# What growth makes

A grown tree is a leaf of its samples or a split of them, and what holds of leaves and passes from the two
sides of a split to the split holds of the whole tree. So every leaf answers with a class and every split
asks for a feature that samples have.
-/

namespace PackageTriage

variable {α γ : Type} [Scalar γ]

theorem Candidate.eq_or_eq_of_better {best : Option (Candidate α γ)} {new c : Candidate α γ}
    (h : better best new = some c) : c = new ∨ best = some c := by
  unfold better at h
  extract_lets gained at h
  split_ifs at h
  · exact .inl (Option.some.inj h).symm
  · exact .inr h

/-- A search that at each element keeps what it has or takes the element ends with one of them. -/
theorem mem_of_foldl {β : Type} {step : Option β → β → Option β}
    (hstep : ∀ best b, step best b = best ∨ step best b = some b) {bs : List β} {c : β} {best : Option β}
    (h : bs.foldl step best = some c) : c ∈ bs ∨ best = some c := by
  induction bs generalizing best with
  | nil => exact .inr h
  | cons b bs ih =>
    rcases ih h with hmem | hbest
    · exact .inl (List.mem_cons_of_mem b hmem)
    · rcases hstep best b with hkeep | htake
      · exact .inr (hkeep ▸ hbest)
      · obtain rfl := Option.some.inj (htake.symm.trans hbest)
        exact .inl List.mem_cons_self

theorem mem_of_firstBest {found : List (Candidate α γ)} {c : Candidate α γ} (h : firstBest found = some c) :
    c ∈ found := by
  refine (mem_of_foldl (fun best new => ?_) h).resolve_right (by simp)
  cases best with
  | none => exact .inr rfl
  | some b =>
    dsimp only
    split
    · exact .inl rfl
    · exact .inr rfl

variable [Scalar α]

/-- Along one feature only that feature is a candidate. -/
theorem Sweep.feature_run (minLeaf feature : Nat) (parent : γ) (s : Sweep α γ) (values : List (α × Nat))
    (hs : ∀ c, s.best = some c → c.feature = feature) {c : Candidate α γ}
    (hc : (s.run minLeaf feature parent values).best = some c) : c.feature = feature := by
  fun_induction Sweep.run minLeaf feature parent s values with
  | case1 s v label w next rest ih =>
    refine ih (fun d hd => ?_) hc
    simp only [Sweep.move] at hd
    split at hd
    · exact hs d hd
    · rcases Candidate.eq_or_eq_of_better hd with rfl | hd
      · rfl
      · exact hs d hd
  | case2 s values hshort => exact hs c hc

theorem feature_bestBy {minLeaf feature : Nat} {counts : ClassCounts} {samples : List (TreeSample α)}
    {c : Candidate α γ} (h : bestBy γ minLeaf counts samples feature = some c) : c.feature = feature :=
  Sweep.feature_run minLeaf feature _ _ _ (by simp [Sweep.start]) h

theorem feature_bestSplit {minLeaf : Nat} {counts : ClassCounts} {samples : List (TreeSample α)}
    {features : List Nat} {c : Candidate α γ}
    (h : bestSplit γ minLeaf counts samples features = some c) : c.feature ∈ features := by
  obtain ⟨feature, hfeature, hc⟩ := List.mem_filterMap.1 (mem_of_firstBest h)
  rwa [feature_bestBy hc]

/-- A split looks at features that there are. -/
theorem GrowthRules.features_lt {σ : Type} [Generator σ] (rules : GrowthRules) (g : σ) :
    ∀ f ∈ (rules.features g).1, f < rules.width := by
  intro f hf
  rw [features] at hf
  split at hf
  · next k hk =>
    split at hf
    · next hlt =>
      have hmem : f ∈ (Generator.subset rules.width (max k 1) g).1 := by simpa using hf
      exact Generator.subset_lt (by omega) (by omega) g f hmem
    · simpa using hf
  · simpa using hf

/-- Without a limit on them, all features are looked at and nothing is drawn. -/
theorem GrowthRules.features_eq {σ : Type} [Generator σ] {rules : GrowthRules} (h : rules.maxFeatures = none) (g : σ) :
    rules.features g = (List.range rules.width, g) := by
  rw [features, h]

/-- Growth does not go on where no level is left. -/
theorem GrowthRules.levels_ne {rules : GrowthRules} {levels : Option Nat} {counts : ClassCounts} {n : Nat}
    (h : rules.stops levels counts n = false) : levels ≠ some 0 := by
  rintro rfl
  simp [stops] at h

namespace Node

variable {σ : Type} [Generator σ]

variable (γ) in
/-- With fuel left, growth makes a leaf where it stops or nothing is gained, and grows both sides of the best split
one level lower where it goes on. -/
theorem grow_succ_cases (rules : GrowthRules) (classes : List α) (fuel : Nat) (levels : Option Nat)
    (samples : List (TreeSample α)) (g : σ) :
    (∃ g', (rules.stops levels (ClassCounts.ofLabels classes.length (samples.map (·.label))) samples.length = true ∧
          g' = g ∨
        bestSplit γ rules.minLeaf (ClassCounts.ofLabels classes.length (samples.map (·.label))) samples
          (rules.features g).1 = none ∧ g' = (rules.features g).2) ∧
      grow γ rules classes (fuel + 1) levels samples g = some (ofCounts classes
        (ClassCounts.ofLabels classes.length (samples.map (·.label))) samples.length, g')) ∨
    ∃ best, rules.stops levels (ClassCounts.ofLabels classes.length (samples.map (·.label))) samples.length = false ∧
      bestSplit γ rules.minLeaf (ClassCounts.ofLabels classes.length (samples.map (·.label))) samples
        (rules.features g).1 = some best ∧
      grow γ rules classes (fuel + 1) levels samples g =
        (grow γ rules classes fuel (levels.map (· - 1))
          (samples.filter fun s => goesLeft best.feature best.threshold s.features) (rules.features g).2).bind
        fun left => (grow γ rules classes fuel (levels.map (· - 1))
          (samples.filter fun s => !goesLeft best.feature best.threshold s.features) left.2).map
        fun right => (.split best.feature best.threshold left.1 right.1 samples.length, right.2) := by
  rw [grow]
  dsimp only
  split
  · next hstops => exact .inl ⟨g, .inl ⟨hstops, rfl⟩, rfl⟩
  · next hstops =>
    split
    · next hnone => exact .inl ⟨_, .inr ⟨hnone, rfl⟩, rfl⟩
    · next best hbest =>
      refine .inr ⟨best, Bool.eq_false_of_not_eq_true hstops, hbest, ?_⟩
      rw [List.partition_eq_filter_filter]
      dsimp only [Function.comp_def]
      cases grow γ rules classes fuel (levels.map (· - 1))
          (samples.filter fun s => goesLeft best.feature best.threshold s.features) (rules.features g).2 with
      | none => rfl
      | some left =>
        dsimp only [Option.bind_some]
        cases grow γ rules classes fuel (levels.map (· - 1))
            (samples.filter fun s => !goesLeft best.feature best.threshold s.features) left.2 <;> rfl

/-- So a grown tree is a leaf, or a split whose sides were grown one after the other. -/
theorem grow_eq_some {rules : GrowthRules} {classes : List α} {fuel : Nat} {levels : Option Nat}
    {samples : List (TreeSample α)} {g g' : σ} {node : Node α}
    (h : grow γ rules classes (fuel + 1) levels samples g = some (node, g')) :
    ((rules.stops levels (ClassCounts.ofLabels classes.length (samples.map (·.label))) samples.length = true ∧
          g' = g ∨
        bestSplit γ rules.minLeaf (ClassCounts.ofLabels classes.length (samples.map (·.label))) samples
          (rules.features g).1 = none ∧ g' = (rules.features g).2) ∧
      node = ofCounts classes (ClassCounts.ofLabels classes.length (samples.map (·.label))) samples.length) ∨
    ∃ best left gl right,
      rules.stops levels (ClassCounts.ofLabels classes.length (samples.map (·.label))) samples.length = false ∧
      bestSplit γ rules.minLeaf (ClassCounts.ofLabels classes.length (samples.map (·.label))) samples
        (rules.features g).1 = some best ∧
      grow γ rules classes fuel (levels.map (· - 1))
        (samples.filter fun s => goesLeft best.feature best.threshold s.features) (rules.features g).2 =
          some (left, gl) ∧
      grow γ rules classes fuel (levels.map (· - 1))
        (samples.filter fun s => !goesLeft best.feature best.threshold s.features) gl = some (right, g') ∧
      node = .split best.feature best.threshold left right samples.length := by
  rcases grow_succ_cases γ rules classes fuel levels samples g with ⟨_, hends, hleaf⟩ | ⟨best, hgoes, hbest, hsplit⟩
  · obtain ⟨rfl, rfl⟩ := Prod.mk.inj (Option.some.inj (hleaf.symm.trans h))
    exact .inl ⟨hends, rfl⟩
  · obtain ⟨⟨left, gl⟩, hleft, hrest⟩ := Option.bind_eq_some_iff.1 (hsplit.symm.trans h)
    obtain ⟨⟨right, gr⟩, hright, hnode⟩ := Option.map_eq_some_iff.1 hrest
    obtain ⟨rfl, rfl⟩ := Prod.mk.inj hnode
    exact .inr ⟨best, left, gl, right, hgoes, hbest, hleft, hright, rfl⟩

/-- With a limit on the levels growth comes to an end, whatever the splits do. -/
theorem exists_grow_of_levels (rules : GrowthRules) (classes : List α) {fuel d : Nat} (hd : d < fuel)
    (samples : List (TreeSample α)) (g : σ) :
    ∃ node g', grow γ rules classes fuel (some d) samples g = some (node, g') := by
  induction fuel generalizing d samples g with
  | zero => exact absurd hd (Nat.not_lt_zero d)
  | succ fuel ih =>
    rcases grow_succ_cases γ rules classes fuel (some d) samples g with ⟨g', -, hleaf⟩ | ⟨best, hgoes, -, hsplit⟩
    · exact ⟨_, g', hleaf⟩
    · have hpos : d ≠ 0 := fun hzero => GrowthRules.levels_ne hgoes (congrArg some hzero)
      have hlevel : d - 1 < fuel := by omega
      obtain ⟨left, gl, hleft⟩ := ih hlevel
        (samples.filter fun s => goesLeft best.feature best.threshold s.features) (rules.features g).2
      obtain ⟨right, gr, hright⟩ := ih hlevel
        (samples.filter fun s => !goesLeft best.feature best.threshold s.features) gl
      rw [Option.map_some, hleft, Option.bind_some, hright] at hsplit
      exact ⟨_, gr, hsplit⟩

/-- Growth goes no deeper than it is allowed to. -/
theorem depth_le_of_grow {rules : GrowthRules} {classes : List α} {fuel d : Nat} {samples : List (TreeSample α)}
    {g g' : σ} {node : Node α} (h : grow γ rules classes fuel (some d) samples g = some (node, g')) :
    node.depth ≤ d := by
  induction fuel generalizing d samples g g' node with
  | zero => simp [grow] at h
  | succ fuel ih =>
    rcases grow_eq_some h with ⟨-, rfl⟩ | ⟨best, left, gl, right, hgoes, -, hleft, hright, rfl⟩
    · exact Nat.zero_le d
    · have hpos : d ≠ 0 := fun hzero => GrowthRules.levels_ne hgoes (congrArg some hzero)
      have hl : left.depth ≤ d - 1 := ih hleft
      have hr : right.depth ≤ d - 1 := ih hright
      rw [depth]
      omega

/-- What holds of every leaf of samples, and of a split whenever it holds of both sides, holds of a grown
tree. -/
theorem grow_induction {P : List (TreeSample α) → Node α → Prop} {rules : GrowthRules} {classes : List α}
    (leaf : ∀ samples, P samples (ofCounts classes
      (ClassCounts.ofLabels classes.length (samples.map (·.label))) samples.length))
    (split : ∀ samples feature threshold left right, feature < rules.width →
      P (samples.filter fun s => goesLeft feature threshold s.features) left →
      P (samples.filter fun s => !goesLeft feature threshold s.features) right →
      P samples (.split feature threshold left right samples.length))
    {fuel : Nat} {levels : Option Nat} {samples : List (TreeSample α)} {g g' : σ} {node : Node α}
    (h : grow γ rules classes fuel levels samples g = some (node, g')) : P samples node := by
  -- The fuel goes down by one for both sides, so the induction is on it and not on the samples: a split that
  -- separates nothing hands all of them on.
  induction fuel generalizing levels samples g g' node with
  | zero => simp [grow] at h
  | succ fuel ih =>
    rcases grow_eq_some h with ⟨-, rfl⟩ | ⟨best, left, gl, right, -, hbest, hleft, hright, rfl⟩
    · exact leaf samples
    · have hfeature := rules.features_lt g _ (feature_bestSplit hbest)
      exact split samples best.feature best.threshold left right hfeature (ih hleft) (ih hright)

/-- Leaves answer with classes, and splits ask for features below the width. -/
def Within (width : Nat) (classes : List α) : Node α → Prop
  | .leaf value _ => value ∈ classes
  | .split feature _ left right _ => feature < width ∧ left.Within width classes ∧ right.Within width classes

theorem ofCounts_within {classes : List α} (hclasses : classes ≠ []) (width : Nat)
    (samples : List (TreeSample α)) :
    (ofCounts classes (ClassCounts.ofLabels classes.length (samples.map (·.label)))
      samples.length).Within width classes := by
  have hlt := ClassCounts.majority_ofLabels_lt (List.length_pos_iff.2 hclasses) (samples.map (·.label))
  rw [ofCounts, Within, List.getD_eq_getElem _ _ hlt]
  exact List.getElem_mem hlt

theorem within_of_grow {rules : GrowthRules} {classes : List α} (hclasses : classes ≠ []) {fuel : Nat}
    {levels : Option Nat} {samples : List (TreeSample α)} {g g' : σ} {node : Node α}
    (h : grow γ rules classes fuel levels samples g = some (node, g')) : node.Within rules.width classes :=
  grow_induction (P := fun _ node => node.Within rules.width classes)
    (ofCounts_within hclasses rules.width) (fun _ _ _ _ _ hf hl hr => ⟨hf, hl, hr⟩) h

end Node

end PackageTriage
