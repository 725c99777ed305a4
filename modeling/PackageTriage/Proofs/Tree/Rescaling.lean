import PackageTriage.Proofs.Scalar.Reals
import PackageTriage.Proofs.Tree.Growth
import PackageTriage.Scaling.Scaler

/-!
# Growth on another scale

A tree compares values of one feature with each other and with points halfway between two of them. Moving
every column by a centre and dividing it by a positive scale keeps the order of its values and what lies
halfway, and the gains depend on counts alone. So growth takes the same course on either scale, draws the
same features, and the thresholds are those of the other tree, moved and divided likewise.
-/

namespace PackageTriage

/-- A centre and a positive scale for each of the first columns of a matrix; the columns behind them stay. -/
structure Rescaling where
  center : List ℝ
  scale : List ℝ
  length_scale : scale.length = center.length
  scale_pos : ∀ s ∈ scale, 0 < s

namespace Rescaling

variable (r : Rescaling)

noncomputable def value (j : Nat) (v : ℝ) : ℝ := (v - r.center.getD j 0) / r.scale.getD j 1

noncomputable def row : List ℝ → List ℝ := Scaler.scaleRow r.center r.scale

theorem length_row (vs : List ℝ) : (r.row vs).length = vs.length := Scaler.length_scaleRow _ _ vs

theorem getD_scaleRow {cs ss vs : List ℝ} (hlength : ss.length = cs.length) {j : Nat} (hj : j < vs.length) :
    (Scaler.scaleRow cs ss vs).getD j 0 = (vs.getD j 0 - cs.getD j 0) / ss.getD j 1 := by
  induction vs generalizing cs ss j with
  | nil => simp at hj
  | cons v vs ih =>
    match cs, ss, hlength with
    | [], [], _ => simp [Scaler.scaleRow]
    | c :: cs, s :: ss, hlength =>
      cases j with
      | zero => rfl
      | succ j => exact ih (Nat.succ.inj hlength) (Nat.lt_of_succ_lt_succ hj)

theorem getD_row {vs : List ℝ} {j : Nat} (hj : j < vs.length) :
    (r.row vs).getD j 0 = r.value j (vs.getD j 0) := getD_scaleRow r.length_scale hj

theorem getD_scale_pos (j : Nat) : 0 < r.scale.getD j 1 := by
  rcases lt_or_ge j r.scale.length with hj | hj
  · rw [List.getD_eq_getElem _ _ hj]
    exact r.scale_pos _ (List.getElem_mem hj)
  · rw [List.getD_eq_default _ _ hj]
    exact one_pos

variable {r} {j : Nat} {v w : ℝ}

/-- Positive scales keep the order. -/
theorem value_le_value : r.value j v ≤ r.value j w ↔ v ≤ w := by
  rw [value, value, div_le_div_iff_of_pos_right (r.getD_scale_pos j), sub_le_sub_iff_right]

theorem value_inj : r.value j v = r.value j w ↔ v = w := by
  simp only [le_antisymm_iff, value_le_value]

/-- What lies halfway between two values still does. -/
theorem value_halfway : r.value j ((v + w) / 2) = (r.value j v + r.value j w) / 2 := by
  have hs := (r.getD_scale_pos j).ne'
  simp only [value]
  field_simp
  ring

section

variable {γ : Type} [Scalar γ]

variable (r) in
noncomputable def candidate (c : Candidate ℝ γ) : Candidate ℝ γ :=
  { c with threshold := r.value c.feature c.threshold }

variable (r) in
noncomputable def sweep (s : Sweep ℝ γ) : Sweep ℝ γ := { s with best := s.best.map r.candidate }

theorem better_candidate (best : Option (Candidate ℝ γ)) (new : Candidate ℝ γ) :
    Candidate.better (best.map r.candidate) (r.candidate new) = (Candidate.better best new).map r.candidate := by
  cases best with
  | none =>
    simp only [Candidate.better, apply_ite (Option.map r.candidate)]
    rfl
  | some b =>
    simp only [Candidate.better, apply_ite (Option.map r.candidate)]
    rfl

theorem move_sweep (minLeaf : Nat) (parent : γ) (s : Sweep ℝ γ) (label : Nat) :
    (r.sweep s).move minLeaf j parent (r.value j v) (r.value j w) label =
      r.sweep (s.move minLeaf j parent v w label) := by
  have hsame : Scalar.same (r.value j v) (r.value j w) = Scalar.same v w := by simp [value_inj]
  have hhalfway : (r.value j v + r.value j w) / Scalar.two = r.value j ((v + w) / Scalar.two) := by
    rw [Scalar.two_real]
    exact value_halfway.symm
  simp only [Sweep.move, sweep, hsame, hhalfway, apply_ite (Option.map r.candidate), ← better_candidate]
  rfl

theorem run_sweep (minLeaf : Nat) (parent : γ) (s : Sweep ℝ γ) (values : List (ℝ × Nat)) :
    (r.sweep s).run minLeaf j parent (values.map (Prod.map (r.value j) id)) =
      r.sweep (s.run minLeaf j parent values) := by
  fun_induction Sweep.run minLeaf j parent s values with
  | case1 s v label w next rest ih =>
    simp only [List.map_cons, Prod.map_apply, id_eq] at ih ⊢
    rw [Sweep.run, move_sweep, ih]
  | case2 values s hshort =>
    match values, hshort with
    | [], _ => rfl
    | [_], _ => rfl
    | (v, label) :: (w, next) :: rest, hshort => exact absurd rfl (hshort v label w next rest)

end

variable (r)

noncomputable def sample (s : TreeSample ℝ) : TreeSample ℝ := { s with features := r.row s.features }

/-- The samples of a node come in the same order, one feature at a time. -/
theorem sortedBy_sample {samples : List (TreeSample ℝ)} (hj : ∀ s ∈ samples, j < s.features.length) :
    sortedBy j (samples.map r.sample) = (sortedBy j samples).map (Prod.map (r.value j) id) := by
  have hvalues : (samples.map r.sample).map (fun s => (s.features.getD j 0, s.label)) =
      (samples.map fun s => (s.features.getD j 0, s.label)).map (Prod.map (r.value j) id) := by
    rw [List.map_map, List.map_map]
    refine List.map_congr_left fun s hs => ?_
    simp only [Function.comp_apply, sample, r.getD_row (hj s hs), Prod.map_apply, id_eq]
  rw [sortedBy, hvalues, sortedBy, List.map_mergeSort]
  intro a _ b _
  simp [value_le_value]

section

variable {γ : Type} [Scalar γ]

theorem bestBy_sample (minLeaf : Nat) (counts : ClassCounts) {samples : List (TreeSample ℝ)}
    (hj : ∀ s ∈ samples, j < s.features.length) :
    bestBy γ minLeaf counts (samples.map r.sample) j = (bestBy γ minLeaf counts samples j).map r.candidate := by
  rw [bestBy, r.sortedBy_sample hj, List.length_map]
  exact congrArg Sweep.best (run_sweep minLeaf _ (Sweep.start counts samples.length) _)

theorem firstBest_candidate (found : List (Candidate ℝ γ)) :
    firstBest (found.map r.candidate) = (firstBest found).map r.candidate := by
  rw [firstBest, List.foldl_map]
  refine @List.foldl_hom _ _ _ (Option.map r.candidate) _ _ found none fun best new => ?_
  cases best with
  | none => rfl
  | some b =>
    simp only [apply_ite (Option.map r.candidate)]
    rfl

/-- The best split of rescaled samples is the rescaled one. -/
theorem bestSplit_sample (minLeaf : Nat) (counts : ClassCounts) {samples : List (TreeSample ℝ)}
    {features : List Nat} (hfeatures : ∀ j ∈ features, ∀ s ∈ samples, j < s.features.length) :
    bestSplit γ minLeaf counts (samples.map r.sample) features =
      (bestSplit γ minLeaf counts samples features).map r.candidate := by
  rw [bestSplit, bestSplit, ← firstBest_candidate, List.map_filterMap]
  congr 1
  exact List.filterMap_congr fun j hj => r.bestBy_sample minLeaf counts (hfeatures j hj)

end

noncomputable def node : Node ℝ → Node ℝ
  | .leaf value n => .leaf value n
  | .split feature threshold left right n =>
    .split feature (r.value feature threshold) (node left) (node right) n

/-- A rescaled row turns where the row turns. -/
theorem goesLeft_row {vs : List ℝ} {threshold : ℝ} (hj : j < vs.length) :
    Node.goesLeft j (r.value j threshold) (r.row vs) = Node.goesLeft j threshold vs := by
  rw [Node.goesLeft, Node.goesLeft, r.getD_row hj, Scalar.atMost_real, Scalar.atMost_real]
  exact decide_eq_decide.2 value_le_value

/-- The tree on the new scale answers for a row on the new scale as the tree does for the row. -/
theorem predict_node {width : Nat} {classes vs : List ℝ} (hvs : vs.length = width) {t : Node ℝ}
    (ht : t.Within width classes) : (r.node t).predict (r.row vs) = t.predict vs := by
  induction t with
  | leaf value n => rfl
  | split feature threshold left right n ihl ihr =>
    obtain ⟨hfeature, hleft, hright⟩ := ht
    rw [node, Node.predict, Node.predict, r.goesLeft_row (hvs ▸ hfeature), ihl hleft, ihr hright]

section

variable {γ σ : Type} [Scalar γ] [Generator σ]

/-- Samples on the new scale go to the sides that they went to. -/
theorem filter_sample {samples : List (TreeSample ℝ)} (threshold : ℝ)
    (hj : ∀ s ∈ samples, j < s.features.length) (p : Bool → Bool) :
    (samples.map r.sample).filter (fun s => p (Node.goesLeft j (r.value j threshold) s.features)) =
      (samples.filter fun s => p (Node.goesLeft j threshold s.features)).map r.sample := by
  rw [List.filter_map]
  congr 1
  refine List.filter_congr fun s hs => ?_
  rw [Function.comp_apply, sample, r.goesLeft_row (hj s hs)]

/-- Growth takes the same course on the new scale, and the generator with it. -/
theorem grow_sample {rules : GrowthRules} (classes : List ℝ) {fuel : Nat} {levels : Option Nat}
    {samples : List (TreeSample ℝ)} (hwidth : ∀ s ∈ samples, s.features.length = rules.width) (g : σ) :
    Node.grow γ rules classes fuel levels (samples.map r.sample) g =
      (Node.grow γ rules classes fuel levels samples g).map (Prod.map r.node id) := by
  -- As the growth itself, the induction is on the fuel: a side of a split may be all of the samples.
  induction fuel generalizing levels samples g with
  | zero => rfl
  | succ fuel ih =>
    have hlabels : (samples.map r.sample).map (·.label) = samples.map (·.label) := by
      rw [List.map_map]
      rfl
    have hsplit := r.bestSplit_sample (γ := γ) rules.minLeaf
      (ClassCounts.ofLabels classes.length (samples.map (·.label)))
      fun j hj s hs => (hwidth s hs ▸ rules.features_lt g j hj : j < s.features.length)
    simp only [Node.grow, hlabels, List.length_map, hsplit]
    split
    · rfl
    · cases hbest : bestSplit γ rules.minLeaf _ samples (rules.features g).1 with
      | none => rfl
      | some best =>
        have hfeature : ∀ s ∈ samples, best.feature < s.features.length := fun s hs =>
          hwidth s hs ▸ rules.features_lt g _ (feature_bestSplit hbest)
        have hside (p : TreeSample ℝ → Bool) (g : σ) :
            Node.grow γ rules classes fuel (levels.map (· - 1)) ((samples.filter p).map r.sample) g = _ :=
          ih (fun s hs => hwidth s (List.mem_of_mem_filter hs)) g
        have hleft := r.filter_sample best.threshold hfeature id
        have hright := r.filter_sample best.threshold hfeature (!·)
        simp only [id_eq] at hleft
        simp only [Option.map_some, List.partition_eq_filter_filter, Function.comp_def, candidate, hleft, hright,
          hside]
        cases hl : Node.grow γ rules classes fuel (levels.map (· - 1))
            (samples.filter fun s => Node.goesLeft best.feature best.threshold s.features) (rules.features g).2 with
        | none => rfl
        | some left =>
          simp only [Option.map_some, Prod.map_fst, Prod.map_snd, id_eq]
          cases hr : Node.grow γ rules classes fuel (levels.map (· - 1))
              (samples.filter fun s => !Node.goesLeft best.feature best.threshold s.features) left.2 with
          | none => rfl
          | some right => rfl

end

end Rescaling

end PackageTriage
