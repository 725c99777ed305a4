import PackageTriage.Proofs.Classifier.Fitting
import PackageTriage.Proofs.Classifier.Majority
import PackageTriage.Proofs.Tree.SeparatedFits

/-!
# Ways through a tree

Growth parts the samples of a node just as prediction turns them left and right, so every node of a grown tree has as
many samples as training rows come to it, and a leaf answers with their most frequent label. Whatever split lies above,
the leaves together answer as many training rows right as any one label does.
-/

namespace PackageTriage

variable {α γ : Type} [Scalar α] [Scalar γ]

def sampleOf (classes : List α) (row : List α × α) : TreeSample α :=
  ⟨row.1, (Classes.index? classes row.2).getD 0⟩

theorem filter_sampleOf (classes : List α) (p : List α → Bool) (rows : List (List α × α)) :
    (rows.map (sampleOf classes)).filter (fun s => p s.features) =
      (rows.filter fun r => p r.1).map (sampleOf classes) := List.filter_map ..

theorem DecisionTree.samplesOf_eq_map (classes : List α) (x : Matrix α) (y : List α) :
    samplesOf classes x y = (x.rows.zip y).map (sampleOf classes) := by
  rw [samplesOf, Classes.indices, List.zipWith_map_right, ← List.map_uncurry_zip_eq_zipWith]
  rfl

namespace Node

/-- The turns of a sample down to its leaf, `true` for the left. -/
def route (sample : List α) : Node α → List Bool
  | leaf _ _ => []
  | split feature threshold left right _ =>
    if goesLeft feature threshold sample then true :: left.route sample else false :: right.route sample

def at? : List Bool → Node α → Option (Node α)
  | [], node => some node
  | true :: turns, split _ _ left _ _ => left.at? turns
  | false :: turns, split _ _ _ right _ => right.at? turns
  | _ :: _, leaf _ _ => none

def through (root : Node α) (turns : List Bool) (rows : List (List α × α)) : List (List α × α) :=
  rows.filter fun r => turns.isPrefixOf (root.route r.1)

/-- Every node has as many samples as rows come to it, and a leaf with rows answers with their most frequent label. -/
def GrownFrom (rows : List (List α × α)) : Node α → Prop
  | leaf value n => n = rows.length ∧ (rows ≠ [] → Classes.IsMostFrequent (rows.map Prod.snd) value)
  | split feature threshold left right n => n = rows.length ∧
    left.GrownFrom (rows.filter fun r => goesLeft feature threshold r.1) ∧
    right.GrownFrom (rows.filter fun r => !goesLeft feature threshold r.1)

/-- How many rows are answered with their label. -/
def hits (rows : List (List α × α)) (node : Node α) : Nat :=
  rows.countP fun r => Scalar.same (node.predict r.1) r.2

/-- A sample is answered by the leaf at the end of its route. -/
theorem exists_at?_route (root : Node α) (sample : List α) :
    ∃ n, root.at? (root.route sample) = some (.leaf (root.predict sample) n) := by
  induction root with
  | leaf value n => exact ⟨n, rfl⟩
  | split feature threshold left right n ihl ihr =>
    rw [route, predict]
    split
    · exact ihl
    · exact ihr

theorem through_left (feature : Nat) (threshold : α) (left right : Node α) (n : Nat) (turns : List Bool)
    (rows : List (List α × α)) : (split feature threshold left right n).through (true :: turns) rows =
      left.through turns (rows.filter fun r => goesLeft feature threshold r.1) := by
  rw [through, through, List.filter_filter]
  refine List.filter_congr fun r _ => ?_
  cases hgoes : goesLeft feature threshold r.1 <;> simp [route, hgoes, List.isPrefixOf_cons_cons]

theorem through_right (feature : Nat) (threshold : α) (left right : Node α) (n : Nat) (turns : List Bool)
    (rows : List (List α × α)) : (split feature threshold left right n).through (false :: turns) rows =
      right.through turns (rows.filter fun r => !goesLeft feature threshold r.1) := by
  rw [through, through, List.filter_filter]
  refine List.filter_congr fun r _ => ?_
  cases hgoes : goesLeft feature threshold r.1 <;> simp [route, hgoes, List.isPrefixOf_cons_cons]

theorem hits_leaf (value : α) (n : Nat) (rows : List (List α × α)) :
    (leaf value n).hits rows = Classes.frequency (rows.map Prod.snd) value := by
  rw [Classes.frequency, List.countP_map]
  rfl

theorem hits_split (feature : Nat) (threshold : α) (left right : Node α) (n : Nat) (rows : List (List α × α)) :
    (split feature threshold left right n).hits rows =
      left.hits (rows.filter fun r => goesLeft feature threshold r.1) +
        right.hits (rows.filter fun r => !goesLeft feature threshold r.1) := by
  rw [hits, List.countP_eq_countP_filter_add _ _ fun r => goesLeft feature threshold r.1]
  congr 1 <;> refine List.countP_congr fun r hr => ?_
  · rw [predict, if_pos (List.mem_filter.1 hr).2]
  · rw [predict, if_neg (by simpa using (List.mem_filter.1 hr).2)]

theorem GrownFrom.samples_eq {node : Node α} {rows : List (List α × α)} (h : node.GrownFrom rows) :
    node.samples = rows.length := by
  cases node with
  | leaf value n => exact h.1
  | split feature threshold left right n => exact h.1

/-- What holds at the root holds at every node, for the rows that come through it. -/
theorem GrownFrom.at? {root node : Node α} {rows : List (List α × α)} (h : root.GrownFrom rows) {turns : List Bool}
    (hnode : root.at? turns = some node) : node.GrownFrom (root.through turns rows) := by
  induction turns generalizing root rows with
  | nil =>
    obtain rfl := Option.some.inj hnode
    simpa [through] using h
  | cons turn turns ih =>
    cases root with
    | leaf value n => cases turn <;> cases hnode
    | split feature threshold left right n =>
      cases turn with
      | true =>
        rw [through_left]
        exact ih h.2.1 hnode
      | false =>
        rw [through_right]
        exact ih h.2.2 hnode

omit [Scalar α] in
theorem Within.at? {width : Nat} {classes : List α} {root node : Node α} (h : root.Within width classes)
    {turns : List Bool} (hnode : root.at? turns = some node) : node.Within width classes := by
  induction turns generalizing root with
  | nil => exact Option.some.inj hnode ▸ h
  | cons turn turns ih =>
    cases root with
    | leaf value n => cases turn <;> cases hnode
    | split feature threshold left right n =>
      cases turn with
      | true => exact ih h.2.1 hnode
      | false => exact ih h.2.2 hnode

/-- A grown tree answers as many rows right as any one label does. -/
theorem GrownFrom.frequency_le_hits {node : Node α} {rows : List (List α × α)} (h : node.GrownFrom rows) (c : α) :
    Classes.frequency (rows.map Prod.snd) c ≤ node.hits rows := by
  induction node generalizing rows with
  | leaf value n =>
    rcases eq_or_ne rows [] with rfl | hrows
    · exact le_rfl
    · have hmost := (h.2 hrows).most c
      rwa [Classes.frequency.eq_1 _ value, List.countP_map] at hmost
  | split feature threshold left right n ihl ihr =>
    have hleft := ihl h.2.1
    have hright := ihr h.2.2
    rw [Classes.frequency, List.countP_map] at hleft hright ⊢
    rw [hits_split, List.countP_eq_countP_filter_add _ _ fun r => goesLeft feature threshold r.1]
    exact Nat.add_le_add hleft hright

/-- A leaf of the samples of rows answers with their most frequent label. -/
theorem ofCounts_sampleOf [OrderedScalar α] {classes : List α} {rows : List (List α × α)}
    (hclassify : Classes.Classify classes (rows.map Prod.snd)) :
    ofCounts classes (ClassCounts.ofLabels classes.length ((rows.map (sampleOf classes)).map (·.label)))
      (rows.map (sampleOf classes)).length =
        .leaf (Classes.mostFrequent classes (rows.map Prod.snd)) rows.length := by
  have hlabels : (rows.map (sampleOf classes)).map (·.label) = Classes.indices classes (rows.map Prod.snd) := by
    rw [Classes.indices, List.map_map, List.map_map]
    rfl
  rw [hlabels, hclassify.ofCounts, List.length_map]

/-- Growth keeps track of the rows it was handed, at every node. -/
theorem grownFrom_of_grow [OrderedScalar α] {σ : Type} [Generator σ] {rules : GrowthRules} {classes : List α}
    {fuel : Nat} {levels : Option Nat} {rows : List (List α × α)} {g g' : σ} {node : Node α}
    (hclassify : Classes.Classify classes (rows.map Prod.snd))
    (h : grow γ rules classes fuel levels (rows.map (sampleOf classes)) g = some (node, g')) : node.GrownFrom rows := by
  refine grow_induction (P := fun samples node => ∀ rows : List (List α × α), samples = rows.map (sampleOf classes) →
    Classes.Classify classes (rows.map Prod.snd) → node.GrownFrom rows) ?_ ?_ h rows rfl hclassify
  · rintro _ rows rfl hclassify
    rw [ofCounts_sampleOf hclassify]
    exact ⟨rfl, fun hrows => hclassify.isMostFrequent (by simpa using hrows)⟩
  · rintro _ feature threshold left right - hleft hright rows rfl hclassify
    exact ⟨List.length_map _, hleft _ (filter_sampleOf classes (goesLeft feature threshold) rows) (hclassify.filter _),
      hright _ (filter_sampleOf classes (fun sample => !goesLeft feature threshold sample) rows) (hclassify.filter _)⟩

end Node

namespace DecisionTree

variable {t u : DecisionTree α} {x : Matrix α} {y : List α}

/-- The answers for the training rows that are right are counted by the hits of the tree. -/
theorem countP_answers (root : Node α) (x : Matrix α) (y : List α) :
    ((x.rows.map root.predict).zip y).countP (fun p => Scalar.same p.1 p.2) = root.hits (x.rows.zip y) := by
  rw [List.zip_map_left, List.countP_map]
  rfl

/-- Every node of a fitted tree has as many samples as training rows come through it, and those of a split are shared
by its sides; a leaf that rows come to answers with their most frequent label, the lowest on ties. Splits ask for
features that there are, none lies deeper than allowed, and no label alone is right for more training rows. -/
theorem routes_of_fit (γ : Type) [Scalar γ] [OrderedScalar α] (hy : ∀ c ∈ y, Scalar.isNumber c = true)
    (h : t.fit γ x y = .ok u) :
    ∃ root, u.root = some root ∧ root.samples = x.height ∧
      (∀ row, ∃ n, root.at? (root.route row) = some (.leaf (root.predict row) n)) ∧
      (∀ turns node, root.at? turns = some node → node.samples = (root.through turns (x.rows.zip y)).length) ∧
      (∀ turns value n, root.at? turns = some (.leaf value n) → root.through turns (x.rows.zip y) ≠ [] →
        Classes.IsMostFrequent ((root.through turns (x.rows.zip y)).map Prod.snd) value) ∧
      (∀ turns feature threshold left right n, root.at? turns = some (.split feature threshold left right n) →
        feature < x.width ∧ n = left.samples + right.samples) ∧
      (∀ d, t.maxDepth = some d → root.depth ≤ d) ∧
      ∃ answers, u.predict x = .ok answers ∧
        ∀ c, Classes.frequency y c ≤ (answers.zip y).countP fun p => Scalar.same p.1 p.2 := by
  obtain ⟨hheight, hrows, root, g, hgrow, rfl⟩ := fit_eq_ok h
  have hlabels : (x.rows.zip y).map Prod.snd = y := List.map_snd_zip hheight.ge
  have hclasses : Classes.distinct y ≠ [] := by
    rw [ne_eq, Classes.distinct_eq_nil, ← List.length_eq_zero_iff, ← hheight]
    exact fun hzero => hrows (List.length_eq_zero_iff.1 hzero)
  have hwithin := Node.within_of_grow hclasses hgrow
  rw [samplesOf_eq_map] at hgrow
  have hgrown := Node.grownFrom_of_grow (hlabels.symm ▸ Classes.classify_distinct hy) hgrow
  refine ⟨root, rfl, ?_, root.exists_at?_route, fun turns node hnode => (hgrown.at? hnode).samples_eq,
    fun turns value n hleaf => (hgrown.at? hleaf).2, fun turns feature threshold left right n hsplit => ?_,
    fun d hd => ?_, x.rows.map root.predict, if_pos rfl, fun c => ?_⟩
  · rw [hgrown.samples_eq, List.length_zip, ← hheight]
    exact Nat.min_self _
  · obtain ⟨hn, hleft, hright⟩ := hgrown.at? hsplit
    refine ⟨(hwithin.at? hsplit).1, ?_⟩
    rw [hn, hleft.samples_eq, hright.samples_eq]
    exact List.length_eq_length_filter_add _
  · rw [hd] at hgrow
    exact Node.depth_le_of_grow hgrow
  · have hhits := hgrown.frequency_le_hits c
    rwa [hlabels, ← countP_answers] at hhits

/-- Two rows with different labels, and a tree of one level. -/
theorem routes_of_fit_stump : ∃ u root, stump.fit Float (twoRows 1 2) [0, 1] = .ok u ∧ u.root = some root ∧
    root.samples = 2 ∧ root.depth ≤ 1 ∧
    ∃ answers, u.predict (twoRows 1 2) = .ok answers ∧
      1 ≤ (answers.zip [0, 1]).countP fun p => Scalar.same p.1 p.2 := by
  obtain ⟨root, g, hgrow⟩ := Node.exists_grow_of_levels (γ := Float) (stump.rules 1) (Classes.distinct [0, 1])
    (Nat.lt_succ_self 1) (samplesOf (Classes.distinct [0, 1]) (twoRows 1 2) [0, 1]) (ChaCha.ofSeed stump.seed)
  have hfit := fit_of_grow (t := stump) (y := [(0 : Float), 1]) rfl (List.cons_ne_nil _ _) hgrow
  obtain ⟨root, hroot, hsamples, -, -, -, -, hdepth, answers, hpredict, hright⟩ :=
    routes_of_fit (y := [(0 : Float), 1]) Float (by decide +kernel) hfit
  have hone : Classes.frequency [(0 : Float), 1] 0 = 1 := by decide +kernel
  exact ⟨_, root, hfit, hroot, hsamples, hdepth 1 rfl, answers, hpredict, hone ▸ hright 0⟩

end DecisionTree

end PackageTriage
