import PackageTriage.Proofs.Classifier.Width
import PackageTriage.Proofs.Tree.SeparatedFits

/-!
# Checked learning

Fitting looks up the class of every label and the majority class of every leaf, and where there is none the
definitions take the first class, or zero. The look-ups below give nothing then. What fitting found is stated in terms
of them, so it never fell back on a class that a label or a leaf does not have.
-/

namespace PackageTriage

section

variable {α : Type} [Scalar α] {x : Matrix α} {y : List α}

/-- The places of labels among the classes, if each of them has one. -/
def Classes.indices? (classes y : List α) : Option (List Nat) := y.mapM (index? classes)

/-- Labels that are the same as themselves have their places among the classes that were found for them. -/
theorem Classes.indices?_distinct (hy : ∀ c ∈ y, Scalar.same c c = true) :
    indices? (distinct y) y = some (indices (distinct y) y) := by
  refine mapM_eq_some_map fun c hc => ?_
  obtain ⟨place, hplace⟩ := exists_index?_distinct (hy c hc) hc
  rw [hplace, Option.getD_some]

def DecisionTree.samplesOf? (classes : List α) (x : Matrix α) (y : List α) : Option (List (TreeSample α)) := do
  return List.zipWith TreeSample.mk x.rows (← Classes.indices? classes y)

/-- No label falls back to the first class where every label equals itself. -/
theorem DecisionTree.samplesOf?_distinct (hy : ∀ c ∈ y, Scalar.same c c = true) :
    samplesOf? (Classes.distinct y) x y = some (samplesOf (Classes.distinct y) x y) := by
  rw [samplesOf?, Classes.indices?_distinct hy]
  rfl

namespace Node

omit [Scalar α] in
/-- A leaf with the majority class of its samples, if that is a class. -/
def ofCounts? (classes : List α) (counts : ClassCounts) (n : Nat) : Option (Node α) :=
  classes[counts.majority]?.map (leaf · n)

/-- Every split asks for a feature that there is, and every leaf is found for the samples that come to it. -/
def LearnedFrom (width : Nat) (classes : List α) : List (TreeSample α) → Node α → Prop
  | samples, leaf value n =>
    ofCounts? classes (ClassCounts.ofLabels classes.length (samples.map (·.label))) samples.length =
      some (leaf value n)
  | samples, split feature threshold left right _ =>
    feature < width ∧
    left.LearnedFrom width classes (samples.filter fun s => goesLeft feature threshold s.features) ∧
    right.LearnedFrom width classes (samples.filter fun s => !goesLeft feature threshold s.features)

/-- Where there is a class, some class has the majority. -/
theorem ofCounts?_ofLabels {classes : List α} (hclasses : classes ≠ []) (labels : List Nat) (n : Nat) :
    ofCounts? classes (ClassCounts.ofLabels classes.length labels) n =
      some (ofCounts classes (ClassCounts.ofLabels classes.length labels) n) := by
  have hlt := ClassCounts.majority_ofLabels_lt (List.length_pos_iff.2 hclasses) labels
  rw [ofCounts?, List.getElem?_eq_getElem hlt, ofCounts, List.getD_eq_getElem _ _ hlt]
  rfl

theorem learnedFrom_of_grow {γ σ : Type} [Scalar γ] [Generator σ] {rules : GrowthRules} {classes : List α}
    (hclasses : classes ≠ []) {fuel : Nat} {levels : Option Nat} {samples : List (TreeSample α)} {g g' : σ}
    {node : Node α} (h : grow γ rules classes fuel levels samples g = some (node, g')) :
    node.LearnedFrom rules.width classes samples :=
  grow_induction (P := fun samples node => node.LearnedFrom rules.width classes samples)
    (fun _ => ofCounts?_ofLabels hclasses _ _) (fun _ _ _ _ _ hf hl hr => ⟨hf, hl, hr⟩) h

end Node

/-- The classes are those of the labels, every sample has the class of its own label, and the tree is grown from
these samples. -/
structure DecisionTree.LearnedFrom (x : Matrix α) (y : List α) (t : DecisionTree α) : Prop where
  classes : t.classes = Classes.distinct y
  samples : samplesOf? t.classes x y = some (samplesOf t.classes x y)
  nodes : ∃ root, t.root = some root ∧ root.LearnedFrom x.width t.classes (samplesOf t.classes x y)

theorem DecisionTree.learnedFrom_of_fit {γ : Type} [Scalar γ] {t u : DecisionTree α} (h : t.fit γ x y = .ok u)
    (hy : ∀ c ∈ y, Scalar.same c c = true) : u.LearnedFrom x y := by
  obtain ⟨hheight, hrows, root, g, hgrow, rfl⟩ := fit_eq_ok h
  exact ⟨rfl, samplesOf?_distinct hy, root, rfl,
    Node.learnedFrom_of_grow (Matrix.distinct_ne_nil hrows hheight) hgrow⟩

namespace Forest

/-- Every label has a class, and every tree learned from rows and labels that there are, at the places it drew. -/
structure LearnedFrom (x : Matrix α) (y : List α) (f : Forest α) : Prop where
  classes : f.classes = Classes.distinct y
  places : Classes.indices? f.classes y = some (Classes.indices f.classes y)
  size : f.trees.length = f.size
  trees : ∀ place t, f.trees[place]? = some t → ∃ labels,
    (f.drawn x.height place).1.mapM (x.rows[·]?) = some (x.select (f.drawn x.height place).1).rows ∧
      (f.drawn x.height place).1.mapM (y[·]?) = some labels ∧
        t.LearnedFrom (x.select (f.drawn x.height place).1) labels

variable {γ : Type} [Scalar γ]

/-- The labels of drawn samples are labels. -/
theorem mem_of_mem_drawn {f : Forest α} (hrows : x.rows ≠ []) (hheight : x.height = y.length) {place : Nat}
    {c : α} (hc : c ∈ (f.drawn x.height place).1.map fun i => y.getD i 0) : c ∈ y := by
  obtain ⟨i, hi, rfl⟩ := List.mem_map.1 hc
  have hpos : 0 < x.height := List.length_pos_iff.2 hrows
  have hlt : i < y.length := hheight ▸ f.drawn_lt hpos place i hi
  rw [List.getD_eq_getElem _ _ hlt]
  exact List.getElem_mem hlt

theorem learnedFrom_of_fit {f g : Forest α} (h : f.fit γ x y = .ok g) (hy : ∀ c ∈ y, Scalar.same c c = true) :
    g.LearnedFrom x y := by
  have hsize := length_trees_of_fit h
  obtain ⟨hheight, -, hrows, trees, htrees, rfl⟩ := fit_eq_ok h
  refine ⟨rfl, Classes.indices?_distinct hy, hsize, fun place t ht => ?_⟩
  have hplace : place < f.size := hsize ▸ (List.getElem?_eq_some_iff.1 ht).1
  have hfit := forall₂_getElem? (forall₂_of_mapM htrees) (List.getElem?_range hplace) ht
  have hdrawn : ∀ i ∈ (f.drawn x.height place).1, i < x.height :=
    f.drawn_lt (List.length_pos_iff.2 hrows) place
  refine ⟨(f.drawn x.height place).1.map fun i => y.getD i 0, ?_, ?_, ?_⟩
  · exact (Matrix.rows_select hdrawn).symm ▸ mapM_getElem? hdrawn []
  · exact mapM_getElem? (hheight ▸ hdrawn) 0
  · exact DecisionTree.learnedFrom_of_fit hfit fun c hc => hy c (mem_of_mem_drawn hrows hheight hc)

/-- A forest of trees with a limit on their depth is fitted to any rows with labels. -/
theorem exists_fit_of_maxDepth {f : Forest α} {d : Nat} (hd : f.maxDepth = some d) (hsize : f.size ≠ 0)
    (hheight : x.height = y.length) (hrows : x.rows ≠ []) : ∃ g, f.fit γ x y = .ok g := by
  have htree : ∀ place ∈ List.range f.size, ∃ t, f.fitTree γ x y place = .ok t := by
    intro place _
    have hselect := f.height_select_drawn hrows place
    have hrows' : (x.select (f.drawn x.height place).1).rows ≠ [] := by
      rw [← List.length_pos_iff]
      exact lt_of_lt_of_eq (List.length_pos_iff.2 hrows) hselect.symm
    rw [fitTree_eq]
    exact DecisionTree.exists_fit_of_maxDepth (by rw [hselect, List.length_map, length_drawn]) hrows' hd
  obtain ⟨trees, htrees⟩ := exists_mapM_eq_ok htree
  exact ⟨{ f with trees, width := x.width, classes := Classes.distinct y }, by
    simp [fit, refit, hheight, hsize, hrows, htrees]⟩

end Forest

theorem Classifier.exists_fit_forest {trees d : Nat} (htrees : trees ≠ 0) (hheight : x.height = y.length)
    (hrows : x.rows ≠ []) : ∃ f, Classifier.fit (.randomForest trees (some d)) x y = .ok (.forest f) := by
  obtain ⟨f, hf⟩ := Forest.exists_fit_of_maxDepth (γ := Float) (f := { Forest.unfitted trees with maxDepth := some d })
    rfl htrees hheight hrows
  exact ⟨f, by rw [fit, if_pos hheight, fitNew, hf]; rfl⟩

def Network.targets? (classes y : List α) : Option (List (List α)) :=
  y.mapM fun c => do
    let place ← Classes.index? classes c
    return (List.range classes.length).map fun j => if j = place then 1 else 0

theorem Network.targets?_distinct (hy : ∀ c ∈ y, Scalar.same c c = true) :
    targets? (Classes.distinct y) y = some (targets (Classes.distinct y) y).rows := by
  refine mapM_eq_some_map fun c hc => ?_
  obtain ⟨place, hplace⟩ := Classes.exists_index?_distinct (hy c hc) hc
  rw [hplace, Option.getD_some]
  rfl

/-- The layers were trained towards a one at the class of each label. -/
structure Perceptron.LearnedFrom (x : Matrix α) (y : List α) (p : Perceptron α) : Prop where
  classes : p.classes = Classes.distinct y
  targets : Network.targets? p.classes y = some (Network.targets p.classes y).rows
  trained : ∃ layers g, train p.training x (Network.targets p.classes y) layers g = (p.layers, p.iterations, p.loss)

/-- A fitted perceptron has the layers that training left behind. -/
theorem Perceptron.layers_of_fit {p q : Perceptron α} (h : p.fit x y = .ok q) : q.layers = (p.trained x y).1 := by
  obtain ⟨-, -, -, rfl⟩ := fit_eq_ok h
  simp [layers, List.zipWith_map, List.zipWith_self]

theorem Perceptron.learnedFrom_of_fit {p q : Perceptron α} (h : p.fit x y = .ok q)
    (hy : ∀ c ∈ y, Scalar.same c c = true) : q.LearnedFrom x y := by
  have hlayers := layers_of_fit h
  obtain ⟨-, -, -, rfl⟩ := fit_eq_ok h
  exact ⟨rfl, Network.targets?_distinct hy, (p.drawn x y).1, (p.drawn x y).2, by rw [hlayers]; rfl⟩

structure NaiveBayes.LearnedFrom (y : List α) (b : NaiveBayes α) : Prop where
  classes : b.classes = Classes.distinct y
  places : Classes.indices? b.classes y = some (Classes.indices b.classes y)

/-- Every label is one of two classes, so that a label that is not the second is the first. -/
structure VectorMachine.LearnedFrom (y : List α) (m : VectorMachine α) : Prop where
  classes : m.classes = Classes.distinct y
  places : Classes.indices? m.classes y = some (Classes.indices m.classes y)
  two : m.classes.length = 2

/-- What a classifier learned it learned from these rows and labels, with the class of every label looked up among
the classes and, in a tree, the class of every leaf. -/
inductive Classifier.LearnedFrom (x : Matrix α) (y : List α) : Classifier α → Prop where
  | forest {f} (h : f.LearnedFrom x y) : LearnedFrom x y (.forest f)
  | perceptron {p} (h : p.LearnedFrom x y) : LearnedFrom x y (.perceptron p)
  | naiveBayes {b} (h : b.LearnedFrom y) : LearnedFrom x y (.naiveBayes b)
  | vectorMachine {m} (h : m.LearnedFrom y) : LearnedFrom x y (.vectorMachine m)

/-- No family falls back on a class when it is fitted. -/
theorem Classifier.learnedFrom_of_fit {h : Hyperparameters α} {k : Classifier α}
    (hfit : Classifier.fit h x y = .ok k) (hy : ∀ c ∈ y, Scalar.same c c = true) : k.LearnedFrom x y := by
  have hplaces := Classes.indices?_distinct hy
  cases (fittedBy_of_fit hfit).2 with
  | forest _ hf => exact .forest (Forest.learnedFrom_of_fit hf hy)
  | perceptron _ hp => exact .perceptron (Perceptron.learnedFrom_of_fit hp hy)
  | naiveBayes _ hb =>
    obtain ⟨-, -, -, hclasses, -⟩ := NaiveBayes.fit_eq_ok hb
    exact .naiveBayes ⟨hclasses, hclasses ▸ hplaces⟩
  | vectorMachine _ hm =>
    obtain ⟨classes, -, -, -, hcheck, -, -, rfl⟩ := VectorMachine.fit_eq_ok hm
    obtain ⟨-, -, rfl, htwo⟩ := VectorMachine.check_eq_ok hcheck
    exact .vectorMachine ⟨rfl, hplaces, htwo⟩

end

end PackageTriage
