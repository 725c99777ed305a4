import PackageTriage.Proofs.Classifier.Answers
import PackageTriage.Proofs.Classifier.Learning
import PackageTriage.Proofs.Scalar.Zeros

/-!
# Fitted classifiers answer with training labels

Whatever a row holds, a fitted classifier finds everything in its place when it looks for an answer, and the
class it finds is the label of a training sample. Nor did it fall back on a class when it was fitted. The labels have
to be numbers: a label that is not the same as itself has no place among the classes, a tree that votes for it would
not be counted, and a network would be trained towards another one.
-/

namespace PackageTriage

section

variable {α : Type} [Scalar α] {x : Matrix α} {y r : List α}

/-- A sample with all features comes to a leaf, and every leaf holds a class. -/
theorem Node.exists_answer? {node : Node α} {classes : List α} (h : node.Within r.length classes) :
    ∃ c ∈ classes, node.answer? r = some c := by
  induction node with
  | leaf value n => exact ⟨value, h, rfl⟩
  | split feature threshold left right n ihl ihr =>
    obtain ⟨hfeature, hleft, hright⟩ := h
    rw [answer?, List.getElem?_eq_getElem hfeature, Option.bind_eq_bind, Option.bind_some]
    split
    · exact ihl hleft
    · exact ihr hright

variable {γ : Type} [Scalar γ]

/-- A fitted tree answers every row as wide as the training rows, with a label that occurs. -/
theorem DecisionTree.exists_answer? {t u : DecisionTree α} (h : t.fit γ x y = .ok u)
    (hr : r.length = x.width) : ∃ c ∈ y, u.answer? r = some c := by
  obtain ⟨hheight, hrows, root, g, hgrow, rfl⟩ := fit_eq_ok h
  have hwithin : root.Within r.length (Classes.distinct y) :=
    hr ▸ Node.within_of_grow (Matrix.distinct_ne_nil hrows hheight) hgrow
  obtain ⟨c, hc, hanswer⟩ := Node.exists_answer? hwithin
  exact ⟨c, Classes.mem_of_mem_distinct hc, hanswer⟩

namespace Forest

/-- Every vote of a tree is for a label, and so for a class if labels are the same as themselves. -/
theorem exists_answer? {f g : Forest α} (h : f.fit γ x y = .ok g)
    (hy : ∀ c ∈ y, Scalar.same c c = true) (hr : r.length = x.width) :
    ∃ c ∈ y, g.answer? r = some c := by
  obtain ⟨hheight, -, hrows, trees, htrees, rfl⟩ := fit_eq_ok h
  have hvote : ∀ t ∈ trees, ∃ c ∈ y, t.answer? r = some c := by
    intro t ht
    obtain ⟨place, -, hplace⟩ := exists_of_mem_mapM htrees ht
    rw [fitTree_eq] at hplace
    obtain ⟨c, hc, hanswer⟩ := DecisionTree.exists_answer? hplace hr
    exact ⟨c, mem_of_mem_drawn hrows hheight hc, hanswer⟩
  -- A vote that is not the same as itself would be found nowhere, which is what `hy` rules out.
  obtain ⟨votes, hvotes, hmem⟩ := exists_mapM_eq_some hvote
  obtain ⟨places, hplaces, -⟩ := exists_mapM_eq_some (P := fun _ => True) fun c hc =>
    (Classes.exists_index?_distinct (hy c (hmem c hc)) (hmem c hc)).imp fun _ hplace => ⟨trivial, hplace⟩
  have hshares : ((ClassCounts.ofLabels (Classes.distinct y).length places).map
      fun (c : Nat) => (c : α) / (trees.length : α)).length = (Classes.distinct y).length := by
    rw [List.length_map, ClassCounts.length_ofLabels]
  obtain ⟨c, hc, hbest⟩ := Classes.exists_best? hshares (Matrix.distinct_ne_nil hrows hheight)
  exact ⟨c, Classes.mem_of_mem_distinct hc, by simp [answer?, hvotes, hplaces, hbest]⟩

end Forest

end

variable {α : Type} [Scalar α] {x : Matrix α} {y r : List α}

theorem NaiveBayes.exists_answer? {b c : NaiveBayes α} (h : b.fit x y = .ok c) (hr : r.length = x.width) :
    ∃ d ∈ y, c.answer? r = some d := by
  obtain ⟨hrows, hheight, -, hclasses, -, -, hmeans, hvariances, hpriors⟩ := fit_eq_ok h
  have htables : c.priors.length = c.classes.length ∧ c.means.length = c.classes.length ∧
      c.variances.length = c.classes.length := by
    simp [hpriors, hmeans, hvariances, hclasses]
  have hwidths : (∀ m ∈ c.means, m.length = r.length) ∧ ∀ v ∈ c.variances, v.length = r.length := by
    simp [hmeans, hvariances, Matrix.columns, rowsOf, Matrix.select, hr]
  have hjoint : (c.jointLogLikelihood r).length = c.classes.length := by
    simp [jointLogLikelihood, htables]
  obtain ⟨d, hd, hbest⟩ := Classes.exists_best? hjoint
    (hclasses ▸ Matrix.distinct_ne_nil hrows hheight)
  refine ⟨d, Classes.mem_of_mem_distinct (hclasses ▸ hd), ?_⟩
  rw [answer?, if_pos ⟨htables.1, htables.2.1, htables.2.2, hwidths⟩, hbest]

/-- Layers that join give a score for every unit of the last. -/
theorem Network.length_forward (act : Activation) {layers : List (Layer α)} {inputs units : Nat}
    (r : List α) (hne : layers ≠ []) (h : Joins inputs layers units) :
    (forward act layers r).length = units := by
  induction layers generalizing inputs r with
  | nil => exact absurd rfl hne
  | cons l layers ih =>
    cases layers with
    | nil =>
      rw [forward, length_softmax, Layer.inputsOf, length_addTo, Matrix.length_combine]
      exact h.2
    | cons m layers =>
      rw [forward]
      exact ih _ (by simp) h.2

/-- A fitted network answers with the class of an output, and there are as many outputs as classes. -/
theorem Perceptron.exists_answer? {p q : Perceptron α} (h : p.fit x y = .ok q) (hr : r.length = x.width) :
    ∃ c ∈ y, q.answer? r = some c := by
  have hlayers := layers_of_fit h
  obtain ⟨-, hrows, hheight, rfl⟩ := fit_eq_ok h
  have hjoin := Network.joins_of_shapes (p.shapes_trained x y)
  have hne := p.trained_ne_nil x y
  obtain ⟨c, hc, hbest⟩ := Classes.exists_best?
    (Network.length_forward p.training.activation r hne hjoin)
    (Matrix.distinct_ne_nil hrows hheight)
  refine ⟨c, Classes.mem_of_mem_distinct hc, ?_⟩
  rw [answer?, hlayers, if_pos ⟨by simp, hne, hr ▸ hjoin⟩, hbest]

/-- A fitted machine answers with one of its two classes, by the sign of its decision. -/
theorem VectorMachine.exists_answer? {m n : VectorMachine α} (h : (m.fit x y).result = .ok n)
    (hr : r.length = x.width) : ∃ c ∈ y, n.answer? r = some c := by
  have hclasses : n.classes = Classes.distinct y ∧ n.classes.length = 2 := by
    obtain ⟨classes, -, -, -, hcheck, -, -, rfl⟩ := fit_eq_ok h
    exact (check_eq_ok hcheck).2.2
  have hwidth : ∀ v ∈ n.support.rows, v.length = r.length := fun v hv => by
    rw [n.support.rows_width v hv, width_support_of_fit h, hr]
  obtain ⟨places, hplaces, -, hselect, hcoefficients⟩ := exists_support_of_fit h
  have hheight : n.coefficients.length = n.support.height := by
    rw [hcoefficients, hselect, Matrix.height_select hplaces]
  have hside : (if Scalar.less 0 (n.decide r) then 1 else 0) < n.classes.length := by
    rw [hclasses.2]
    split <;> decide
  refine ⟨n.classes[if Scalar.less 0 (n.decide r) then 1 else 0], ?_, ?_⟩
  · exact Classes.mem_of_mem_distinct (hclasses.1 ▸ List.getElem_mem hside)
  · rw [answer?, if_pos ⟨hheight, hwidth⟩, List.getElem?_eq_getElem hside]

/-- Every family answers with a label of the training data, look-ups included. -/
theorem Classifier.exists_answer? {h : Hyperparameters α} {k : Classifier α}
    (hfit : Classifier.fit h x y = .ok k) (hy : ∀ c ∈ y, Scalar.same c c = true)
    (hr : r.length = x.width) : ∃ c ∈ y, k.answer? r = some c := by
  cases (fittedBy_of_fit hfit).2 with
  | forest _ hf => exact Forest.exists_answer? hf hy hr
  | perceptron _ hp => exact Perceptron.exists_answer? hp hr
  | naiveBayes _ hb => exact NaiveBayes.exists_answer? hb hr
  | vectorMachine _ hm => exact VectorMachine.exists_answer? hm hr

/-- A classifier that was fitted to labels that are numbers found a class for every label and for every leaf. And
whatever the rows hold, it answers each of them with one of these labels, and finds the answer without falling back on
any default. -/
theorem Classifier.predict_labels {h : Hyperparameters Float} {x z : Matrix Float} {y : List Float}
    {k : Classifier Float} (hfit : Classifier.fit h x y = .ok k)
    (hy : ∀ c ∈ y, Scalar.isNumber c = true) (hz : z.width = x.width) :
    k.LearnedFrom x y ∧ ∃ classes, k.predict z = .ok classes ∧ classes.length = z.height ∧
      List.Forall₂ (fun r c => k.answer? r = some c ∧ c ∈ y) z.rows classes := by
  have hself : ∀ c ∈ y, Scalar.same c c = true := fun c hc => Binary.same_self (hy c hc)
  obtain ⟨classes, hclasses⟩ := predict_of_fit hfit hz
  have hlength : classes.length = z.height := k.predict_rowwise.length_eq hclasses
  refine ⟨learnedFrom_of_fit hfit hself, classes, hclasses, hlength,
    List.forall₂_iff_get.2 ⟨hlength.symm, fun i hi hi' => ?_⟩⟩
  have hr : z.rows[i].length = x.width := (z.rows_width _ (List.getElem_mem hi)).trans hz
  obtain ⟨c, hc, hone⟩ := k.predict_rowwise.single hclasses (List.getElem?_eq_getElem hi)
  obtain ⟨d, hd, hanswer⟩ := exists_answer? hfit hself hr
  obtain rfl : c = d := by simpa using predict_of_answer? hone hanswer
  obtain rfl : classes[i] = c := by simpa [hi'] using hc
  exact ⟨hanswer, hd⟩

/-- The labels of two samples have places of their own in each of three trees, and an infinite feature is answered
with a label as well. -/
theorem Classifier.predict_labels_infinite : ∃ f classes,
    Classifier.fit (.randomForest 3 (some 1)) (DecisionTree.twoRows 0 1) [0, 1] = .ok (.forest f) ∧
      (∀ c ∈ [(0 : Float), 1], Scalar.isNumber c = true) ∧
      f.LearnedFrom (DecisionTree.twoRows 0 1) [0, 1] ∧ Classes.indices? f.classes [0, 1] = some [0, 1] ∧
      Classifier.predict (.forest f) (.ofRow [Scalar.infinity]) = .ok classes ∧ classes.length = 1 ∧
      ∀ c ∈ classes, c ∈ [(0 : Float), 1] := by
  obtain ⟨f, hf⟩ : ∃ f, Classifier.fit (.randomForest 3 (some 1)) (DecisionTree.twoRows (0 : Float) 1) [0, 1] =
      .ok (.forest f) := exists_fit_forest (by decide) rfl (List.cons_ne_nil _ _)
  have hnumbers : ∀ c ∈ [(0 : Float), 1], Scalar.isNumber c = true := by decide +kernel
  obtain ⟨hlearned, classes, hclasses, hlength, hlabels⟩ :=
    predict_labels hf hnumbers (z := .ofRow [Scalar.infinity]) rfl
  cases hlearned with
  | forest hlearned =>
    have hplaces := hlearned.places
    rw [hlearned.classes, DecisionTree.distinct_zero_one] at hplaces
    refine ⟨f, classes, hf, hnumbers, hlearned, ?_, hclasses, hlength, fun c hc => ?_⟩
    · rw [hlearned.classes, DecisionTree.distinct_zero_one, hplaces]
      decide +kernel
    · obtain ⟨i, hi, rfl⟩ := List.getElem_of_mem hc
      exact ((List.forall₂_iff_get.1 hlabels).2 i (Nat.lt_of_lt_of_eq hi hlength) hi).2

end PackageTriage
