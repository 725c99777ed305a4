import PackageTriage.Proofs.Classifier.Classes
import PackageTriage.Proofs.Classifier.Fitting
import PackageTriage.Proofs.Machine.Support
import PackageTriage.Proofs.Network.Depth
import PackageTriage.Proofs.Tree.Sampling

/-!
# Fitted classifiers know the width they were fitted on

Each family remembers the width in a way of its own. A model that was fitted answers every matrix of
the width of its training matrix, so in particular the training matrix itself, and refuses any other
width. Only a machine looks at its support vectors for the width, and has nothing to refuse a matrix for
if it found none.
-/

namespace PackageTriage

variable {α : Type}

theorem Matrix.labels_ne_nil {x : Matrix α} {y : List α} (hrows : x.rows ≠ []) (h : x.height = y.length) :
    y ≠ [] := by
  rintro rfl
  exact hrows (List.length_eq_zero_iff.1 h)

variable [Scalar α]

theorem Matrix.distinct_ne_nil {x : Matrix α} {y : List α} (hrows : x.rows ≠ [])
    (h : x.height = y.length) : Classes.distinct y ≠ [] :=
  mt Classes.distinct_eq_nil.1 (labels_ne_nil hrows h)

/-- No model is fitted to nothing. -/
theorem Classifier.rows_ne_nil_of_fit {h : Hyperparameters α} {x : Matrix α} {y : List α} {k : Classifier α}
    (hfit : Classifier.fit h x y = .ok k) : x.rows ≠ [] := by
  obtain ⟨hheight, hby⟩ := fittedBy_of_fit hfit
  cases hby with
  | forest _ hf => exact (Forest.fit_eq_ok hf).2.2.1
  | perceptron _ hp => exact (Perceptron.fit_eq_ok hp).2.1
  | naiveBayes _ hb => exact (NaiveBayes.fit_eq_ok hb).1
  | vectorMachine _ hm =>
    obtain ⟨classes, gamma, alphas, bias, hcheck, -⟩ := VectorMachine.fit_eq_ok hm
    obtain ⟨-, -, rfl, htwo⟩ := VectorMachine.check_eq_ok hcheck
    intro hrows
    obtain rfl : y = [] := List.length_eq_zero_iff.1 (by rw [← hheight, Matrix.height, hrows, List.length_nil])
    simp [Classes.distinct_eq_nil.2 rfl] at htwo

theorem DecisionTree.predict_of_fit {γ : Type} [Scalar γ] {t u : DecisionTree α} {x z : Matrix α}
    {y : List α} (h : t.fit γ x y = .ok u) (hz : z.width = x.width) :
    ∃ classes, u.predict z = .ok classes := by
  obtain ⟨-, -, root, g, -, rfl⟩ := fit_eq_ok h
  exact ⟨z.rows.map root.predict, by simp [predict, hz]⟩

theorem Forest.length_trees_of_fit {γ : Type} [Scalar γ] {f g : Forest α} {x : Matrix α} {y : List α}
    (h : f.fit γ x y = .ok g) : g.trees.length = f.size := by
  obtain ⟨-, -, -, trees, htrees, rfl⟩ := fit_eq_ok h
  rw [← (forall₂_of_mapM htrees).length_eq, List.length_range]

/-- A fitted forest has trees: zero trees are refused. -/
theorem Forest.trees_ne_nil_of_fit {γ : Type} [Scalar γ] {f g : Forest α} {x : Matrix α} {y : List α}
    (h : f.fit γ x y = .ok g) : g.trees ≠ [] := by
  have hsize := (fit_eq_ok h).2.1
  rw [← List.length_pos_iff, length_trees_of_fit h]
  exact Nat.pos_of_ne_zero hsize

/-- Selecting rows keeps the width, so every tree of a forest has learnt the same. -/
theorem Forest.predict_of_fit {γ : Type} [Scalar γ] {f g : Forest α} {x z : Matrix α} {y : List α}
    (h : f.fit γ x y = .ok g) (hz : z.width = x.width) : ∃ classes, g.predict z = .ok classes := by
  have hnonempty := trees_ne_nil_of_fit h
  obtain ⟨-, -, -, trees, htrees, rfl⟩ := fit_eq_ok h
  have htree : ∀ t ∈ trees, ∃ classes, t.predict z = .ok classes := by
    intro t ht
    obtain ⟨place, -, hplace⟩ := exists_of_mem_mapM htrees ht
    exact DecisionTree.predict_of_fit hplace hz
  obtain ⟨predictions, hpredictions⟩ := exists_mapM_eq_ok htree
  simp [predict, probabilities, hnonempty, hpredictions]

theorem Perceptron.trained_ne_nil (p : Perceptron α) (x : Matrix α) (y : List α) :
    (p.trained x y).1 ≠ [] := by
  rw [← List.length_pos_iff, trained, length_train, drawn, length_drawLayers]
  simp

theorem Perceptron.predict_of_fit {p q : Perceptron α} {x z : Matrix α} {y : List α}
    (h : p.fit x y = .ok q) (hz : z.width = x.width) : ∃ classes, q.predict z = .ok classes := by
  obtain ⟨-, -, -, rfl⟩ := fit_eq_ok h
  simp [predict, probabilities, p.trained_ne_nil x y, hz]

/-- The first class has rows, and their columns are as many as those of the whole matrix. -/
theorem NaiveBayes.width_of_fit {b c : NaiveBayes α} {x : Matrix α} {y : List α}
    (h : b.fit x y = .ok c) : c.classes ≠ [] ∧ c.width = x.width := by
  obtain ⟨hrows, hheight, -, hclasses, -, -, hmeans, -⟩ := fit_eq_ok h
  have hne := Matrix.distinct_ne_nil hrows hheight
  refine ⟨by rwa [hclasses], ?_⟩
  obtain ⟨first, rest, hdistinct⟩ := List.exists_cons_of_ne_nil hne
  simp [width, hmeans, hdistinct, Matrix.columns, rowsOf, Matrix.select]

theorem NaiveBayes.predict_of_fit {b c : NaiveBayes α} {x z : Matrix α} {y : List α}
    (h : b.fit x y = .ok c) (hz : z.width = x.width) : ∃ classes, c.predict z = .ok classes := by
  obtain ⟨hclasses, hwidth⟩ := width_of_fit h
  simp [predict, joint, hclasses, hwidth, hz]

theorem VectorMachine.classes_ne_nil_of_fit {m n : VectorMachine α} {x : Matrix α} {y : List α}
    (h : (m.fit x y).result = .ok n) : n.classes ≠ [] := by
  obtain ⟨classes, gamma, alphas, bias, hcheck, -, -, rfl⟩ := fit_eq_ok h
  have htwo := (check_eq_ok hcheck).2.2.2
  rw [← List.length_pos_iff]
  show 0 < classes.length
  omega

/-- The support vectors are rows of the training matrix, and keep its width also where there are none. -/
theorem VectorMachine.width_support_of_fit {m n : VectorMachine α} {x : Matrix α} {y : List α}
    (h : (m.fit x y).result = .ok n) : n.support.width = x.width := by
  obtain ⟨places, -, -, hselect, -⟩ := exists_support_of_fit h
  rw [hselect, Matrix.select]

theorem VectorMachine.predict_of_fit {m n : VectorMachine α} {x z : Matrix α} {y : List α}
    (h : (m.fit x y).result = .ok n) (hz : z.width = x.width) :
    ∃ classes, n.predict z = .ok classes := by
  simp [predict, decisions, classes_ne_nil_of_fit h, width_support_of_fit h, hz]

/-- A fitted classifier answers every matrix of the width it was fitted on. -/
theorem Classifier.predict_of_fit {h : Hyperparameters α} {x z : Matrix α} {y : List α}
    {k : Classifier α} (hfit : Classifier.fit h x y = .ok k) (hz : z.width = x.width) :
    ∃ classes, k.predict z = .ok classes := by
  cases (fittedBy_of_fit hfit).2 with
  | forest _ hf => exact Forest.predict_of_fit hf hz
  | perceptron _ hp => exact Perceptron.predict_of_fit hp hz
  | naiveBayes _ hb => exact NaiveBayes.predict_of_fit hb hz
  | vectorMachine _ hm => exact VectorMachine.predict_of_fit hm hz

/-- A fitted tree refuses a matrix of another width and names both widths. -/
theorem DecisionTree.refuses_of_fit {γ : Type} [Scalar γ] {t u : DecisionTree α} {x z : Matrix α}
    {y : List α} (h : t.fit γ x y = .ok u) (hz : z.width ≠ x.width) :
    u.predict z = .error (.shape (.features x.width z.width)) := by
  obtain ⟨-, -, root, g, -, rfl⟩ := fit_eq_ok h
  simp [predict, hz]

/-- The first tree of a forest already refuses. -/
theorem Forest.refuses_of_fit {γ : Type} [Scalar γ] {f g : Forest α} {x z : Matrix α} {y : List α}
    (h : f.fit γ x y = .ok g) (hz : z.width ≠ x.width) :
    g.predict z = .error (.shape (.features x.width z.width)) := by
  have hnonempty := trees_ne_nil_of_fit h
  obtain ⟨-, -, -, trees, htrees, rfl⟩ := fit_eq_ok h
  have htree : ∀ t ∈ trees, t.predict z = .error (.shape (.features x.width z.width)) := by
    intro t ht
    obtain ⟨place, -, hplace⟩ := exists_of_mem_mapM htrees ht
    rw [fitTree_eq] at hplace
    have hrefused := DecisionTree.refuses_of_fit (z := z) hplace hz
    exact hrefused
  simp [predict, probabilities, hnonempty, mapM_eq_error hnonempty htree]

theorem Perceptron.refuses_of_fit {p q : Perceptron α} {x z : Matrix α} {y : List α}
    (h : p.fit x y = .ok q) (hz : z.width ≠ x.width) :
    q.predict z = .error (.shape (.features x.width z.width)) := by
  obtain ⟨-, -, -, rfl⟩ := fit_eq_ok h
  simp [predict, probabilities, p.trained_ne_nil x y, hz]

theorem NaiveBayes.refuses_of_fit {b c : NaiveBayes α} {x z : Matrix α} {y : List α}
    (h : b.fit x y = .ok c) (hz : z.width ≠ x.width) :
    c.predict z = .error (.shape (.features x.width z.width)) := by
  obtain ⟨hclasses, hwidth⟩ := width_of_fit h
  simp [predict, joint, hclasses, hwidth, hz]

/-- A fitted machine refuses another width, as long as it has support vectors to compare with. -/
theorem VectorMachine.refuses_of_fit {m n : VectorMachine α} {x z : Matrix α} {y : List α}
    (h : (m.fit x y).result = .ok n) (hsupport : n.support.rows ≠ []) (hz : z.width ≠ x.width) :
    n.predict z = .error (.shape (.features x.width z.width)) := by
  simp [predict, decisions, classes_ne_nil_of_fit h, width_support_of_fit h, hsupport, hz]

/-- Without support vectors only the bias is left, and it decides alike for every row. -/
theorem VectorMachine.predict_of_no_support {m n : VectorMachine α} {x : Matrix α} {y : List α}
    (h : (m.fit x y).result = .ok n) (hsupport : n.support.rows = []) (z : Matrix α) :
    n.predict z =
      .ok (z.rows.map fun _ => n.classes.getD (if Scalar.less 0 n.bias then 1 else 0) 0) := by
  have hdecide : ∀ r, n.decide r = n.bias := fun r => by simp [VectorMachine.decide, hsupport]
  simp [predict, decisions, classes_ne_nil_of_fit h, hsupport, Function.comp_def, hdecide]

/-- The model has something to compare the width of a matrix with. -/
def Classifier.ChecksWidth : Classifier α → Prop
  | vectorMachine m => m.support.rows ≠ []
  | _ => True

/-- A fitted classifier answers a matrix of the width it was fitted on and refuses any other. Without
support vectors a machine answers whatever it is asked. -/
theorem Classifier.predict_width {h : Hyperparameters α} {x : Matrix α} {y : List α} {k : Classifier α}
    (hfit : Classifier.fit h x y = .ok k) (z : Matrix α) :
    (z.width = x.width ∨ ¬ k.ChecksWidth → ∃ classes, k.predict z = .ok classes) ∧
      (z.width ≠ x.width → k.ChecksWidth →
        k.predict z = .error (.shape (.features x.width z.width))) := by
  refine ⟨fun hz => ?_, fun hz hchecks => ?_⟩
  · rcases hz with hz | hchecks
    · exact predict_of_fit hfit hz
    · cases (fittedBy_of_fit hfit).2 with
      | vectorMachine _ hm =>
        exact ⟨_, VectorMachine.predict_of_no_support hm (not_not.1 hchecks) z⟩
      | _ => exact absurd trivial hchecks
  · -- Here only a machine needs its support vectors; the others have the width on record.
    cases (fittedBy_of_fit hfit).2 with
    | forest _ hf => exact Forest.refuses_of_fit hf hz
    | perceptron _ hp => exact Perceptron.refuses_of_fit hp hz
    | naiveBayes _ hb => exact NaiveBayes.refuses_of_fit hb hz
    | vectorMachine _ hm => exact VectorMachine.refuses_of_fit hm hchecks hz

theorem Classifier.predict_width_two :
    ∃ k, Classifier.fit (.naiveBayes (1 : Float)) (.ofRow [0]) [1] = .ok k ∧
      k.predict (.ofRow [0, 0]) = .error (.shape (.features 1 2)) := by
  have hfit : ∃ k, Classifier.fit (.naiveBayes (1 : Float)) (.ofRow [0]) [1] = .ok k :=
    exists_fit_naiveBayes nofun rfl rfl
  obtain ⟨k, hk⟩ := hfit
  have hchecks : k.ChecksWidth := by
    cases (fittedBy_of_fit hk).2 with
    | vectorMachine hh => cases hh
    | _ => trivial
  exact ⟨k, hk, (predict_width hk (.ofRow [0, 0])).2 (by decide) hchecks⟩

/-- A bound below the least step keeps all multipliers at zero, so the machine takes its one-column
training matrix for one of any width. -/
theorem Classifier.answers_wider_row :
    let x : Matrix Float := ⟨1, [[0], [1]], by simp⟩
    ∃ k, Classifier.fit (.vectorMachine (.value 1) (Scalar.decimal 1 11)) x [0, 1] = .ok k ∧
      (Matrix.ofRow [(0 : Float), 0]).width ≠ x.width ∧ k.predict (.ofRow [0, 0]) = .ok [0] := by
  intro x
  let m : VectorMachine Float := .unfitted { (default : MachineSettings Float) with
    gamma := .value 1, c := Scalar.decimal 1 11 }
  have hclasses : Classes.distinct [(0 : Float), 1] = [0, 1] :=
    Classes.distinct_replicate rfl rfl rfl rfl 0
  have hgamma : m.settings.gamma.resolve x = .ok 1 := rfl
  have hpositive : Scalar.less 0 m.settings.c = true := by decide +kernel
  have htwo : (Classes.distinct [(0 : Float), 1]).length = 2 := by rw [hclasses]; rfl
  obtain ⟨n, hn⟩ := VectorMachine.exists_fit rfl hpositive htwo hgamma (by decide)
  have hnarrow : VectorMachine.Narrow m.settings.c := ⟨by decide +kernel, by decide +kernel⟩
  obtain ⟨hsupport, hbias⟩ := VectorMachine.support_of_narrow (by decide +kernel) hnarrow hn
  have hknown : n.classes = [0, 1] := by
    obtain ⟨classes, -, -, -, hcheck, -, -, rfl⟩ := VectorMachine.fit_eq_ok hn
    exact (VectorMachine.check_eq_ok hcheck).2.2.1.trans hclasses
  refine ⟨.vectorMachine n, ?_, by decide, ?_⟩
  · show (do return Classifier.vectorMachine (← (m.fit x [0, 1]).result)) = _
    rw [hn]
    rfl
  · rw [predict, VectorMachine.predict_of_no_support hn hsupport, hknown, hbias]
    rfl

end PackageTriage
