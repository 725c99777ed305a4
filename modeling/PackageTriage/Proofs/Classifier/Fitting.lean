import PackageTriage.Proofs.Sequences
import PackageTriage.Classifier

/-!
# What a successful fit has made

For each family the conditions under which a fit succeeds, and the model that it leaves behind. All
later statements on fitted models start from here.
-/

namespace PackageTriage

variable {α : Type} [Scalar α]

/-- What a successful fit passed and built: the checks, the grown root and the settings kept. -/
theorem DecisionTree.fit_eq_ok {γ : Type} [Scalar γ] {t u : DecisionTree α} {x : Matrix α} {y : List α}
    (h : t.fit γ x y = .ok u) :
    x.height = y.length ∧ x.rows ≠ [] ∧ ∃ root g,
      Node.grow γ (t.rules x.width) (Classes.distinct y) (t.fuel x.height) t.maxDepth
        (samplesOf (Classes.distinct y) x y) (ChaCha.ofSeed t.seed) = some (root, g) ∧
      u = { t with root := some root, width := x.width, classes := Classes.distinct y } := by
  by_cases hheight : x.height = y.length
  · by_cases hrows : x.rows = []
    · simp [fit, refit, hheight, hrows] at h
    · simp only [fit, refit, hheight, hrows, List.isEmpty_iff, ne_eq, not_true_eq_false,
        ↓reduceIte] at h
      cases hgrow : Node.grow γ (t.rules x.width) (Classes.distinct y) (t.fuel y.length) t.maxDepth
          (samplesOf (Classes.distinct y) x y) (ChaCha.ofSeed t.seed) with
      | none => simp [hgrow] at h
      | some found =>
        obtain ⟨root, g⟩ := found
        simp only [hgrow, Attempt.result_fitted, Except.ok.injEq] at h
        exact ⟨hheight, hrows, root, g, by rw [hheight, hgrow], h.symm⟩
  · simp [fit, refit, hheight] at h

theorem Forest.fit_eq_ok {γ : Type} [Scalar γ] {f g : Forest α} {x : Matrix α} {y : List α}
    (h : f.fit γ x y = .ok g) :
    x.height = y.length ∧ f.size ≠ 0 ∧ x.rows ≠ [] ∧
      ∃ trees, (List.range f.size).mapM (f.fitTree γ x y) = .ok trees ∧
        g = { f with trees, width := x.width, classes := Classes.distinct y } := by
  by_cases hheight : x.height = y.length
  · by_cases hsize : f.size = 0
    · simp [fit, refit, hheight, hsize] at h
    · by_cases hrows : x.rows = []
      · simp [fit, refit, hheight, hsize, hrows] at h
      · simp only [fit, refit, hheight, hsize, hrows, List.isEmpty_iff, ne_eq, not_true_eq_false,
          ↓reduceIte] at h
        cases htrees : (List.range f.size).mapM (f.fitTree γ x y) with
        | error e => simp [htrees] at h
        | ok trees =>
          simp only [htrees, Attempt.result_fitted, Except.ok.injEq] at h
          exact ⟨hheight, hsize, hrows, trees, rfl, h.symm⟩
  · simp [fit, refit, hheight] at h

/-- The first parameters of a perceptron and the generator behind them. -/
def Perceptron.drawn (p : Perceptron α) (x : Matrix α) (y : List α) : List (Layer α) × Xoshiro :=
  drawLayers p.training.activation (x.width :: p.training.hidden ++ [(Classes.distinct y).length])
    (Xoshiro.ofSeed p.training.seed)

/-- What training makes of them: the layers, the number of iterations and the loss. -/
def Perceptron.trained (p : Perceptron α) (x : Matrix α) (y : List α) : List (Layer α) × Nat × α :=
  train p.training x (Network.targets (Classes.distinct y) y) (p.drawn x y).1 (p.drawn x y).2

theorem Perceptron.fit_eq_ok {p q : Perceptron α} {x : Matrix α} {y : List α} (h : p.fit x y = .ok q) :
    check p.training = .ok () ∧ x.rows ≠ [] ∧ x.height = y.length ∧
      q = ⟨p.training, (p.trained x y).1.map (·.weights), (p.trained x y).1.map (·.bias), x.width,
        Classes.distinct y, (p.trained x y).2.1, (p.trained x y).2.2⟩ := by
  cases hcheck : check p.training with
  | error e => simp [fit, refit, hcheck] at h
  | ok u =>
    by_cases hrows : x.rows = []
    · simp [fit, refit, hcheck, hrows] at h
    · by_cases hheight : x.height = y.length
      · simp only [fit, refit, hcheck, hrows, hheight, List.isEmpty_iff, ne_eq, not_true_eq_false,
          ↓reduceIte, Attempt.result_fitted, Except.ok.injEq] at h
        exact ⟨rfl, hrows, hheight, h.symm⟩
      · simp [fit, refit, hcheck, hrows, hheight] at h

theorem NaiveBayes.fit_eq_ok {b c : NaiveBayes α} {x : Matrix α} {y : List α} (h : b.fit x y = .ok c) :
    x.rows ≠ [] ∧ x.height = y.length ∧ Scalar.atMost 0 b.smoothing = true ∧
      c.classes = Classes.distinct y ∧ c.smoothing = b.smoothing ∧
      c.epsilon = widening b.smoothing x ∧
      c.means = (Classes.distinct y).map (fun k => (rowsOf x y k).columns.map
        fun col => (featureStatistics (widening b.smoothing x) col).1) ∧
      c.variances = (Classes.distinct y).map (fun k => (rowsOf x y k).columns.map
        fun col => (featureStatistics (widening b.smoothing x) col).2) ∧
      c.priors = (Classes.distinct y).map (fun k => ((rowsOf x y k).height : α) / (x.height : α)) := by
  by_cases hrows : x.rows = []
  · simp [fit, refit, hrows] at h
  · by_cases hheight : x.height = y.length
    · cases hsmoothing : Scalar.atMost 0 b.smoothing with
      | false => simp [fit, refit, hrows, hheight, hsmoothing] at h
      | true =>
        simp only [fit, refit, hrows, hheight, hsmoothing, List.isEmpty_iff, ne_eq, not_true_eq_false,
          Bool.not_true, Bool.false_eq_true, ↓reduceIte, Attempt.result_fitted, Except.ok.injEq] at h
        subst h
        simp [hrows, hheight, Function.comp_def]
    · simp [fit, refit, hrows, hheight] at h

/-- The checks let pass exactly two classes and a positive penalty. -/
theorem VectorMachine.check_eq_ok {settings : MachineSettings α} {x : Matrix α} {y classes : List α}
    (h : check settings x y = .ok classes) :
    x.height = y.length ∧ Scalar.less 0 settings.c = true ∧ classes = Classes.distinct y ∧
      classes.length = 2 := by
  by_cases hheight : x.height = y.length
  · cases hc : Scalar.less 0 settings.c with
    | false => simp [check, hheight, hc] at h
    | true =>
      by_cases hlength : (Classes.distinct y).length = 2
      · simp only [check, hheight, hc, hlength, ne_eq, not_true_eq_false, Bool.not_true,
          Bool.false_eq_true, ↓reduceIte, Except.ok.injEq] at h
        exact ⟨hheight, rfl, h.symm, h ▸ hlength⟩
      · simp [check, hheight, hc, hlength] at h
  · simp [check, hheight] at h

/-- A successful fit went through the checks, the coefficient and the optimiser in this order. -/
theorem VectorMachine.fit_eq_ok {m n : VectorMachine α} {x : Matrix α} {y : List α}
    (h : (m.fit x y).result = .ok n) :
    ∃ classes gamma alphas bias, check m.settings x y = .ok classes ∧
      m.settings.gamma.resolve x = .ok gamma ∧
      optimize m.settings gamma x.rows
        (y.map fun v => if Scalar.same v (classes.getD 1 0) then 1 else -1) = .ok (alphas, bias) ∧
      n = { m with
        gamma, classes, bias
        support := x.select (supportIndices alphas)
        coefficients := (supportIndices alphas).map fun i => alphas.getD i 0 *
          (y.map fun v => if Scalar.same v (classes.getD 1 0) then 1 else -1).getD i 0 } := by
  cases hcheck : check m.settings x y with
  | error e => simp [fit, hcheck, Attempt.failed, Attempt.result] at h
  | ok classes =>
    cases hgamma : m.settings.gamma.resolve x with
    | error e => simp [fit, hcheck, hgamma, Attempt.failed, Attempt.result] at h
    | ok gamma =>
      cases hfound : optimize m.settings gamma x.rows
          (y.map fun v => if Scalar.same v (classes.getD 1 0) then 1 else -1) with
      | error e =>
        simp only [fit, hcheck, hgamma, hfound, Attempt.failed, Attempt.result, reduceCtorEq] at h
      | ok found =>
        obtain ⟨alphas, bias⟩ := found
        simp only [fit, hcheck, hgamma, hfound, Attempt.fitted, Attempt.result, Except.ok.injEq] at h
        exact ⟨classes, gamma, alphas, bias, rfl, rfl, hfound, h.symm⟩

/-- The model that the hyperparameters ask for, fitted by its family. -/
inductive Classifier.FittedBy (h : Hyperparameters α) (x : Matrix α) (y : List α) :
    Classifier α → Prop where
  | forest {trees maxDepth f} (hh : h = .randomForest trees maxDepth)
      (hf : { Forest.unfitted trees with maxDepth }.fit Float x y = .ok f) : FittedBy h x y (.forest f)
  | perceptron {rate hidden iterations solver activation p}
      (hh : h = .perceptron rate hidden iterations solver activation)
      (hp : (Perceptron.unfitted { (default : Training α) with
        rate, hidden, limit := iterations, solver, activation }).fit x y = .ok p) :
      FittedBy h x y (.perceptron p)
  | naiveBayes {smoothing b} (hh : h = .naiveBayes smoothing)
      (hb : (NaiveBayes.unfitted smoothing).fit x y = .ok b) : FittedBy h x y (.naiveBayes b)
  | vectorMachine {gamma c m} (hh : h = .vectorMachine gamma c)
      (hm : ((VectorMachine.unfitted { (default : MachineSettings α) with gamma, c }).fit x y).result =
        .ok m) : FittedBy h x y (.vectorMachine m)

/-- One inversion for all families: the sizes agree and the classifier is one its own fit gives. -/
theorem Classifier.fittedBy_of_fit {h : Hyperparameters α} {x : Matrix α} {y : List α}
    {k : Classifier α} (hfit : Classifier.fit h x y = .ok k) :
    x.height = y.length ∧ FittedBy h x y k := by
  by_cases hheight : x.height = y.length
  · refine ⟨hheight, ?_⟩
    simp only [fit, hheight, ↓reduceIte] at hfit
    cases h with
    | randomForest trees maxDepth =>
      obtain ⟨f, hf, hlast⟩ := bind_eq_ok.1 hfit
      obtain rfl := Except.ok.inj hlast
      exact .forest rfl hf
    | perceptron rate hidden iterations solver activation =>
      obtain ⟨p, hp, hlast⟩ := bind_eq_ok.1 hfit
      obtain rfl := Except.ok.inj hlast
      exact .perceptron rfl hp
    | naiveBayes smoothing =>
      obtain ⟨b, hb, hlast⟩ := bind_eq_ok.1 hfit
      obtain rfl := Except.ok.inj hlast
      exact .naiveBayes rfl hb
    | vectorMachine gamma c =>
      obtain ⟨m, hm, hlast⟩ := bind_eq_ok.1 hfit
      obtain rfl := Except.ok.inj hlast
      exact .vectorMachine rfl hm
  · simp [fit, hheight] at hfit

/-- A fitted model is of the family of its hyperparameters. -/
theorem Classifier.family_of_fit {h : Hyperparameters α} {x : Matrix α} {y : List α} {k : Classifier α}
    (hfit : Classifier.fit h x y = .ok k) : k.family = h.family := by
  cases (fittedBy_of_fit hfit).2 with
  | forest hh => rw [hh, family, Hyperparameters.family]
  | perceptron hh => rw [hh, family, Hyperparameters.family]
  | naiveBayes hh => rw [hh, family, Hyperparameters.family]
  | vectorMachine hh => rw [hh, family, Hyperparameters.family]

/-- Nothing keeps naive Bayes from being fitted to rows with labels. -/
theorem Classifier.exists_fit_naiveBayes {x : Matrix α} {y : List α} {smoothing : α} (hrows : x.rows ≠ [])
    (hheight : x.height = y.length) (hsmoothing : Scalar.atMost 0 smoothing = true) :
    ∃ k, Classifier.fit (.naiveBayes smoothing) x y = .ok k := by
  simp [fit, fitNew, NaiveBayes.fit, NaiveBayes.refit, NaiveBayes.unfitted, hheight, hrows, hsmoothing]

end PackageTriage
