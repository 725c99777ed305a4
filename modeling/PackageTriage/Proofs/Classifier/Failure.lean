import PackageTriage.Proofs.Classifier.Classes
import PackageTriage.Proofs.Classifier.Fitting
import PackageTriage.Proofs.Tree.Sampling

/-!
# What a failed fit leaves behind

Naive Bayes, perceptrons, trees and forests check everything before they set anything. Trees and
forests could still fail while they grow, but only by growing without end, and from that no program comes
back. A vector machine sets its coefficient and its classes first and then refuses to hold a kernel matrix
that is too large: afterwards it is half of what it was and half of what it was to become.
-/

namespace PackageTriage

variable {α : Type}

namespace Attempt

variable {μ : Type}

/-- The model was like this before, and if the fit failed it still is. Growth without end is no failure
that anyone gets to see. -/
def Keeps (a : Attempt μ) (before : μ) : Prop :=
  ∀ e, a.failure = some e → e ≠ .endlessGrowth → a.model = before

@[simp] theorem keeps_fitted (after before : μ) : (fitted after).Keeps before :=
  fun _ h => nomatch h

@[simp] theorem keeps_failed (before : μ) (e : Error) : (failed before e).Keeps before :=
  fun _ _ _ => rfl

@[simp] theorem keeps_endlessGrowth (model before : μ) : (failed model .endlessGrowth).Keeps before :=
  fun _ h hne => absurd (Option.some.inj h).symm hne

end Attempt

variable [Scalar α]

/-- A refused fit leaves the classifier as it was: the checks come before any assignment. -/
theorem NaiveBayes.refit_keeps (b : NaiveBayes α) (x : Matrix α) (y : List α) : (b.refit x y).Keeps b := by
  rw [refit]
  split_ifs <;> simp

theorem Perceptron.refit_keeps (p : Perceptron α) (x : Matrix α) (y : List α) : (p.refit x y).Keeps p := by
  rw [refit]
  cases check p.training with
  | error e => simp
  | ok u =>
    dsimp only
    split_ifs <;> simp

section

variable {γ : Type} [Scalar γ]

/-- A tree that is refused keeps its old root. -/
theorem DecisionTree.refit_keeps (t : DecisionTree α) (x : Matrix α) (y : List α) :
    (t.refit γ x y).Keeps t := by
  rw [refit]
  split_ifs
  · simp
  · simp
  · dsimp only
    split <;> simp

/-- With as many labels as rows nothing but growth can fail. -/
theorem DecisionTree.fit_eq_error {t : DecisionTree α} {x : Matrix α} {y : List α} {e : Error}
    (hheight : x.height = y.length) (hrows : x.rows ≠ []) (h : t.fit γ x y = .error e) :
    e = .endlessGrowth := by
  simp only [fit, refit, hheight, hrows, List.isEmpty_iff, ne_eq, not_true_eq_false, ↓reduceIte] at h
  cases hgrow : Node.grow γ (t.rules x.width) (Classes.distinct y) (t.fuel y.length) t.maxDepth
      (samplesOf (Classes.distinct y) x y) (ChaCha.ofSeed t.seed) with
  | none => simpa [hgrow, eq_comm] using h
  | some found => simp [hgrow] at h

namespace Forest

/-- A tree gets as many labels as rows, so it fails only by growing without end. -/
theorem fitTree_eq_error {f : Forest α} {x : Matrix α} {y : List α} {place : Nat} {e : Error}
    (hrows : x.rows ≠ []) (h : f.fitTree γ x y place = .error e) : e = .endlessGrowth := by
  have hheight := f.height_select_drawn hrows place
  rw [fitTree_eq] at h
  refine DecisionTree.fit_eq_error ?_ (List.length_pos_iff.1 ?_) h
  · rw [hheight, List.length_map, length_drawn]
  · rw [← Matrix.height, hheight]
    exact List.length_pos_iff.2 hrows

theorem refit_keeps (f : Forest α) (x : Matrix α) (y : List α) : (f.refit γ x y).Keeps f := by
  rw [refit]
  split_ifs with hheight hsize hrows
  · simp
  · simp
  · simp
  · cases htrees : (List.range f.size).mapM (f.fitTree γ x y) with
    | ok trees => simp
    | error e =>
      obtain ⟨place, -, hplace⟩ := exists_eq_error_of_mapM htrees
      obtain rfl := fitTree_eq_error (by simpa using hrows) hplace
      simp

end Forest

end

namespace VectorMachine

/-- Only a machine with nothing wrong but its number of samples is changed by a fit that fails: it gets
the new coefficient and the new classes, and keeps its support vectors. -/
theorem fit_keeps_or (m : VectorMachine α) (x : Matrix α) (y : List α) :
    (m.fit x y).Keeps m ∨ ∃ gamma, sampleLimit < x.height ∧
      check m.settings x y = .ok (Classes.distinct y) ∧ m.settings.gamma.resolve x = .ok gamma ∧
      m.fit x y = .failed { m with gamma, classes := Classes.distinct y }
        (.data (.kernelSize x.height sampleLimit)) := by
  rw [fit]
  cases hcheck : check m.settings x y with
  | error e => exact .inl (Attempt.keeps_failed m e)
  | ok classes =>
    cases hgamma : m.settings.gamma.resolve x with
    | error e => exact .inl (Attempt.keeps_failed m e)
    | ok gamma =>
      obtain rfl := (check_eq_ok hcheck).2.2.1
      by_cases hlimit : sampleLimit < x.rows.length
      · exact .inr ⟨gamma, hlimit, rfl, rfl, by simp [optimize, hlimit, Matrix.height]⟩
      · exact .inl (by simp [optimize, hlimit])

end VectorMachine

/-- A fit that fails leaves trees, forests, naive Bayes and perceptrons as they were, whatever they were
before. So it does with vector machines, unless there are more samples than a kernel matrix may have: then
coefficient and classes are those of the samples that were refused. -/
theorem failed_fit (γ : Type) [Scalar γ] (x : Matrix α) (y : List α) :
    (∀ t : DecisionTree α, (t.refit γ x y).Keeps t) ∧
      (∀ f : Forest α, (f.refit γ x y).Keeps f) ∧
      (∀ b : NaiveBayes α, (b.refit x y).Keeps b) ∧
      (∀ p : Perceptron α, (p.refit x y).Keeps p) ∧
      ∀ m : VectorMachine α, (m.fit x y).Keeps m ∨ ∃ gamma, VectorMachine.sampleLimit < x.height ∧
        VectorMachine.check m.settings x y = .ok (Classes.distinct y) ∧
        m.settings.gamma.resolve x = .ok gamma ∧
        m.fit x y = .failed { m with gamma, classes := Classes.distinct y }
          (.data (.kernelSize x.height VectorMachine.sampleLimit)) :=
  ⟨fun t => t.refit_keeps x y, fun f => f.refit_keeps x y, fun b => b.refit_keeps x y,
    fun p => p.refit_keeps x y, fun m => m.fit_keeps_or x y⟩

namespace VectorMachine

def fresh : VectorMachine Float := unfitted { (default : MachineSettings Float) with gamma := .value 1 }

/-- There is one row more than the kernel matrix may have, and the last one is a class of its own. The
machine knew no classes before; after the failure it has them, and answers. -/
theorem answers_after_failure :
    let x := Matrix.replicate 10001 1 (0 : Float)
    let y := List.replicate 10000 (0 : Float) ++ [1]
    fresh.predict (.ofRow [0]) = .error .notFitted ∧
      (fresh.fit x y).failure = some (.data (.kernelSize 10001 10000)) ∧
      (fresh.fit x y).model.predict (.ofRow [0]) = .ok [0] ∧ ¬ (fresh.fit x y).Keeps fresh := by
  intro x y
  have hheight : x.rows.length = 10001 := List.length_replicate
  have hlength : y.length = 10001 := by rw [List.length_append, List.length_replicate]; rfl
  have hdistinct : Classes.distinct y = [0, 1] := Classes.distinct_replicate rfl rfl rfl rfl 9999
  have hgamma : fresh.settings.gamma.resolve x = .ok 1 := rfl
  have hcheck : check fresh.settings x y = .ok [0, 1] := by
    rw [check, Matrix.height, hheight, hlength, hdistinct]
    rfl
  have hlimit : sampleLimit < x.rows.length := by rw [hheight]; decide
  have hfit : fresh.fit x y =
      .failed { fresh with gamma := 1, classes := [0, 1] } (.data (.kernelSize 10001 10000)) := by
    simp only [fit, hcheck, hgamma, optimize, if_pos hlimit]
    rw [hheight, sampleLimit]
  have hbefore : fresh.predict (.ofRow [0]) = .error .notFitted := rfl
  have hafter : (fresh.fit x y).model.predict (.ofRow [0]) = .ok [0] := by
    rw [hfit]
    rfl
  refine ⟨hbefore, by rw [hfit]; rfl, hafter, fun hkeeps => ?_⟩
  have hmodel := hkeeps (.data (.kernelSize 10001 10000)) (by rw [hfit]; rfl) (by simp)
  rw [hmodel, hbefore] at hafter
  simp at hafter

end VectorMachine

end PackageTriage
