import PackageTriage.Classifier
import Mathlib

/-!
# Fitting again

A model that is fitted a second time comes out as if it were fitted for the first. What an earlier fit
made of it, on whatever data and whether it succeeded or not, is overwritten and never looked at: only the
settings count, and no fit changes them.
-/

namespace PackageTriage

variable {α μ : Type}

/-- A model after fits to several sets of data, each of which may have failed. -/
def Attempt.after (fit : μ → Matrix α → List α → Attempt μ) (m : μ)
    (data : List (Matrix α × List α)) : μ :=
  data.foldl (fun m d => (fit m d.1 d.2).model) m

/-- A way to fit that goes by the settings alone: they stay, and without what earlier fits made of a model
the outcome is the same. -/
structure Forgets (fit : μ → Matrix α → List α → Attempt μ) (cleared : μ → μ) : Prop where
  cleared_model : ∀ m x y, cleared (fit m x y).model = cleared m
  result_cleared : ∀ m x y, (fit (cleared m) x y).result = (fit m x y).result

namespace Forgets

variable {fit : μ → Matrix α → List α → Attempt μ} {cleared : μ → μ}

/-- No number of fits changes the settings. -/
theorem cleared_after (h : Forgets fit cleared) (m : μ) (data : List (Matrix α × List α)) :
    cleared (Attempt.after fit m data) = cleared m := by
  induction data generalizing m with
  | nil => rfl
  | cons d data ih => exact (ih (fit m d.1 d.2).model).trans (h.cleared_model m d.1 d.2)

/-- Two models with the same settings are fitted alike, whatever was done to each of them before. -/
theorem result_after (h : Forgets fit cleared) {m m' : μ} (hsettings : cleared m = cleared m')
    (data data' : List (Matrix α × List α)) (x : Matrix α) (y : List α) :
    (fit (Attempt.after fit m data) x y).result = (fit (Attempt.after fit m' data') x y).result := by
  rw [← h.result_cleared, h.cleared_after, hsettings, ← h.cleared_after m' data', h.result_cleared]

end Forgets

def DecisionTree.cleared (t : DecisionTree α) : DecisionTree α :=
  { t with root := none, width := 0, classes := [] }

def Forest.cleared (f : Forest α) : Forest α := { f with trees := [], width := 0, classes := [] }

variable [Scalar α]

def NaiveBayes.cleared (b : NaiveBayes α) : NaiveBayes α := .unfitted b.smoothing

def Perceptron.cleared (p : Perceptron α) : Perceptron α := .unfitted p.training

def VectorMachine.cleared (m : VectorMachine α) : VectorMachine α := .unfitted m.settings

/-- Fitting never reads what an earlier fit left in the tree. -/
theorem DecisionTree.forgets (γ : Type) [Scalar γ] : Forgets (refit γ) (cleared : DecisionTree α → _) where
  cleared_model t x y := by
    rw [refit]
    split_ifs
    · rfl
    · rfl
    · dsimp only
      split <;> rfl
  result_cleared t x y := by
    rw [refit, refit]
    split_ifs
    · rfl
    · rfl
    · dsimp only [cleared, rules, fuel]
      split <;> rfl

theorem Forest.forgets (γ : Type) [Scalar γ] : Forgets (refit γ) (cleared : Forest α → _) where
  cleared_model f x y := by
    rw [refit]
    split_ifs
    · rfl
    · rfl
    · rfl
    · dsimp only
      split <;> rfl
  result_cleared f x y := by
    have hsize : f.cleared.size = f.size := rfl
    have htrees : f.cleared.fitTree γ x y = f.fitTree γ x y := rfl
    rw [refit, refit, hsize, htrees]
    split_ifs
    · rfl
    · rfl
    · rfl
    · dsimp only
      split <;> rfl

theorem NaiveBayes.forgets : Forgets refit (cleared : NaiveBayes α → _) where
  cleared_model b x y := by
    rw [refit]
    split_ifs <;> rfl
  result_cleared b x y := by
    have hsmoothing : b.cleared.smoothing = b.smoothing := rfl
    rw [refit, refit, hsmoothing]
    split_ifs <;> rfl

theorem Perceptron.forgets : Forgets refit (cleared : Perceptron α → _) where
  cleared_model p x y := by
    rw [refit]
    cases check p.training with
    | error e => rfl
    | ok u =>
      dsimp only
      split_ifs <;> rfl
  result_cleared p x y := by
    have htraining : p.cleared.training = p.training := rfl
    rw [refit, refit, htraining]
    cases check p.training with
    | error e => rfl
    | ok u =>
      dsimp only
      split_ifs <;> rfl

/-- Even a fit that sets coefficient and classes and then fails leaves the settings. -/
theorem VectorMachine.forgets : Forgets fit (cleared : VectorMachine α → _) where
  cleared_model m x y := by
    rw [fit]
    cases check m.settings x y with
    | error e => rfl
    | ok classes =>
      cases m.settings.gamma.resolve x with
      | error e => rfl
      | ok gamma =>
        dsimp only
        split <;> rfl
  result_cleared m x y := by
    have hsettings : m.cleared.settings = m.settings := rfl
    rw [fit, fit, hsettings]
    cases check m.settings x y with
    | error e => rfl
    | ok classes =>
      cases m.settings.gamma.resolve x with
      | error e => rfl
      | ok gamma =>
        dsimp only
        split <;> rfl

/-- Two models with the same settings, each in whatever state it is and after whatever fits, are fitted
alike: both fits fail with the same error, or both succeed and make the same model. -/
theorem refit_leaves_nothing (γ : Type) [Scalar γ] (data data' : List (Matrix α × List α)) (x : Matrix α)
    (y : List α) :
    (∀ t u : DecisionTree α, t.cleared = u.cleared →
      ((Attempt.after (DecisionTree.refit γ) t data).refit γ x y).result =
        ((Attempt.after (DecisionTree.refit γ) u data').refit γ x y).result) ∧
    (∀ f g : Forest α, f.cleared = g.cleared →
      ((Attempt.after (Forest.refit γ) f data).refit γ x y).result =
        ((Attempt.after (Forest.refit γ) g data').refit γ x y).result) ∧
    (∀ b c : NaiveBayes α, b.cleared = c.cleared →
      ((Attempt.after NaiveBayes.refit b data).refit x y).result =
        ((Attempt.after NaiveBayes.refit c data').refit x y).result) ∧
    (∀ p q : Perceptron α, p.cleared = q.cleared →
      ((Attempt.after Perceptron.refit p data).refit x y).result =
        ((Attempt.after Perceptron.refit q data').refit x y).result) ∧
    ∀ m n : VectorMachine α, m.cleared = n.cleared →
      ((Attempt.after VectorMachine.fit m data).fit x y).result =
        ((Attempt.after VectorMachine.fit n data').fit x y).result := by
  exact ⟨fun t u h => (DecisionTree.forgets γ).result_after h data data' x y,
    fun f g h => (Forest.forgets γ).result_after h data data' x y,
    fun b c h => NaiveBayes.forgets.result_after h data data' x y,
    fun p q h => Perceptron.forgets.result_after h data data' x y,
    fun m n h => VectorMachine.forgets.result_after h data data' x y⟩

/-- Models that are left over from elsewhere and then fitted to a row of another width come out like new
ones. The machine is what a fit to too many samples leaves behind. -/
theorem refit_leaves_nothing_leftover :
    let x : Matrix Float := .replicate 2 1 0
    let y : List Float := [0, 1]
    let data : List (Matrix Float × List Float) := [(.ofRow [3, 4], [1])]
    let t : DecisionTree Float := { DecisionTree.unfitted with width := 2, classes := [1] }
    let f : Forest Float := { (Forest.unfitted 3 : Forest Float) with trees := [t], classes := [0, 1] }
    let b := { NaiveBayes.unfitted (1 : Float) with priors := [1], classes := [0], epsilon := 2 }
    let p : Perceptron Float := { Perceptron.unfitted default with biases := [[1, 2]], iterations := 7 }
    let m : VectorMachine Float := { VectorMachine.unfitted default with gamma := 1, classes := [0, 1] }
    (t.cleared = DecisionTree.unfitted.cleared ∧
      ((Attempt.after (DecisionTree.refit Float) t data).refit Float x y).result =
        (DecisionTree.unfitted.refit Float x y).result) ∧
    (f.cleared = (Forest.unfitted 3).cleared ∧
      ((Attempt.after (Forest.refit Float) f data).refit Float x y).result =
        ((Forest.unfitted 3).refit Float x y).result) ∧
    (b.cleared = (NaiveBayes.unfitted 1).cleared ∧ ((NaiveBayes.unfitted 1).refit x y).failure = none ∧
      ((Attempt.after NaiveBayes.refit b data).refit x y).result =
        ((NaiveBayes.unfitted 1).refit x y).result) ∧
    (p.cleared = (Perceptron.unfitted default).cleared ∧
      ((Attempt.after Perceptron.refit p data).refit x y).result =
        ((Perceptron.unfitted default).refit x y).result) ∧
    m.cleared = (VectorMachine.unfitted default).cleared ∧
      ((Attempt.after VectorMachine.fit m data).fit x y).result =
        ((VectorMachine.unfitted default).fit x y).result := by
  intro x y data t f b p m
  obtain ⟨htree, hforest, hbayes, hperceptron, hmachine⟩ := refit_leaves_nothing Float data [] x y
  exact ⟨⟨rfl, htree t .unfitted rfl⟩, ⟨rfl, hforest f (.unfitted 3) rfl⟩,
    ⟨rfl, rfl, hbayes b (.unfitted 1) rfl⟩, ⟨rfl, hperceptron p (.unfitted default) rfl⟩,
    rfl, hmachine m (.unfitted default) rfl⟩

end PackageTriage
