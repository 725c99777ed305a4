import PackageTriage.Classifier
import PackageTriage.Folds
import PackageTriage.Metrics.Scores

/-!
# Cross-validation

For every split a model is fitted on the training samples and asked about the test samples, which it
has not seen. The counts of all splits are added up; the scores are means over the splits.
-/

namespace PackageTriage

structure ValidationRow where
  hyperparameter : String
  counts : Confusion
  scores : Scores Float

namespace Validation

variable {α : Type} [Scalar α]

def labelsAt (y : List α) (places : List Nat) : List α := places.filterMap (y[·]?)

/-- The class codes that a model fitted on the training samples gives to the test samples. -/
def heldOut (h : Hyperparameters α) (x : Matrix α) (y : List α) (s : Split) :
    Except Error (List α) := do
  let model ← Classifier.fit h (x.select s.train) (labelsAt y s.train)
  model.predict (x.select s.test)

def countSplit (h : Hyperparameters α) (x : Matrix α) (y : List α) (s : Split) :
    Except Error Confusion := do
  Confusion.ofPredictions (labelsAt y s.test) (← heldOut h x y s)

def crossValidate (h : Hyperparameters α) (x : Matrix α) (y : List α) (splits : List Split) :
    Except Error ValidationRow := do
  let folds ← splits.mapM (countSplit h x y)
  return {
    hyperparameter := h.label
    counts := folds.foldl (· + ·) Confusion.zero
    scores := Scores.mean (folds.map Confusion.scores) }

end Validation

end PackageTriage
