import PackageTriage.Hyperparameters
import PackageTriage.Label
import PackageTriage.Machine.VectorMachine
import PackageTriage.NaiveBayes
import PackageTriage.Network.Perceptron
import PackageTriage.Tree.Forest

/-!
# Classifiers

A model of any of the four families. Its class codes are those of labels: one for malicious packages,
zero for benign ones.
-/

namespace PackageTriage

inductive Classifier (α : Type) where
  | forest (f : Forest α)
  | perceptron (p : Perceptron α)
  | naiveBayes (b : NaiveBayes α)
  | vectorMachine (m : VectorMachine α)

namespace Classifier

variable {α : Type} [Scalar α]

def family : Classifier α → Family
  | forest _ => .randomForest
  | perceptron _ => .perceptron
  | naiveBayes _ => .naiveBayes
  | vectorMachine _ => .vectorMachine

/-- Fit a new model. What the hyperparameters leave open has its default. -/
def fitNew (h : Hyperparameters α) (x : Matrix α) (y : List α) : Except Error (Classifier α) :=
  match h with
  | .randomForest trees maxDepth => do
    return .forest (← { Forest.unfitted trees with maxDepth }.fit Float x y)
  | .perceptron rate hidden iterations solver activation => do
    let training : Training α :=
      { (default : Training α) with rate, hidden, limit := iterations, solver, activation }
    return .perceptron (← (Perceptron.unfitted training).fit x y)
  | .naiveBayes smoothing => do return .naiveBayes (← (NaiveBayes.unfitted smoothing).fit x y)
  | .vectorMachine gamma c => do
    let settings : MachineSettings α := { (default : MachineSettings α) with gamma, c }
    return .vectorMachine (← ((VectorMachine.unfitted settings).fit x y).result)

def fit (h : Hyperparameters α) (x : Matrix α) (y : List α) : Except Error (Classifier α) :=
  if x.height = y.length then fitNew h x y else .error (.shape (.labels x.height y.length))

def predict : Classifier α → Matrix α → Except Error (List α)
  | forest f, x => f.predict x
  | perceptron p, x => p.predict x
  | naiveBayes b, x => b.predict x
  | vectorMachine m, x => m.predict x

def predictOne (k : Classifier α) (sample : List α) : Except Error Label := do
  let classes ← k.predict (.ofRow sample)
  return .ofClass (classes.headD 0)

end Classifier

end PackageTriage
