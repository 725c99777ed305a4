import PackageTriage.Choice

/-!
# Model families

The four kinds of classifier. Each has a short code, which also names its files.
-/

namespace PackageTriage

inductive Family where
  | randomForest
  | perceptron
  | naiveBayes
  | vectorMachine
  deriving DecidableEq, Repr, Inhabited

namespace Family

def code : Family → String
  | .randomForest => "RF"
  | .perceptron => "MLP"
  | .naiveBayes => "NB"
  | .vectorMachine => "SVM"

def all : List Family := [.randomForest, .perceptron, .naiveBayes, .vectorMachine]

/-- Trees compare a feature with thresholds of its own scale, so forests predict on raw features. -/
def appliesScaler (f : Family) : Bool := f ≠ .randomForest

end Family

instance : Choice Family where
  all := Family.all
  name := Family.code
  aliases _ := []
  spellings
    | .randomForest => ["rf", "random_forest", "randomforest"]
    | .perceptron => ["mlp"]
    | .naiveBayes => ["nb", "naive_bayes", "naivebayes"]
    | .vectorMachine => ["svm"]
  shown
    | .randomForest => "RandomForest"
    | .perceptron => "Mlp"
    | .naiveBayes => "NaiveBayes"
    | .vectorMachine => "Svm"

end PackageTriage
