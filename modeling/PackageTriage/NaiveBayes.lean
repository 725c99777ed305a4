import PackageTriage.Attempt
import PackageTriage.Classes
import PackageTriage.Matrix
import PackageTriage.Statistics

/-!
# Gaussian naive Bayes

Each class has a mean and a variance for every feature, as if the features were normal and
independent within the class. All variances are widened by a share of the greatest variance of any
feature, so that a constant feature has one that can be divided by.
-/

namespace PackageTriage

structure NaiveBayes (α : Type) where
  /-- For each class the mean of every feature. -/
  means : List (List α)
  /-- For each class the widened variance of every feature. -/
  variances : List (List α)
  priors : List α
  classes : List α
  /-- The share of the greatest variance that widens all of them. -/
  smoothing : α
  /-- By how much the variances were widened. -/
  epsilon : α

namespace NaiveBayes

variable {α : Type} [Scalar α]

def unfitted (smoothing : α) : NaiveBayes α := ⟨[], [], [], [], smoothing, 0⟩

def defaultSmoothing : α := Scalar.decimal 1 9

instance : Inhabited (NaiveBayes α) := ⟨unfitted defaultSmoothing⟩

/-- By how much variances are widened. Without any variance the smoothing itself is the amount, and it
is never so small that dividing by it loses precision. -/
def widening (smoothing : α) (x : Matrix α) : α :=
  let greatest := (x.columns.map Statistics.variance).foldl Scalar.max 0
  Scalar.max (if Scalar.less 0 greatest then smoothing * greatest else smoothing)
    Scalar.leastNormal

/-- What a class knows of one feature: its mean and its widened variance. -/
def featureStatistics (epsilon : α) (values : List α) : α × α :=
  let s := Statistics.Spread.ofListRounded values
  (s.mean, s.squares / (values.length : α) + epsilon)

def rowsOf (x : Matrix α) (y : List α) (c : α) : Matrix α :=
  x.select ((List.range x.height).filter fun i => Scalar.same (y.getD i 0) c)

/-- Fit the classifier to the rows of a matrix and their labels. Nothing is set before everything was
checked. -/
def refit (b : NaiveBayes α) (x : Matrix α) (y : List α) : Attempt (NaiveBayes α) :=
  if x.rows.isEmpty then .failed b (.data (.noRows "Naive Bayes"))
  else if x.height ≠ y.length then .failed b (.shape (.labels x.height y.length))
  else if !Scalar.atMost 0 b.smoothing then
    .failed b (.parameter "smoothing" (Scalar.text b.smoothing) "must be non-negative")
  else
    let epsilon := widening b.smoothing x
    let classes := Classes.distinct y
    let groups := classes.map (rowsOf x y)
    let statistics := groups.map fun rows => rows.columns.map (featureStatistics epsilon)
    .fitted { b with
      means := statistics.map (List.map Prod.fst)
      variances := statistics.map (List.map Prod.snd)
      priors := groups.map fun rows => (rows.height : α) / (x.height : α)
      classes
      epsilon }

def fit (b : NaiveBayes α) (x : Matrix α) (y : List α) : Except Error (NaiveBayes α) :=
  (b.refit x y).result

def tau : α := Scalar.two * Scalar.decimal 3141592653589793 15

def logDensity (value mean variance : α) : α :=
  -Scalar.half * (Scalar.sq (value - mean) / variance + Scalar.log variance + Scalar.log tau)

/-- The logarithm of the density of a sample within a class. -/
def logLikelihood (means variances sample : List α) : α :=
  Scalar.sum (List.zipWith (fun v (m, s) => logDensity v m s) sample (means.zip variances))

/-- The logarithm of every class's share in the density of a sample. -/
def jointLogLikelihood (b : NaiveBayes α) (sample : List α) : List α :=
  List.zipWith (fun prior (means, variances) =>
    Scalar.log prior + logLikelihood means variances sample) b.priors (b.means.zip b.variances)

def width (b : NaiveBayes α) : Nat := (b.means.headD []).length

def joint (b : NaiveBayes α) (x : Matrix α) : Except Error (List (List α)) :=
  if b.classes.isEmpty then .error .notFitted
  else if x.width ≠ b.width then .error (.shape (.features b.width x.width))
  else .ok (x.rows.map b.jointLogLikelihood)

/-- Subtract from logarithms that of the sum of what they are logarithms of. -/
def normalize (logs : List α) : List α :=
  let top := Statistics.greatest logs
  let total := Scalar.log (Scalar.sum (logs.map fun v => Scalar.exp (v - top)))
  logs.map fun v => v - top - total

def logProbabilities (b : NaiveBayes α) (x : Matrix α) : Except Error (List (List α)) := do
  return (← b.joint x).map normalize

def probabilities (b : NaiveBayes α) (x : Matrix α) : Except Error (List (List α)) := do
  return (← b.logProbabilities x).map (List.map Scalar.exp)

/-- The likeliest class of every row, the lowest code on ties. -/
def predict (b : NaiveBayes α) (x : Matrix α) : Except Error (List α) := do
  return (← b.joint x).map (Classes.best b.classes)

end NaiveBayes

end PackageTriage
