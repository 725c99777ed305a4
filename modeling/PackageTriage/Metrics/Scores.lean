import PackageTriage.Metrics.Confusion

/-!
# Scores

The five scores of a classifier, each zero where its definition divides by zero: accuracy, precision,
sensitivity (also called recall), their harmonic mean, and Matthews' correlation coefficient.
-/

namespace PackageTriage

structure Scores (γ : Type) where
  accuracy : γ
  precision : γ
  sensitivity : γ
  f1 : γ
  mcc : γ
  deriving Repr

variable {γ : Type} [Scalar γ]

/-- The quotient of two counts, zero over zero being zero. -/
def ratio (part whole : Nat) : γ := if whole = 0 then 0 else (part : γ) / (whole : γ)

namespace Confusion

def accuracy (c : Confusion) : γ := ratio (c.truePositive + c.trueNegative) c.total

def precision (c : Confusion) : γ := ratio c.truePositive (c.truePositive + c.falsePositive)

def sensitivity (c : Confusion) : γ := ratio c.truePositive (c.truePositive + c.falseNegative)

/-- The harmonic mean of precision and sensitivity. -/
def f1 (c : Confusion) : γ :=
  let p : γ := c.precision
  let r : γ := c.sensitivity
  if Scalar.same (p + r) 0 then 0 else Scalar.two * p * r / (p + r)

/-- The correlation of predicted with true classes. -/
def mcc (c : Confusion) : γ :=
  let tp : γ := (c.truePositive : γ)
  let fp : γ := (c.falsePositive : γ)
  let tn : γ := (c.trueNegative : γ)
  let fn : γ := (c.falseNegative : γ)
  let d := Scalar.sqrt ((tp + fp) * (tp + fn) * (tn + fp) * (tn + fn))
  if Scalar.same d 0 then 0 else (tp * tn - fp * fn) / d

def scores (c : Confusion) : Scores γ := ⟨c.accuracy, c.precision, c.sensitivity, c.f1, c.mcc⟩

end Confusion

namespace Scores

def zero : Scores γ := ⟨0, 0, 0, 0, 0⟩

/-- The mean of every score over the folds, zero if there are none. -/
def mean (folds : List (Scores γ)) : Scores γ :=
  if folds.isEmpty then zero
  else
    let average (score : Scores γ → γ) : γ := Scalar.sum (folds.map score) / (folds.length : γ)
    ⟨average accuracy, average precision, average sensitivity, average f1, average mcc⟩

end Scores

end PackageTriage
