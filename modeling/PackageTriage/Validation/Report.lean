import PackageTriage.Csv.Writing
import PackageTriage.Grids.Basic
import PackageTriage.Validation.CrossValidation

/-!
# Validation reports

A sweep cross-validates every combination of a family's grid on the same splits. The report has one
row for each, in the order of the grid.
-/

namespace PackageTriage

structure ValidationReport where
  family : Family
  rows : List ValidationRow

namespace ValidationReport

def folds : Nat := 4

def seed : UInt64 := 10

def sweep {α : Type} [Scalar α] (family : Family) (x : Matrix α) (y : List α) (g : Grids α) :
    Except Error ValidationReport :=
  let all := g.combinations family
  if all.isEmpty then .error (.emptyGrid family)
  else do
    let splits ← Folds.split folds (some seed) y
    let rows ← all.mapM fun h => Validation.crossValidate h x y splits
    return ⟨family, rows⟩

/-- Of two rows the one with the higher correlation, the earlier one if it is no lower. -/
def better (best : Option ValidationRow) (row : ValidationRow) : Option ValidationRow :=
  match best with
  | some b => if Scalar.atMost row.scores.mcc b.scores.mcc then some b else some row
  | none => some row

def best? (r : ValidationReport) : Option ValidationRow := r.rows.foldl better none

def header : List String :=
  ["hyperparameter", "TP", "FP", "TN", "FN", "accuracy", "precision", "recall", "f1", "MCC"]

def record (row : ValidationRow) : List String :=
  let c := row.counts
  let s := row.scores
  row.hyperparameter ::
    ([c.truePositive, c.falsePositive, c.trueNegative, c.falseNegative].map toString ++
      [s.accuracy, s.precision, s.sensitivity, s.f1, s.mcc].map Scalar.text)

def csv (r : ValidationReport) : String := Csv.write (header :: r.rows.map record)

end ValidationReport

end PackageTriage
