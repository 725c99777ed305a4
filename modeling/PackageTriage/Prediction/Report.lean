import PackageTriage.Csv.Writing
import PackageTriage.Prediction.Predictor

/-!
# Prediction reports
-/

namespace PackageTriage.Prediction

def header : List String := ["package name", "predict"]

def csv (ps : List Prediction) : String :=
  Csv.write (header :: ps.map fun p => [p.package, p.label.name])

def reportPath (reports : String) (f : Family) : String :=
  Path.join reports (f.code ++ "_predictions.csv")

def writeReport {m : Type → Type} [Monad m] [FileSystem m] (ps : List Prediction) (path : String) :
    Run m Unit :=
  Run.writeTable path (csv ps)

end PackageTriage.Prediction
