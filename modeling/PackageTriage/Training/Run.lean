import PackageTriage.Artifact.Store
import PackageTriage.Feature.Directory
import PackageTriage.Settings.Basic
import PackageTriage.Training.Request
import PackageTriage.Validation.Report

/-!
# Training runs

A run reads the feature files, preprocesses their matrix, and either validates the grid of the family
and writes a report, or fits one model and saves it. A scaler that was fitted is saved before that.
-/

namespace PackageTriage.TrainRequest

def reportPath (results : String) (f : Family) : String :=
  Path.join results (f.code ++ "_validation.csv")

/-- The hyperparameters of the model that is to be saved, if one is. -/
def chosen (r : TrainRequest) : Except Error (Option (Hyperparameters Float)) :=
  match r.action with
  | .validate => .ok none
  | .save => (r.selection.resolve r.family).map some

variable {m : Type → Type} [Monad m] [FileSystem m]

def readData (r : TrainRequest) : Run m (Matrix Float × List Float) := do
  let samples ← Dataset.read r.malicious r.benign
  Run.ofExcept (Dataset.toMatrix samples)

def validate (r : TrainRequest) (d : Directories) (g : Grids Float) (x : Matrix Float)
    (y : List Float) : Run m String := do
  let report ← Run.ofExcept (ValidationReport.sweep r.family x y g)
  let path := reportPath d.results r.family
  Run.writeTable path report.csv
  return path

def save (r : TrainRequest) (d : Directories) (h : Hyperparameters Float) (x : Matrix Float)
    (y : List Float) : Run m String := do
  let classifier ← Run.ofExcept (Classifier.fit h x y)
  Store.saveModel d.models (⟨r.family, r.method, h.label, classifier⟩ : Artifact Float)

/-- Do what was asked for and give the path of the report or model. -/
def run (r : TrainRequest) (d : Directories) (g : Grids Float) : Run m String := do
  let chosen ← Run.ofExcept r.chosen
  let (x, y) ← r.readData
  let (x, scaler) ← Run.ofExcept (r.method.preprocess x)
  if let some s := scaler then
    let _ ← Store.saveScaler d.models r.family s
  match chosen with
  | none => r.validate d g x y
  | some h => r.save d h x y

end PackageTriage.TrainRequest
