import PackageTriage.Artifact.Store
import PackageTriage.Feature.Directory

/-!
# Predictors

A stored model with the scaler that its samples go through. A forest goes without one, whatever
preprocessing its training run used. The scaler has to come from the method that the model was trained
with: a later run with another method may have replaced it.
-/

namespace PackageTriage

structure Predictor where
  artifact : Artifact Float
  scaler : Option (Scaler Float)

structure Prediction where
  package : String
  label : Label
  deriving DecidableEq, Repr

namespace Predictor

def isScaled (a : Artifact Float) : Bool := a.family.appliesScaler && a.method ≠ .raw

def classify (p : Predictor) (sample : List Float) : Except Error Label := do
  let sample ← match p.scaler with
    | some s => s.transformRow sample
    | none => .ok sample
  p.artifact.classifier.predictOne sample

/-- What is wrong with the scaler that was found for a model. -/
def checkScaler (models : String) (a : Artifact Float) (s : Scaler Float) : Except Error Unit :=
  if s.method = a.method then .ok ()
  else .error (.scalerMismatch a.family (Store.scalerPath models a.family) a.method s.method)

variable {m : Type → Type} [Monad m] [FileSystem m]

def load (models : String) (f : Family) : Run m Predictor := do
  let a ← Store.loadModel Float models f
  if isScaled a then
    let s ← Store.loadScaler Float models f
    Run.ofExcept (checkScaler models a s)
    return ⟨a, some s⟩
  else return ⟨a, none⟩

def predictFile (p : Predictor) (path : String) : Run m Label := do
  let values ← FeatureFile.read path
  let sample ← Run.ofExcept (FeatureValue.numbers path values)
  Run.ofExcept (p.classify sample)

/-- The prediction for a package, named by its feature file without what stands from the last dot on. -/
def predictPackage (p : Predictor) (path : String) : Run m Prediction := do
  let label ← p.predictFile path
  return ⟨Path.stem ((Path.fileName? path).getD ""), label⟩

def predict (models : String) (f : Family) (path : String) : Run m Label := do
  (← load models f).predictFile path

def predictDirectory (models : String) (f : Family) (directory : String) :
    Run m (List Prediction) := do
  unless ← Run.isDirectory directory do throw (.missingFile directory)
  let p ← load models f
  Run.forFiles directory p.predictPackage

end Predictor

end PackageTriage
