import PackageTriage.Artifact.Basic
import PackageTriage.Storage.FileSystem

/-!
# Artifact stores

Every family has two slots in the directory of models: one for its model, one for the scaler of the
run that was last to fit one. Saving replaces what is in a slot.
-/

namespace PackageTriage.Store

def modelPath (models : String) (f : Family) : String := Path.join models (f.code ++ ".pkl")

def scalerPath (models : String) (f : Family) : String := Path.join models (f.code ++ "_scaler.pkl")

variable {m : Type → Type} [Monad m] [FileSystem m] {β : Type} [Layout β]

def save (models path : String) (b : β) : Run m String := do
  Run.ensureDirectory models
  Run.writeBytes path (Layout.write b)
  return path

def load (β : Type) [Layout β] (path : String) : Run m β := do
  unless ← Run.isFile path do throw (.missingArtifact path)
  let bytes ← Run.readBytes path
  let some b := Layout.decode? bytes | throw .undecodable
  return b

variable {α : Type} [Layout α] [Scalar α]

def saveModel (models : String) (a : Artifact α) : Run m String :=
  save models (modelPath models a.family) a

def saveScaler (models : String) (f : Family) (s : Scaler α) : Run m String :=
  save models (scalerPath models f) s

/-- A model is of a family when both the artifact and the classifier in it say so. -/
def isOf (f : Family) (a : Artifact α) : Bool := a.family = f && a.classifier.family = f

/-- The model of a family; one of another family may have come into its slot by hand. -/
def loadModel (α : Type) [Layout α] [Scalar α] (models : String) (f : Family) :
    Run m (Artifact α) := do
  let path := modelPath models f
  let a ← load (Artifact α) path
  unless isOf f a do throw (.wrongFamily path a.classifier.family)
  return a

def loadScaler (α : Type) [Layout α] (models : String) (f : Family) : Run m (Scaler α) :=
  load (Scaler α) (scalerPath models f)

end PackageTriage.Store
