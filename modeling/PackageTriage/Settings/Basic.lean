import PackageTriage.Grids.Choices
import PackageTriage.Path

/-!
# Settings

Where files are kept, which families and preprocessing methods may be used, and the grids of the
hyperparameters.
-/

namespace PackageTriage

structure Directories where
  /-- Models and scalers. -/
  models : String
  /-- Validation reports. -/
  results : String
  /-- Prediction reports. -/
  reports : String
  /-- Feature files. -/
  features : String
  deriving DecidableEq, Repr

namespace Directories

instance : Inhabited Directories := ⟨⟨"models", "results", "reports", "features"⟩⟩

def under (root : String) : Directories :=
  let d : Directories := default
  ⟨Path.join root d.models, Path.join root d.results, Path.join root d.reports,
    Path.join root d.features⟩

end Directories

structure Settings (α : Type) where
  directories : Directories
  families : List Family
  methods : List Method
  grids : Grids α

namespace Settings

/-- Where settings are looked for if no place is given. -/
def defaultPath : String := "conf/settings.json"

variable {α : Type} [Scalar α]

instance : Inhabited (Settings α) := ⟨⟨default, Choice.all, Choice.all, default⟩⟩

/-- The family, the method if there is one, and the hyperparameters have to be enabled. -/
def ensureChoice (s : Settings α) (family : Family) (method : Option Method)
    (selection : Selection α) : Except Error Unit := do
  ensureNamed "model" s.families (some family)
  ensureNamed "preprocess" s.methods method
  s.grids.ensureChoices selection family

end Settings

end PackageTriage
