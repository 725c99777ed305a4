import PackageTriage.Family
import PackageTriage.Scaling.Method
import PackageTriage.Text.Quoted

/-!
# Errors

Everything that can go wrong, by cause. The wording is in `Error.message`.
-/

namespace PackageTriage

inductive ShapeFault where
  /-- A row or matrix has another number of features than expected. -/
  | features (expected actual : Nat)
  /-- A sample has another number of features than the first one. -/
  | sample (expected actual : Nat) (name : String)
  /-- There are not as many labels as rows. -/
  | labels (expected actual : Nat)
  /-- There are not as many predictions as labels. -/
  | predictions (expected actual : Nat)
  deriving DecidableEq, Repr

/-- What data cannot be used for. -/
inductive DataFault where
  | noSamples
  /-- There are no rows to fit something on. -/
  | noRows (fitted : String)
  | fewFolds
  | fewSamples (samples folds : Nat)
  /-- A machine separates two classes, not this many. -/
  | classes (found : Nat)
  /-- The kernel matrix would have too many rows. -/
  | kernelSize (samples limit : Nat)
  deriving DecidableEq, Repr

inductive Error where
  | missingFile (path : String)
  | malformedRow (path : String) (line fields : Nat)
  | notNumeric (sample : String) (column : Nat) (value : String)
  | missingHyperparameter (family : Family) (name : String)
  | missingArtifact (path : String)
  | scalerMismatch (family : Family) (path : String) (expected actual : Method)
  /-- A file or directory could not be read or written. -/
  | storage
  /-- A table could not be written. -/
  | table
  /-- The bytes of an artifact do not spell one. -/
  | undecodable
  /-- A slot holds a model of another family. -/
  | wrongFamily (path : String) (found : Family)
  /-- A settings text does not spell settings. -/
  | settings
  | emptyGrid (family : Family)
  | shape (fault : ShapeFault)
  | parameter (name value reason : String)
  | data (fault : DataFault)
  | notFitted
  /-- A tree without a depth limit went on splitting rows that no split separates. -/
  | endlessGrowth
  deriving DecidableEq, Repr

namespace ShapeFault

def message (expected actual : String) : String :=
  "Invalid shape: expected " ++ expected ++ ", got " ++ actual

def text : ShapeFault → String
  | .features e a => message s!"{e} features" s!"{a} features"
  | .sample e a name => message s!"{e} features" (s!"{a} features in " ++ name)
  | .labels e a => message s!"y length = {e}" s!"y length = {a}"
  | .predictions e a => message s!"{e} predictions" s!"{a} predictions"

end ShapeFault

def DataFault.text : DataFault → String
  | .noSamples => "dataset contains no samples"
  | .noRows fitted => "cannot fit " ++ fitted ++ " on an empty matrix"
  | .fewFolds => "n_splits must be at least 2"
  | .fewSamples n k => s!"n_samples ({n}) must be >= n_splits ({k})"
  | .classes n => s!"SVM needs exactly 2 classes in the training data, found {n}"
  | .kernelSize n limit =>
    s!"Dataset has {n} samples, exceeding the maximum {limit} for the SVM kernel matrix"

namespace Error

def message : Error → String
  | .missingFile path => "File not found: " ++ path
  | .malformedRow path line fields =>
    "Malformed row in " ++ path ++ s!" at line {line}: {fields} field(s)"
  | .notNumeric sample column value =>
    s!"Feature {column} of sample " ++ sample ++ " is not numeric: " ++ Text.quoted value
  | .missingHyperparameter family name =>
    "Missing hyperparameter `" ++ name ++ "` for " ++ family.code
  | .missingArtifact path => "Artifact not found: " ++ path ++ " (train and save a model first)"
  | .scalerMismatch family path expected actual =>
    "Scaler " ++ path ++ " is " ++ actual.name ++ ", " ++ family.code ++ " model expects " ++
      expected.name
  | .storage => "IO error"
  | .table => "CSV error"
  | .undecodable => "Serialization error: not an artifact"
  | .wrongFamily path found =>
    "Serialization error: " ++ path ++ " holds a " ++ found.code ++ " model"
  | .settings => "Configuration error: not settings"
  | .emptyGrid family =>
    "Configuration error: hyperparameter grid for " ++ family.code ++ " is empty"
  | .shape fault => fault.text
  | .parameter name value reason =>
    "Invalid parameter: " ++ name ++ " = " ++ value ++ ", " ++ reason
  | .data fault => "Validation error: " ++ fault.text
  | .notFitted => "Model not fitted"
  | .endlessGrowth => "Validation error: no split separates the samples"

end Error

end PackageTriage
