import PackageTriage.Choice

/-!
# Actions

What a training run is for: comparing hyperparameters, or keeping one fitted model.
-/

namespace PackageTriage

inductive Action where
  /-- Sweep the grid with cross-validation and write a report. -/
  | validate
  /-- Fit one model on all data and store it. -/
  | save
  deriving DecidableEq, Repr, Inhabited

def Action.name : Action → String
  | .validate => "validate"
  | .save => "save"

instance : Choice Action where
  all := [.validate, .save]
  name := Action.name
  aliases _ := []
  spellings
    | .validate => ["validate", "validation", "training"]
    | .save => ["save"]
  shown
    | .validate => "Validate"
    | .save => "Save"

end PackageTriage
