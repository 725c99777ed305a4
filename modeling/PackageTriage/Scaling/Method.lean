import PackageTriage.Choice

/-!
# Preprocessing methods
-/

namespace PackageTriage

inductive Method where
  /-- Leave the features as they are. -/
  | raw
  /-- Mean zero and variance one in every column. -/
  | standardize
  /-- Every column onto the interval from zero to one. -/
  | minMax
  deriving DecidableEq, Repr, Inhabited

def Method.name : Method → String
  | .raw => "none"
  | .standardize => "standardize"
  | .minMax => "min-max"

instance : Choice Method where
  all := [.raw, .standardize, .minMax]
  name := Method.name
  aliases
    | .raw => []
    | .standardize => ["standardlize"]
    | .minMax => ["min-max-scale"]
  spellings
    | .raw => ["none"]
    | .standardize => ["standardize", "standardlize", "standard"]
    | .minMax => ["min-max", "min-max-scale", "min_max", "minmax"]
  shown
    | .raw => "None"
    | .standardize => "Standardize"
    | .minMax => "MinMax"

end PackageTriage
