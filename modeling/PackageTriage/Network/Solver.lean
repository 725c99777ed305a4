import PackageTriage.Choice

/-!
# Solvers

The ways to minimise the loss of a network.
-/

namespace PackageTriage

inductive Solver where
  /-- Gradient descent on small batches, with momentum. -/
  | sgd
  /-- Gradient descent on small batches, with step sizes from running moments of the gradient. -/
  | adam
  /-- Quasi-Newton steps on all samples at once. -/
  | lbfgs
  deriving DecidableEq, Repr, Inhabited

def Solver.name : Solver → String
  | .sgd => "sgd"
  | .adam => "adam"
  | .lbfgs => "lbfgs"

instance : Choice Solver where
  all := [.sgd, .adam, .lbfgs]
  name := Solver.name
  aliases _ := []
  spellings
    | .sgd => ["sgd"]
    | .adam => ["adam"]
    | .lbfgs => ["lbfgs", "l-bfgs"]
  shown
    | .sgd => "Sgd"
    | .adam => "Adam"
    | .lbfgs => "Lbfgs"

end PackageTriage
