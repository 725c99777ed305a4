import PackageTriage.Grids.Basic

/-!
# Choices from a grid

A choice that was made has to be among the values of its grid; one that was not made is not looked
at. The complaint names the choice and shows it beside the values.
-/

namespace PackageTriage

def shownList {β : Type} (shown : β → String) (bs : List β) : String :=
  "[" ++ ", ".intercalate (bs.map shown) ++ "]"

def shownOption {β : Type} (shown : β → String) : Option β → String
  | none => "None"
  | some b => "Some(" ++ shown b ++ ")"

/-- A value that was chosen must be one of those that are offered. -/
def ensureOffered {β : Type} (name : String) (same : β → β → Bool) (shown : β → String)
    (offered : List β) : Option β → Except Error Unit
  | none => .ok ()
  | some b =>
    if offered.any fun o => same o b then .ok ()
    else .error (.parameter name (shown b) ("expected one of " ++ shownList shown offered))

/-- The same for values that are compared by what they are. -/
def ensureListed {β : Type} [DecidableEq β] (name : String) (shown : β → String)
    (offered : List β) (chosen : Option β) : Except Error Unit :=
  ensureOffered name (fun a b => a = b) shown offered chosen

def ensureNamed {β : Type} [DecidableEq β] [Choice β] (name : String) (offered : List β)
    (chosen : Option β) : Except Error Unit :=
  ensureListed name Choice.shown offered chosen

namespace Grids

variable {α : Type} [Scalar α]

/-- Every choice that concerns the family has to be in the family's grid. -/
def ensureChoices (g : Grids α) (s : Selection α) : Family → Except Error Unit
  | .randomForest => do
    ensureListed "number_of_trees" toString g.forest.trees s.trees
    ensureListed "max_depth" (shownOption toString) g.forest.maxDepths (s.maxDepth.map some)
  | .perceptron => do
    ensureListed "hidden_layer_sizes" (shownList toString) (g.perceptron.hidden.map (·.sizes)) s.hidden
    ensureNamed "activation" g.perceptron.activations s.activation
    ensureNamed "optimizer" g.perceptron.solvers s.solver
    ensureOffered "learning_rate" Scalar.same Scalar.shown g.perceptron.rates s.rate
    ensureListed "max_iterations" toString g.perceptron.iterations s.iterations
  | .naiveBayes => ensureOffered "smoothing" Scalar.same Scalar.shown g.naiveBayes.smoothings s.smoothing
  | .vectorMachine => do
    ensureOffered "gamma" Gamma.same Gamma.shown g.machine.gammas s.gamma
    ensureOffered "C" Scalar.same Scalar.shown g.machine.c s.c

end Grids

end PackageTriage
