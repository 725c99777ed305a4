import PackageTriage.Hyperparameters

/-!
# Grids

For every family the values that each hyperparameter may take. A validation sweep tries all
combinations; a single model has to be fitted with one of them.
-/

namespace PackageTriage

/-- The sizes of the hidden layers: of one layer, or of several. -/
inductive HiddenLayers where
  | single (units : Nat)
  | stacked (units : List Nat)
  deriving DecidableEq, Repr

namespace HiddenLayers

def sizes : HiddenLayers → List Nat
  | single n => [n]
  | stacked ns => ns

end HiddenLayers

structure ForestGrid where
  trees : List Nat
  maxDepths : List (Option Nat)

structure PerceptronGrid (α : Type) where
  hidden : List HiddenLayers
  activations : List Activation
  solvers : List Solver
  rates : List α
  iterations : List Nat

structure NaiveBayesGrid (α : Type) where
  smoothings : List α

structure MachineGrid (α : Type) where
  gammas : List (Gamma α)
  c : List α

structure Grids (α : Type) where
  forest : ForestGrid
  perceptron : PerceptronGrid α
  naiveBayes : NaiveBayesGrid α
  machine : MachineGrid α

def ForestGrid.default : ForestGrid := ⟨[50, 100, 200], [none, some 10, some 20]⟩

instance : Inhabited ForestGrid := ⟨ForestGrid.default⟩

section Defaults

variable {α : Type} [Scalar α]

def PerceptronGrid.default : PerceptronGrid α where
  hidden := [.single 50, .single 100]
  activations := [.relu, .tanh, .logistic]
  solvers := [.adam, .sgd, .lbfgs]
  rates := [Scalar.decimal 1 3, Scalar.decimal 1 2]
  iterations := [200, 500]

instance : Inhabited (PerceptronGrid α) := ⟨PerceptronGrid.default⟩

def NaiveBayesGrid.default : NaiveBayesGrid α :=
  ⟨[Scalar.decimal 1 9, Scalar.decimal 1 8, Scalar.decimal 1 7]⟩

instance : Inhabited (NaiveBayesGrid α) := ⟨NaiveBayesGrid.default⟩

def MachineGrid.default : MachineGrid α :=
  ⟨[.named "scale", .named "auto", .value (Scalar.decimal 1 1), .value 1],
    [Scalar.decimal 1 1, 1, ((10 : Nat) : α)]⟩

instance : Inhabited (MachineGrid α) := ⟨MachineGrid.default⟩

instance : Inhabited (Grids α) := ⟨⟨default, default, default, default⟩⟩

end Defaults

section Combinations

variable {α : Type}

def ForestGrid.combinations (g : ForestGrid) : List (Hyperparameters α) :=
  g.trees.flatMap fun trees => g.maxDepths.map fun depth => .randomForest trees depth

def PerceptronGrid.combinations (g : PerceptronGrid α) : List (Hyperparameters α) :=
  g.hidden.flatMap fun hidden =>
    g.activations.flatMap fun activation =>
      g.solvers.flatMap fun solver =>
        g.rates.flatMap fun rate =>
          g.iterations.map fun iterations =>
            .perceptron rate hidden.sizes iterations solver activation

def NaiveBayesGrid.combinations (g : NaiveBayesGrid α) : List (Hyperparameters α) :=
  g.smoothings.map .naiveBayes

def MachineGrid.combinations (g : MachineGrid α) : List (Hyperparameters α) :=
  g.c.flatMap fun c => g.gammas.map fun gamma => .vectorMachine gamma c

/-- All combinations of a family; the values of the last hyperparameter change fastest. -/
def Grids.combinations (g : Grids α) : Family → List (Hyperparameters α)
  | .randomForest => g.forest.combinations
  | .perceptron => g.perceptron.combinations
  | .naiveBayes => g.naiveBayes.combinations
  | .vectorMachine => g.machine.combinations

end Combinations

end PackageTriage
