import PackageTriage.Error
import PackageTriage.Machine.Gamma
import PackageTriage.Network.Activation
import PackageTriage.Network.Solver

/-!
# Hyperparameters

What has to be chosen before a classifier of a family can be fitted, and a selection of such choices
that may be incomplete.
-/

namespace PackageTriage

inductive Hyperparameters (α : Type) where
  | randomForest (trees : Nat) (maxDepth : Option Nat)
  | perceptron (rate : α) (hidden : List Nat) (iterations : Nat) (solver : Solver)
      (activation : Activation)
  | naiveBayes (smoothing : α)
  | vectorMachine (gamma : Gamma α) (c : α)

namespace Hyperparameters

variable {α : Type}

def family : Hyperparameters α → Family
  | randomForest .. => .randomForest
  | perceptron .. => .perceptron
  | naiveBayes _ => .naiveBayes
  | vectorMachine .. => .vectorMachine

variable [Scalar α]

def label : Hyperparameters α → String
  | randomForest trees none => s!"estimators={trees}; max_depth=None"
  | randomForest trees (some depth) => s!"estimators={trees}; max_depth={depth}"
  | perceptron rate hidden iterations solver activation =>
    "layer_size=(" ++ ",".intercalate (hidden.map toString) ++ "); activation=" ++ activation.name ++
      "; solver=" ++ solver.name ++ "; learning_rate=" ++ Scalar.text rate ++
      "; max_iter=" ++ toString iterations
  | naiveBayes smoothing => "smoothing=" ++ Scalar.text smoothing
  | vectorMachine gamma c => "c=" ++ Scalar.text c ++ "; gamma=" ++ gamma.text

end Hyperparameters

/-- Choices for any of the families. -/
structure Selection (α : Type) where
  trees : Option Nat
  maxDepth : Option Nat
  rate : Option α
  hidden : Option (List Nat)
  iterations : Option Nat
  solver : Option Solver
  activation : Option Activation
  smoothing : Option α
  gamma : Option (Gamma α)
  c : Option α

namespace Selection

variable {α : Type}

def none : Selection α :=
  ⟨.none, .none, .none, .none, .none, .none, .none, .none, .none, .none⟩

instance : Inhabited (Selection α) := ⟨none⟩

def isEmpty (s : Selection α) : Bool :=
  s.trees.isNone && s.maxDepth.isNone && s.rate.isNone && s.hidden.isNone && s.iterations.isNone &&
    s.solver.isNone && s.activation.isNone && s.smoothing.isNone && s.gamma.isNone && s.c.isNone

def require {β : Type} (family : Family) (name : String) : Option β → Except Error β
  | some b => .ok b
  | .none => .error (.missingHyperparameter family name)

/-- The hyperparameters of a family, or the first one that is missing. Only the depth of the trees of
a forest may be left open. -/
def resolve (s : Selection α) (family : Family) : Except Error (Hyperparameters α) :=
  match family with
  | .randomForest => do
    return .randomForest (← require family "number_of_trees" s.trees) s.maxDepth
  | .perceptron => do
    let rate ← require family "learning_rate" s.rate
    let hidden ← require family "hidden_layer_sizes" s.hidden
    let iterations ← require family "max_iterations" s.iterations
    let solver ← require family "optimizer" s.solver
    let activation ← require family "activation" s.activation
    return .perceptron rate hidden iterations solver activation
  | .naiveBayes => do return .naiveBayes (← require family "smoothing" s.smoothing)
  | .vectorMachine => do
    let gamma ← require family "gamma" s.gamma
    let c ← require family "C" s.c
    return .vectorMachine gamma c

/-- The names of the choices in JSON, in the order in which a list gives them. -/
def names : List String :=
  ["n_trees", "max_depth", "learning_rate", "hidden_layer_sizes", "max_iterations", "optimizer",
    "activation", "var_smoothing", "gamma", "c"]

def choice? {β : Type} (read : Json → Option β) (j : Option Json) : Option (Option β) :=
  Json.orDefault? (Json.optional? read) .none j

/-- An object may leave choices out; a list has to give all of them. -/
def ofJson? (j : Json) : Option (Selection Float) := do
  if let .list items := j then guard (items.length = names.length)
  match ← Json.fields? (names.map fun n => [n]) j with
  | [trees, maxDepth, rate, hidden, iterations, solver, activation, smoothing, gamma, c] =>
    return ⟨← choice? Json.natural? trees, ← choice? Json.natural? maxDepth,
      ← choice? Json.float? rate, ← choice? (Json.listOf? Json.natural?) hidden,
      ← choice? Json.natural? iterations, ← choice? Choice.ofJson? solver,
      ← choice? Choice.ofJson? activation, ← choice? Json.float? smoothing,
      ← choice? Gamma.ofJson? gamma, ← choice? Json.float? c⟩
  | _ => .none

end Selection

end PackageTriage
