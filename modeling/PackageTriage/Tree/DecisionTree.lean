import PackageTriage.Attempt
import PackageTriage.Classes
import PackageTriage.Matrix
import PackageTriage.Tree.Growth

/-!
# Decision trees
-/

namespace PackageTriage

structure DecisionTree (α : Type) where
  root : Option (Node α)
  /-- How many splits may lie above a leaf, any number if not given. -/
  maxDepth : Option Nat
  minSplit : Nat
  minLeaf : Nat
  maxFeatures : Option Nat
  seed : UInt64
  width : Nat
  classes : List α

namespace DecisionTree

variable {α : Type}

def unfitted : DecisionTree α := ⟨none, none, 2, 1, none, 0, 0, []⟩

instance : Inhabited (DecisionTree α) := ⟨unfitted⟩

def depth (t : DecisionTree α) : Nat := (t.root.map Node.depth).getD 0

def leaves (t : DecisionTree α) : Nat := (t.root.map Node.leaves).getD 0

def rules (t : DecisionTree α) (width : Nat) : GrowthRules :=
  ⟨t.minSplit, t.minLeaf, t.maxFeatures, width⟩

/-- Enough fuel to grow a tree. Within a depth limit one more than that; otherwise a level for every
sample, and, since a random draw of features may meet some that separate nothing, many more. -/
def fuel (t : DecisionTree α) (samples : Nat) : Nat :=
  match t.maxDepth with
  | some d => d + 1
  | none => samples + 4096

variable [Scalar α]

def samplesOf (classes : List α) (x : Matrix α) (y : List α) : List (TreeSample α) :=
  List.zipWith TreeSample.mk x.rows (Classes.indices classes y)

/-- Fit the tree to the rows of a matrix and their labels. Width and classes are set before it grows. -/
def refit (γ : Type) [Scalar γ] (t : DecisionTree α) (x : Matrix α) (y : List α) :
    Attempt (DecisionTree α) :=
  if x.height ≠ y.length then .failed t (.shape (.labels x.height y.length))
  else if x.rows.isEmpty then .failed t (.data (.noRows "a tree"))
  else
    let classes := Classes.distinct y
    let begun := { t with width := x.width, classes }
    match Node.grow γ (t.rules x.width) classes (t.fuel x.height) t.maxDepth
        (samplesOf classes x y) (ChaCha.ofSeed t.seed) with
    | none => .failed begun .endlessGrowth
    | some (root, _) => .fitted { begun with root := some root }

def fit (γ : Type) [Scalar γ] (t : DecisionTree α) (x : Matrix α) (y : List α) :
    Except Error (DecisionTree α) :=
  (t.refit γ x y).result

def predict (t : DecisionTree α) (x : Matrix α) : Except Error (List α) :=
  match t.root with
  | none => .error .notFitted
  | some root =>
    if x.width = t.width then .ok (x.rows.map root.predict)
    else .error (.shape (.features t.width x.width))

end DecisionTree

end PackageTriage
