import PackageTriage.Scalar

/-!
# Tree nodes

A decision tree answers at its leaves. At a split, a sample whose feature is at most the threshold
goes to the left, any other to the right.
-/

namespace PackageTriage

/-- Every node knows how many training samples reached it. -/
inductive Node (α : Type) where
  | leaf (value : α) (samples : Nat)
  | split (feature : Nat) (threshold : α) (left right : Node α) (samples : Nat)

namespace Node

variable {α : Type}

instance [Zero α] : Inhabited (Node α) := ⟨leaf 0 0⟩

def samples : Node α → Nat
  | leaf _ n => n
  | split _ _ _ _ n => n

def depth : Node α → Nat
  | leaf _ _ => 0
  | split _ _ left right _ => 1 + max left.depth right.depth

def leaves : Node α → Nat
  | leaf _ _ => 1
  | split _ _ left right _ => left.leaves + right.leaves

def features : Node α → List Nat
  | leaf _ _ => []
  | split f _ left right _ => f :: (left.features ++ right.features)

variable [Scalar α]

def goesLeft (feature : Nat) (threshold : α) (sample : List α) : Bool :=
  Scalar.atMost (sample.getD feature 0) threshold

def predict (sample : List α) : Node α → α
  | leaf value _ => value
  | split feature threshold left right _ =>
    if goesLeft feature threshold sample then left.predict sample else right.predict sample

end Node

end PackageTriage
