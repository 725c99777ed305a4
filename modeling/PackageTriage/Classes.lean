import PackageTriage.Scalar

/-!
# Classes

The distinct class codes of a label vector in rising order. The columns of every table that a
classifier keeps per class, and of the probabilities it gives, follow this order.
-/

namespace PackageTriage.Classes

variable {α : Type} [Scalar α]

/-- Of neighbours that are the same keep the first. -/
def dropRepeats : List α → List α
  | [] => []
  | c :: cs => c :: dropAfter c cs
where
  /-- The elements behind `c`, which is kept. -/
  dropAfter (c : α) : List α → List α
    | [] => []
    | d :: ds => if Scalar.same c d then dropAfter c ds else d :: dropAfter d ds

def distinct (y : List α) : List α := dropRepeats (y.mergeSort Scalar.rank)

def index? (classes : List α) (c : α) : Option Nat := classes.findIdx? (Scalar.same · c)

/-- The place of every label; one that is no class counts as the first. -/
def indices (classes y : List α) : List Nat := y.map fun c => (index? classes c).getD 0

def argmaxFrom (score : α) (best : Nat) : (place : Nat) → List α → Nat
  | _, [] => best
  | place, s :: ss =>
    if Scalar.less score s then argmaxFrom s place (place + 1) ss
    else argmaxFrom score best (place + 1) ss

/-- The place of the first score that no other is above. -/
def argmax : List α → Nat
  | [] => 0
  | s :: ss => argmaxFrom s 0 1 ss

/-- The class with the highest score, the lowest code on ties. -/
def best (classes scores : List α) : α := classes.getD (argmax scores) 0

end PackageTriage.Classes
