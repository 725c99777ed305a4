import PackageTriage.Tree.Node

/-!
# Best splits

Which feature and threshold part the samples of a node best. Impurity is Gini's: the chance that two
samples drawn with replacement are of different classes. A split gains the impurity of the node less
the mean impurity of its two sides.

For one feature the samples are sorted by it once. A sweep then moves them one by one from the right
side to the left, keeping the class counts of both sides, and looks at every boundary between
different values. Gains are scalars of their own kind `γ`, since they depend on counts alone.
-/

namespace PackageTriage

/-- A training sample at a node: its features and the place of its class. -/
structure TreeSample (α : Type) where
  features : List α
  label : Nat

abbrev ClassCounts := List Nat

namespace ClassCounts

def zero (classes : Nat) : ClassCounts := List.replicate classes 0

def add (counts : ClassCounts) (label : Nat) : ClassCounts := counts.modify label (· + 1)

def remove (counts : ClassCounts) (label : Nat) : ClassCounts := counts.modify label (· - 1)

def ofLabels (classes : Nat) (labels : List Nat) : ClassCounts := labels.foldl add (zero classes)

/-- At most one class occurs. -/
def isPure (counts : ClassCounts) : Bool := (counts.filter (0 < ·)).length ≤ 1

def majorityFrom (count best : Nat) : (place : Nat) → List Nat → Nat
  | _, [] => best
  | place, c :: cs =>
    if count < c then majorityFrom c place (place + 1) cs
    else majorityFrom count best (place + 1) cs

/-- The place of the first class that no other outnumbers. -/
def majority : ClassCounts → Nat
  | [] => 0
  | c :: cs => majorityFrom c 0 1 cs

end ClassCounts

def gini (γ : Type) [Scalar γ] (counts : ClassCounts) (n : Nat) : γ :=
  if n = 0 then 0
  else 1 - Scalar.sum (counts.map fun (c : Nat) => Scalar.sq ((c : γ) / (n : γ)))

/-- The gain of a split of a node with impurity `parent`. -/
def gain {γ : Type} [Scalar γ] (parent : γ) (left right : ClassCounts) (leftSize rightSize : Nat) :
    γ :=
  parent - ((leftSize : γ) * gini γ left leftSize + (rightSize : γ) * gini γ right rightSize) /
    ((leftSize + rightSize : Nat) : γ)

/-- A feature, a threshold, and what splitting there gains. -/
structure Candidate (α γ : Type) where
  feature : Nat
  threshold : α
  gain : γ

namespace Candidate

variable {α γ : Type} [Scalar α] [Scalar γ]

/-- The candidate at hand or the one so far, whichever gains more; the first wins ties and nothing
is gained by none. -/
def better (best : Option (Candidate α γ)) (new : Candidate α γ) : Option (Candidate α γ) :=
  let gained := match best with
    | some b => b.gain
    | none => 0
  if Scalar.less gained new.gain then some new else best

end Candidate

structure Sweep (α γ : Type) where
  left : ClassCounts
  right : ClassCounts
  leftSize : Nat
  rightSize : Nat
  best : Option (Candidate α γ)

namespace Sweep

variable {α γ : Type} [Scalar α] [Scalar γ]

def start (counts : ClassCounts) (n : Nat) : Sweep α γ :=
  ⟨ClassCounts.zero counts.length, counts, 0, n, none⟩

/-- Move one sample of the class `label` and value `value` to the left; the next value is `next`. -/
def move (minLeaf feature : Nat) (parent : γ) (s : Sweep α γ) (value next : α) (label : Nat) :
    Sweep α γ :=
  let left := s.left.add label
  let right := s.right.remove label
  let leftSize := s.leftSize + 1
  let rightSize := s.rightSize - 1
  let best :=
    if Scalar.same value next || leftSize < minLeaf || rightSize < minLeaf then s.best
    else
      Candidate.better s.best
        ⟨feature, (value + next) / Scalar.two, gain parent left right leftSize rightSize⟩
  ⟨left, right, leftSize, rightSize, best⟩

/-- Move the samples of a sorted list one after the other, but not the last one. -/
def run (minLeaf feature : Nat) (parent : γ) : Sweep α γ → List (α × Nat) → Sweep α γ
  | s, (v, label) :: (w, next) :: rest =>
    run minLeaf feature parent (s.move minLeaf feature parent v w label) ((w, next) :: rest)
  | s, _ => s

end Sweep

variable {α γ : Type} [Scalar α] [Scalar γ]

/-- The values of one feature with the classes, sorted by value; samples of one value keep their
order. -/
def sortedBy (feature : Nat) (samples : List (TreeSample α)) : List (α × Nat) :=
  (samples.map fun s => (s.features.getD feature 0, s.label)).mergeSort
    fun a b => Scalar.rank a.1 b.1

def bestBy (γ : Type) [Scalar γ] (minLeaf : Nat) (counts : ClassCounts)
    (samples : List (TreeSample α)) (feature : Nat) : Option (Candidate α γ) :=
  let n := samples.length
  ((Sweep.start counts n).run minLeaf feature (gini γ counts n) (sortedBy feature samples)).best

/-- The best of the splits found for the features, in their order; the first wins ties. -/
def firstBest (found : List (Candidate α γ)) : Option (Candidate α γ) :=
  found.foldl (fun best new => match best with
    | some b => if Scalar.atMost new.gain b.gain then some b else some new
    | none => some new) none

def bestSplit (γ : Type) [Scalar γ] (minLeaf : Nat) (counts : ClassCounts)
    (samples : List (TreeSample α)) (features : List Nat) : Option (Candidate α γ) :=
  firstBest (features.filterMap (bestBy γ minLeaf counts samples))

end PackageTriage
