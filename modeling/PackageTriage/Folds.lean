import PackageTriage.Error
import PackageTriage.Random.ChaCha
import PackageTriage.Scalar

/-!
# Stratified folds

The samples are grouped by class, the groups put one behind the other in the order of their classes,
and the samples dealt out to the folds in turn. So every fold gets its share of every class, and fold
sizes differ by at most one. Each fold is once the test set of a split whose training set is all the
others.
-/

namespace PackageTriage

/-- The indices of the samples that a model is fitted on and of those it is tested on. -/
structure Split where
  fold : Nat
  train : List Nat
  test : List Nat
  deriving DecidableEq, Repr

namespace Folds

def ascending (xs : List Nat) : List Nat := xs.mergeSort (fun a b => a ≤ b)

def classesOf (keys : List Int) : List Int := (keys.mergeSort (fun a b => a ≤ b)).eraseDups

def membersOf (keys : List Int) (k : Int) : List Nat :=
  (List.range keys.length).filter fun i => keys[i]? == some k

def strata (keys : List Int) : List (List Nat) := (classesOf keys).map (membersOf keys)

/-- Deal out to `n` folds in turn; this is what the fold `f` gets. -/
def deal (n : Nat) (samples : List Nat) (f : Nat) : List Nat :=
  (samples.zipIdx.filter fun (_, t) => t % n = f).map (·.1)

def splitOf (n : Nat) (samples : List Nat) (f : Nat) : Split where
  fold := f
  test := ascending (deal n samples f)
  train := ascending (((List.range n).filter (· ≠ f)).flatMap (deal n samples))

def ofStrata (n : Nat) (groups : List (List Nat)) : List Split :=
  (List.range n).map (splitOf n groups.flatten)

/-- The splits of the samples with these class codes into `n` folds. A seed asks for each class to be
shuffled first. -/
def split {α : Type} [Scalar α] (n : Nat) (seed : Option UInt64) (y : List α) :
    Except Error (List Split) :=
  if n < 2 then .error (.data .fewFolds)
  else if y.length < n then .error (.data (.fewSamples y.length n))
  else
    let groups := strata (y.map Scalar.round)
    let groups := match seed with
      | none => groups
      | some s => (Generator.shuffleEach groups (ChaCha.ofSeed s)).1
    .ok (ofStrata n groups)

end Folds

end PackageTriage
