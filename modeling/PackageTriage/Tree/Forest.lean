import PackageTriage.Tree.DecisionTree

/-!
# Random forests

Many trees, each grown on samples drawn with replacement and with a random draw of features at every
split, and the vote among them. Each tree's draws come from a generator of its own.
-/

namespace PackageTriage

structure Forest (α : Type) where
  trees : List (DecisionTree α)
  size : Nat
  maxDepth : Option Nat
  minSplit : Nat
  minLeaf : Nat
  /-- Whether every tree draws its samples; otherwise it gets all of them. -/
  bootstrap : Bool
  seed : UInt64
  width : Nat
  classes : List α

namespace Forest

variable {α : Type}

def unfitted (size : Nat) : Forest α := ⟨[], size, none, 2, 1, true, 42, 0, []⟩

instance : Inhabited (Forest α) := ⟨unfitted 100⟩

/-- How many features a split looks at: the square root of their number, and at least one. -/
def featuresPerSplit (width : Nat) : Nat :=
  max (Scalar.floor (Scalar.sqrt (Float.ofNat width))) 1

/-- The samples of a tree, drawn if asked for. -/
def sampleIndices {σ : Type} [Generator σ] (bootstrap : Bool) (n : Nat) (g : σ) : List Nat × σ :=
  if bootstrap then Generator.draws (Generator.below n) n g else (List.range n, g)

variable [Scalar α]

def fitTree (γ : Type) [Scalar γ] (f : Forest α) (x : Matrix α) (y : List α) (place : Nat) :
    Except Error (DecisionTree α) :=
  let g := ChaCha.ofSeed (f.seed + place.toUInt64)
  let (indices, g) := sampleIndices f.bootstrap x.height g
  let tree : DecisionTree α :=
    { DecisionTree.unfitted with
      maxDepth := f.maxDepth
      minSplit := f.minSplit
      minLeaf := f.minLeaf
      maxFeatures := some (featuresPerSplit x.width)
      seed := (Generator.word64 g).1 }
  tree.fit γ (x.select indices) (indices.map fun i => y.getD i 0)

/-- Fit the forest to the rows of a matrix and their labels. Width and classes are set before the
trees are fitted. -/
def refit (γ : Type) [Scalar γ] (f : Forest α) (x : Matrix α) (y : List α) : Attempt (Forest α) :=
  if x.height ≠ y.length then .failed f (.shape (.labels x.height y.length))
  else if f.size = 0 then
    .failed f (.parameter "number_of_trees" "0" "a forest needs at least one tree")
  else if x.rows.isEmpty then .failed f (.data (.noRows "a forest"))
  else
    let begun := { f with width := x.width, classes := Classes.distinct y }
    match (List.range f.size).mapM (f.fitTree γ x y) with
    | .error e => .failed begun e
    | .ok trees => .fitted { begun with trees }

def fit (γ : Type) [Scalar γ] (f : Forest α) (x : Matrix α) (y : List α) :
    Except Error (Forest α) :=
  (f.refit γ x y).result

/-- How many of the votes are for each class; a vote for no class is lost. -/
def tally (classes votes : List α) : List Nat :=
  (votes.filterMap (Classes.index? classes)).foldl (fun counts c => counts.modify c (· + 1))
    (List.replicate classes.length 0)

/-- Each tree's predictions for all rows turned into each row's votes. -/
def votesPerRow (rows : Nat) (predictions : List (List α)) : List (List α) :=
  (List.range rows).map fun i => predictions.filterMap (·[i]?)

/-- The share of the votes that each class gets, for every row. -/
def probabilities (f : Forest α) (x : Matrix α) : Except Error (List (List α)) :=
  if f.trees.isEmpty then .error .notFitted
  else do
    let predictions ← f.trees.mapM (·.predict x)
    let n : α := (f.trees.length : α)
    return (votesPerRow x.height predictions).map fun votes =>
      (tally f.classes votes).map fun (c : Nat) => (c : α) / n

/-- The class with the most votes for every row, the lowest code on ties. -/
def predict (f : Forest α) (x : Matrix α) : Except Error (List α) := do
  return (← f.probabilities x).map (Classes.best f.classes)

end Forest

end PackageTriage
