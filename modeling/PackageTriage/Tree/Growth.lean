import PackageTriage.Random.ChaCha
import PackageTriage.Random.Subset
import PackageTriage.Tree.Split

/-!
# Growing a tree

A node becomes a leaf when it has too few samples, is as deep as allowed, holds one class only, or no
split gains anything; otherwise its samples go to the two sides of the best split and both grow on,
the left one first. With a limit on the features per split each split looks at a fresh random draw of
features.

A split need not separate: halfway between two neighbouring floats there may be no float, and what is
not a number is never at most a threshold. Growth is therefore bounded by `fuel` as well, and gives
nothing when that runs out.
-/

namespace PackageTriage

/-- When to stop and where to look. -/
structure GrowthRules where
  minSplit : Nat
  minLeaf : Nat
  /-- How many features are drawn for a split, all of them if not given. -/
  maxFeatures : Option Nat
  /-- The number of features. -/
  width : Nat

namespace GrowthRules

/-- No further split is tried. `levels` are those still allowed. -/
def stops (r : GrowthRules) (levels : Option Nat) (counts : ClassCounts) (n : Nat) : Bool :=
  n < r.minSplit || n < 2 * r.minLeaf || levels == some 0 || counts.isPure

/-- The features that one split looks at, in rising order. -/
def features {σ : Type} [Generator σ] (r : GrowthRules) (g : σ) : List Nat × σ :=
  match r.maxFeatures with
  | some k =>
    if k < r.width then
      let (fs, g) := Generator.subset r.width (max k 1) g
      (fs.mergeSort (fun a b => a ≤ b), g)
    else (List.range r.width, g)
  | none => (List.range r.width, g)

end GrowthRules

namespace Node

variable {α σ : Type} [Scalar α] [Generator σ]

/-- A leaf with the majority class of its samples, the lowest code on ties. -/
def ofCounts (classes : List α) (counts : ClassCounts) (n : Nat) : Node α :=
  .leaf (classes.getD counts.majority 0) n

/-- The tree over the given samples, and the generator after it. -/
def grow (γ : Type) [Scalar γ] (rules : GrowthRules) (classes : List α) :
    (fuel : Nat) → (levels : Option Nat) → List (TreeSample α) → σ → Option (Node α × σ)
  | 0, _, _, _ => none
  | fuel + 1, levels, samples, g =>
    let n := samples.length
    let counts := ClassCounts.ofLabels classes.length (samples.map (·.label))
    if rules.stops levels counts n then some (ofCounts classes counts n, g)
    else
      let (features, g) := rules.features g
      match bestSplit γ rules.minLeaf counts samples features with
      | none => some (ofCounts classes counts n, g)
      | some best =>
        let (left, right) := samples.partition fun s =>
          goesLeft best.feature best.threshold s.features
        match grow γ rules classes fuel (levels.map (· - 1)) left g with
        | none => none
        | some (left, g) =>
          match grow γ rules classes fuel (levels.map (· - 1)) right g with
          | none => none
          | some (right, g) => some (.split best.feature best.threshold left right n, g)

end Node

end PackageTriage
