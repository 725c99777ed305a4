import PackageTriage.Proofs.Random.Draws
import PackageTriage.Proofs.Selection
import PackageTriage.Tree.Forest

/-!
# The samples of a tree in a forest

Drawn with replacement or not, a tree of a forest gets as many samples as there are, and only such as
there are.
-/

namespace PackageTriage.Forest

variable {α σ : Type}

theorem length_sampleIndices [Generator σ] (bootstrap : Bool) (n : Nat) (g : σ) :
    (sampleIndices bootstrap n g).1.length = n := by
  cases bootstrap with
  | false => simp [sampleIndices]
  | true => simp [sampleIndices, Generator.length_draws]

theorem sampleIndices_lt [Generator σ] (bootstrap : Bool) {n : Nat} (hn : 0 < n) (g : σ) :
    ∀ i ∈ (sampleIndices bootstrap n g).1, i < n := by
  cases bootstrap with
  | false => simp [sampleIndices]
  | true => simpa [sampleIndices] using Generator.forall_mem_draws (Generator.below_lt hn) n g

/-- The samples of the tree at a place, and the generator behind them. -/
def drawn (f : Forest α) (n place : Nat) : List Nat × ChaCha :=
  sampleIndices f.bootstrap n (ChaCha.ofSeed (f.seed + place.toUInt64))

def sapling (f : Forest α) (x : Matrix α) (place : Nat) : DecisionTree α :=
  { DecisionTree.unfitted with
    maxDepth := f.maxDepth
    minSplit := f.minSplit
    minLeaf := f.minLeaf
    maxFeatures := some (featuresPerSplit x.width)
    seed := (Generator.word64 (f.drawn x.height place).2).1 }

/-- A tree of a forest is a tree fitted to the rows drawn for it. -/
theorem fitTree_eq [Scalar α] (γ : Type) [Scalar γ] (f : Forest α) (x : Matrix α) (y : List α)
    (place : Nat) :
    f.fitTree γ x y place = (f.sapling x place).fit γ (x.select (f.drawn x.height place).1)
      ((f.drawn x.height place).1.map fun i => y.getD i 0) := rfl

theorem length_drawn (f : Forest α) (n place : Nat) : (f.drawn n place).1.length = n :=
  length_sampleIndices _ _ _

theorem drawn_lt (f : Forest α) {n : Nat} (hn : 0 < n) (place : Nat) :
    ∀ i ∈ (f.drawn n place).1, i < n :=
  sampleIndices_lt _ hn _

theorem height_select_drawn (f : Forest α) {x : Matrix α} (hrows : x.rows ≠ []) (place : Nat) :
    (x.select (f.drawn x.height place).1).height = x.height := by
  have hpos : 0 < x.height := List.length_pos_iff.2 hrows
  rw [Matrix.height_select (f.drawn_lt hpos place), length_drawn]

end PackageTriage.Forest
