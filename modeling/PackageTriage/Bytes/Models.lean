import PackageTriage.Bytes.Matrix
import PackageTriage.Classifier
import PackageTriage.Scaling.Scaler

/-!
# Layout of models and scalers

The parts of each model in a fixed order. The settings of a support vector machine are not laid out: a
machine that is read back has the default ones, which only another fit would ask for.
-/

namespace PackageTriage.Layout

instance : Layout Family := ofChoice Family

instance : Layout Method := ofChoice Method

instance : Layout Activation := ofChoice Activation

instance : Layout Solver := ofChoice Solver

variable {α : Type}

instance [Layout α] : Layout (Scaler α) where
  write
    | .standard mean scale => writeTag 0 ++ write (mean, scale)
    | .minMax low scale => writeTag 1 ++ write (low, scale)
  read bs := do
    let (tag, bs) ← readTag bs
    let ((center, scale), bs) ← (read bs : Option ((List α × List α) × List UInt8))
    match tag with
    | 0 => some (.standard center scale, bs)
    | 1 => some (.minMax center scale, bs)
    | _ => none

def writeNode [Layout α] : Node α → List UInt8
  | .leaf value n => writeTag 0 ++ write (value, n)
  | .split feature threshold left right n =>
    writeTag 1 ++ write (feature, threshold) ++ writeNode left ++ writeNode right ++ write n

/-- Read a node and what is below it; `fuel` bounds the depth. -/
def readNode [Layout α] : (fuel : Nat) → List UInt8 → Option (Node α × List UInt8)
  | 0, _ => none
  | fuel + 1, bs => do
    let (tag, bs) ← readTag bs
    match tag with
    | 0 =>
      let ((value, n), bs) ← (read bs : Option ((α × Nat) × List UInt8))
      return (.leaf value n, bs)
    | 1 =>
      let ((feature, threshold), bs) ← (read bs : Option ((Nat × α) × List UInt8))
      let (left, bs) ← readNode fuel bs
      let (right, bs) ← readNode fuel bs
      let (n, bs) ← (read bs : Option (Nat × List UInt8))
      return (.split feature threshold left right n, bs)
    | _ => none

/-- Every node takes bytes, so their number bounds the depth. -/
instance [Layout α] : Layout (Node α) where
  write := writeNode
  read bs := readNode (bs.length + 1) bs

instance [Layout α] : Layout (DecisionTree α) :=
  via (fun t => (t.root, t.maxDepth, t.minSplit, t.minLeaf, t.maxFeatures, t.seed, t.width, t.classes))
    fun (root, maxDepth, minSplit, minLeaf, maxFeatures, seed, width, classes) =>
      ⟨root, maxDepth, minSplit, minLeaf, maxFeatures, seed, width, classes⟩

instance [Layout α] : Layout (Forest α) :=
  via (fun f => (f.trees, f.size, f.maxDepth, f.minSplit, f.minLeaf, f.bootstrap, f.seed, f.width,
      f.classes))
    fun (trees, size, maxDepth, minSplit, minLeaf, bootstrap, seed, width, classes) =>
      ⟨trees, size, maxDepth, minSplit, minLeaf, bootstrap, seed, width, classes⟩

instance [Layout α] : Layout (NaiveBayes α) :=
  via (fun b => (b.means, b.variances, b.priors, b.classes, b.smoothing, b.epsilon))
    fun (means, variances, priors, classes, smoothing, epsilon) =>
      ⟨means, variances, priors, classes, smoothing, epsilon⟩

instance [Layout α] [Scalar α] : Layout (VectorMachine α) :=
  via (fun m => (m.gamma, m.support, AsVector.mk m.coefficients, m.bias, m.classes))
    fun (gamma, support, coefficients, bias, classes) =>
      ⟨default, gamma, support, coefficients.entries, bias, classes⟩

instance [Layout α] : Layout (Training α) :=
  via (fun t => (t.hidden, t.activation, t.solver, t.rate, t.limit, t.batch, t.alpha, t.seed,
      t.momentum, t.tolerance, t.patience, t.beta1, t.beta2, t.epsilon))
    fun (hidden, activation, solver, rate, limit, batch, alpha, seed, momentum, tolerance, patience,
        beta1, beta2, epsilon) =>
      ⟨hidden, activation, solver, rate, limit, batch, alpha, seed, momentum, tolerance, patience,
        beta1, beta2, epsilon⟩

instance [Layout α] : Layout (Perceptron α) :=
  via (fun p => (p.training, p.weights, p.biases.map AsVector.mk, p.width, p.classes, p.iterations,
      p.loss))
    fun (training, weights, biases, width, classes, iterations, loss) =>
      ⟨training, weights, biases.map AsVector.entries, width, classes, iterations, loss⟩

variable [Layout α] [Scalar α]

def readModel (place : Nat) (bs : List UInt8) : Option (Classifier α × List UInt8) := do
  match ← Family.all[place]? with
  | .randomForest => (read bs).map fun (f, bs) => (.forest f, bs)
  | .perceptron => (read bs).map fun (p, bs) => (.perceptron p, bs)
  | .naiveBayes => (read bs).map fun (b, bs) => (.naiveBayes b, bs)
  | .vectorMachine => (read bs).map fun (m, bs) => (.vectorMachine m, bs)

/-- The model behind the number of its family. -/
instance : Layout (Classifier α) where
  write k :=
    write k.family ++ match k with
      | .forest f => write f
      | .perceptron p => write p
      | .naiveBayes b => write b
      | .vectorMachine m => write m
  read bs := do
    let (place, bs) ← readTag bs
    readModel place bs

end PackageTriage.Layout
