import PackageTriage.Network.Layer
import PackageTriage.Network.Solver
import PackageTriage.Random.Generator

/-!
# Training on small batches

An epoch visits all samples in a fresh random order, a batch at a time, and after every batch moves
the parameters against the gradient. Training stops early once several epochs in a row made no
progress on the best loss so far.
-/

namespace PackageTriage

variable {α : Type} [Scalar α]

structure Training (α : Type) where
  /-- The number of units in every hidden layer. -/
  hidden : List Nat
  activation : Activation
  solver : Solver
  /-- The size of the first steps; quasi-Newton steps have their own. -/
  rate : α
  /-- The greatest number of epochs or of quasi-Newton steps. -/
  limit : Nat
  /-- The size of a batch, at most two hundred if not given. -/
  batch : Option Nat
  /-- The weight of the squared weights in the loss. -/
  alpha : α
  seed : UInt64
  momentum : α
  /-- By how much a loss has to fall to count as progress. -/
  tolerance : α
  /-- How many epochs without progress end the training. -/
  patience : Nat
  beta1 : α
  beta2 : α
  epsilon : α

namespace Training

instance : Inhabited (Training α) where
  default := {
    hidden := [100], activation := .relu, solver := .adam, rate := Scalar.decimal 1 3, limit := 200,
    batch := none, alpha := Scalar.decimal 1 4, seed := 21, momentum := Scalar.decimal 9 1,
    tolerance := Scalar.decimal 1 4, patience := 10, beta1 := Scalar.decimal 9 1,
    beta2 := Scalar.decimal 999 3, epsilon := Scalar.decimal 1 8 }

end Training

namespace Layer

def zip (f : α → α → α) (a b : Layer α) : Layer α :=
  ⟨a.weights.zip f b.weights, List.zipWith f a.bias b.bias⟩

def map (f : α → α) (l : Layer α) : Layer α := ⟨l.weights.map f, l.bias.map f⟩

end Layer

/-- A layer with its two running means, of the gradient and of its squares. With momentum the first
one is the velocity. -/
structure Moving (α : Type) where
  layer : Layer α
  first : Layer α
  second : Layer α

namespace Moving

def start (l : Layer α) : Moving α := ⟨l, l.map fun _ => 0, l.map fun _ => 0⟩

/-- The velocity keeps a share of itself and is turned against the gradient. -/
def descend (t : Training α) (m : Moving α) (gradient : Layer α) : Moving α :=
  let velocity := m.first.zip (fun v g => v * t.momentum - g * t.rate) gradient
  { m with layer := m.layer.zip (· + ·) velocity, first := velocity }

/-- The size of step number `step` before it is adapted to the gradient. -/
def adaptedRate (t : Training α) (step : Nat) : α :=
  t.rate * Scalar.sqrt (1 - Scalar.pow t.beta2 step) / (1 - Scalar.pow t.beta1 step)

/-- Step against the mean gradient, in units of the root of its mean square. -/
def adapt (t : Training α) (step : Nat) (m : Moving α) (gradient : Layer α) : Moving α :=
  let rate := adaptedRate t step
  let first := m.first.zip (fun m g => m * t.beta1 + g * (1 - t.beta1)) gradient
  let second := m.second.zip (fun v g => v * t.beta2 + g * g * (1 - t.beta2)) gradient
  let change := first.zip (fun m v => m / (Scalar.sqrt v + t.epsilon) * rate) second
  ⟨m.layer.zip (· - ·) change, first, second⟩

def advance (t : Training α) (step : Nat) (m : Moving α) (gradient : Layer α) : Moving α :=
  match t.solver with
  | .sgd => m.descend t gradient
  | _ => m.adapt t step gradient

end Moving

/-- The best loss so far and how many epochs in a row made no progress on it. -/
structure Progress (α : Type) where
  best : α
  stale : Nat

namespace Progress

def start : Progress α := ⟨Scalar.infinity, 0⟩

/-- An epoch is stale when its loss lies above the best one less the tolerance. -/
def observe (tolerance : α) (p : Progress α) (loss : α) : Progress α :=
  ⟨Scalar.min p.best loss, if Scalar.less (p.best - tolerance) loss then p.stale + 1 else 0⟩

end Progress

/-- Run epochs until the patience is used up, at most `limit` of them. Gives the state after the last
epoch, the number of epochs and the loss of the last one. -/
def runEpochs {σ : Type} (epoch : σ → σ × α) (tolerance : α) (patience : Nat) :
    (limit done : Nat) → Progress α → σ → α → σ × Nat × α
  | 0, done, _, s, loss => (s, done, loss)
  | limit + 1, done, p, s, _ =>
    let (s, loss) := epoch s
    let p := p.observe tolerance loss
    if patience ≤ p.stale then (s, done + 1, loss)
    else runEpochs epoch tolerance patience limit (done + 1) p s loss

/-- Cut a list into batches; the last one may be smaller. `size` less one is given. -/
def batches {β : Type} (size : Nat) (xs : List β) : List (List β) :=
  if h : xs = [] then [] else xs.take (size + 1) :: batches size (xs.drop (size + 1))
termination_by xs.length
decreasing_by
  have := List.length_pos_iff.2 h
  simp only [List.length_drop]
  omega

/-- Between two epochs: the layers, the number of batches so far, the order of the samples and the
generator. -/
structure EpochState (α σ : Type) where
  layers : List (Moving α)
  /-- The number of batches so far. A count of 32 bits with a sign holds it below `2 ^ 31` batches. -/
  step : Nat
  order : List Nat
  generator : σ

namespace Stochastic

variable {σ : Type} [Generator σ]

def visit (t : Training α) (x targets : Matrix α) :
    EpochState α σ × α → List Nat → EpochState α σ × α
  | (s, total), places =>
    let (loss, gradient) := Network.lossAndGradient t.activation t.alpha (s.layers.map (·.layer))
      (x.select places) (targets.select places)
    let step := s.step + 1
    ({ s with step, layers := List.zipWith (Moving.advance t step) s.layers gradient },
      total + loss * (places.length : α))

def batchSize (t : Training α) (samples : Nat) : Nat := max 1 (min (t.batch.getD 200) samples)

def epoch (t : Training α) (x targets : Matrix α) (s : EpochState α σ) : EpochState α σ × α :=
  let (order, generator) := Generator.shuffle s.order s.generator
  let (s, total) := (batches (batchSize t x.height - 1) order).foldl (visit t x targets)
    ({ s with order, generator }, 0)
  (s, total / (x.height : α))

/-- Train layers from a generator; gives them with the number of epochs and the last loss. -/
def train (t : Training α) (x targets : Matrix α) (layers : List (Layer α)) (g : σ) :
    List (Layer α) × Nat × α :=
  let start : EpochState α σ := ⟨layers.map Moving.start, 0, List.range x.height, g⟩
  let (s, epochs, loss) := runEpochs (epoch t x targets) t.tolerance t.patience t.limit 0
    Progress.start start Scalar.infinity
  (s.layers.map (·.layer), epochs, loss)

end Stochastic

end PackageTriage
