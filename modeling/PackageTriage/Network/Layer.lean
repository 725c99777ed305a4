import PackageTriage.Classes
import PackageTriage.Matrix
import PackageTriage.Network.Activation
import PackageTriage.Statistics

/-!
# Layers

A network is a list of layers. All but the last apply an activation to their units; the last one turns
its units into class probabilities. A gradient of the loss has the shape of the layers it is taken in.
-/

namespace PackageTriage

/-- One row of weights for every input, one column and one bias for every unit. -/
structure Layer (α : Type) where
  weights : Matrix α
  bias : List α

variable {α : Type} [Scalar α]

/-- Add one row to another; what the second lacks counts as nothing. -/
def addTo : List α → List α → List α
  | b :: bs, v :: vs => (v + b) :: addTo bs vs
  | _, vs => vs

theorem length_addTo (bs vs : List α) : (addTo bs vs).length = vs.length := by
  fun_induction addTo bs vs with
  | case1 b bs v vs ih => simp [ih]
  | case2 => rfl

/-- Probabilities in the proportions of the exponentials of some scores. -/
def softmax (scores : List α) : List α :=
  let top := Statistics.greatest scores
  let weights := scores.map fun v => Scalar.exp (v - top)
  let total := Statistics.laneSum weights
  weights.map (· / total)

theorem length_softmax (scores : List α) : (softmax scores).length = scores.length := by
  simp [softmax]

namespace Layer

/-- What the units of a layer receive for every row of inputs. -/
def inputs (l : Layer α) (x : Matrix α) : Matrix α :=
  (x.mul l.weights).mapRows (addTo l.bias) (length_addTo l.bias)

def hidden (act : Activation) (l : Layer α) (x : Matrix α) : Matrix α := (l.inputs x).map act.apply

def output (l : Layer α) (x : Matrix α) : Matrix α := (l.inputs x).mapRows softmax length_softmax

def squares (l : Layer α) : α := Statistics.laneSum (l.weights.entries.map fun w => w * w)

end Layer

namespace Network

def probabilities (act : Activation) : List (Layer α) → Matrix α → Matrix α
  | [], x => x
  | [last], x => last.output x
  | l :: ls, x => probabilities act ls (l.hidden act x)

/-- What a pass through the layers and back finds: the probabilities, how the loss depends on the
inputs, and the gradient in every layer. -/
structure Pass (α : Type) where
  output : Matrix α
  inputSlope : Matrix α
  gradient : List (Layer α)

/-- The gradient of one layer. `delta` is how the loss depends on what the units receive, `decay` the
factor by which a weight itself adds to its slope. -/
def layerGradient (decay : α) (l : Layer α) (x delta : Matrix α) : Layer α where
  weights := (x.transposeMul delta).zip (· + ·) (l.weights.map (· * decay))
  bias := delta.columnSums

/-- Go through the layers and back. The targets are rows with a one at the true class; at the last
layer the loss depends on what the units receive by the difference of output and target. -/
def pass (act : Activation) (decay : α) (targets : Matrix α) : List (Layer α) → Matrix α → Pass α
  | [], x => ⟨x, x, []⟩
  | [last], x =>
    let out := last.output x
    let delta := (out.zip (· - ·) targets).map (· / (x.height : α))
    ⟨out, delta.mulTranspose last.weights, [layerGradient decay last x delta]⟩
  | l :: ls, x =>
    let h := l.hidden act x
    let after := pass act decay targets ls h
    let delta := after.inputSlope.zip (· * ·) (h.map act.slope)
    ⟨after.output, delta.mulTranspose l.weights, layerGradient decay l x delta :: after.gradient⟩

/-- Probabilities below this count as this in the loss. -/
def leastProbability : α := Scalar.decimal 1 12

/-- The mean of the negative logarithms of the true classes' probabilities. -/
def crossEntropy (targets output : Matrix α) (n : α) : α :=
  -Statistics.laneSum
    (targets.zip (fun t p => t * p) (output.map fun p => Scalar.log (Scalar.max p leastProbability))).entries / n

/-- The loss for a batch and its gradient: cross-entropy, and half of `alpha` times the squared
weights, shared out over the batch. -/
def lossAndGradient (act : Activation) (alpha : α) (layers : List (Layer α)) (x targets : Matrix α) :
    α × List (Layer α) :=
  let n : α := (x.height : α)
  let p := pass act (alpha / n) targets layers x
  let squares := Scalar.sum (layers.map Layer.squares)
  (crossEntropy targets p.output n + Scalar.half * alpha * squares / n, p.gradient)

def targets (classes y : List α) : Matrix α where
  width := classes.length
  rows := y.map fun c =>
    let place := (Classes.index? classes c).getD 0
    (List.range classes.length).map fun j => if j = place then 1 else 0
  rows_width := by
    intro r hr
    obtain ⟨c, -, rfl⟩ := List.mem_map.1 hr
    simp

end Network

end PackageTriage
