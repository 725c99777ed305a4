import PackageTriage.Network.Parameters
import PackageTriage.Network.Stochastic

/-!
# Quasi-Newton training

All samples at once. The direction of a step is the gradient turned by an estimate of the curvature
from the last few steps; along it the step is halved until the loss falls enough. The search is over
packed parameters and knows the network only by its loss and gradient.
-/

namespace PackageTriage.QuasiNewton

variable {α : Type} [Scalar α]

/-- A past step: how the parameters changed, how the gradient changed, and the inverse of the
product of the two. -/
structure Pair (α : Type) where
  s : List α
  y : List α
  rho : α

def addScaled (a : List α) (c : α) (b : List α) : List α := List.zipWith (fun u v => u + c * v) a b

def subScaled (a : List α) (c : α) (b : List α) : List α := List.zipWith (fun u v => u - c * v) a b

/-- The way back through the steps, latest first: each takes its share out of `q`. Gives what is left
and the shares, latest first. -/
def backward : (latestFirst : List (Pair α)) → (q : List α) → List α × List α
  | [], q => (q, [])
  | p :: ps, q =>
    let share := p.rho * Scalar.dot p.s q
    let (q, shares) := backward ps (subScaled q share p.y)
    (q, share :: shares)

/-- The way forth, earliest first, with the shares in the same order. -/
def forward : (earliestFirst : List (Pair α × α)) → (q : List α) → List α
  | [], q => q
  | (p, share) :: ps, q => forward ps (addScaled q (share - p.rho * Scalar.dot p.y q) p.s)

/-- The curvature that the latest step found. -/
def scaling (history : List (Pair α)) : α :=
  match history.getLast? with
  | some p => Scalar.dot p.s p.y / Scalar.dot p.y p.y
  | none => 1

/-- The direction of the next step. The history is given earliest step first. -/
def direction (gradient : List α) (history : List (Pair α)) : List α :=
  let (q, shares) := backward history.reverse gradient
  let q := q.map (· * scaling history)
  (forward (history.zip shares.reverse) q).map (- ·)

structure State (α : Type) where
  params : List α
  loss : α
  gradient : List α
  history : List (Pair α)

def memory : Nat := 10

/-- A history with one more step, the earliest forgotten if there are too many. -/
def remember (history : List (Pair α)) (p : Pair α) : List (Pair α) :=
  (if history.length = memory then history.drop 1 else history) ++ [p]

/-- The greatest slope is so small that the search is over. -/
def isFlat (gradient : List α) : Bool :=
  Scalar.less (gradient.foldl (fun m g => Scalar.max m (Scalar.abs g)) 0) (Scalar.decimal 1 5)

/-- A point along the direction where the loss fell enough, halving the step up to `trials` times. -/
def lineSearch (objective : List α → α × List α) (s : State α) (dir : List α) (slope : α) :
    (trials : Nat) → (step : α) → Option (List α × α × List α)
  | 0, _ => none
  | trials + 1, step =>
    let candidate := addScaled s.params step dir
    let (loss, gradient) := objective candidate
    if Scalar.isFinite loss &&
        Scalar.atMost loss (s.loss + Scalar.decimal 1 4 * step * slope) then
      some (candidate, loss, gradient)
    else lineSearch objective s dir slope trials (step * Scalar.half)

/-- The direction of a step with its slope, and the history it was found from. A direction that does
not lead down is given up together with the history, for the steepest one. -/
def descent (s : State α) : List α × α × List (Pair α) :=
  let dir := direction s.gradient s.history
  let slope := Scalar.dot dir s.gradient
  if Scalar.atMost 0 slope then
    let dir := s.gradient.map (- ·)
    (dir, Scalar.dot dir s.gradient, [])
  else (dir, slope, s.history)

def firstLength (isFirst : Bool) (gradient : List α) : α :=
  if isFirst then Scalar.min (1 / Scalar.sum (gradient.map Scalar.abs)) 1 else 1

/-- The step from one point to an accepted one joins the history if the gradient changed along it. -/
def accept (s : State α) (history : List (Pair α)) (params : List α) (loss : α) (gradient : List α) :
    State α :=
  let ds := List.zipWith (· - ·) params s.params
  let dy := List.zipWith (· - ·) gradient s.gradient
  let sy := Scalar.dot ds dy
  ⟨params, loss, gradient,
    if Scalar.less (Scalar.decimal 1 10) sy then remember history ⟨ds, dy, 1 / sy⟩ else history⟩

def isConverged (tolerance old new : α) : Bool :=
  Scalar.atMost (Scalar.abs (old - new))
    (tolerance * Scalar.max (Scalar.max (Scalar.abs old) (Scalar.abs new)) 1)

/-- Take up to `limit` steps; `done` were taken before. -/
def search (objective : List α → α × List α) (tolerance : α) :
    (limit done : Nat) → State α → State α × Nat
  | 0, done, s => (s, done)
  | limit + 1, done, s =>
    if isFlat s.gradient then (s, done)
    else
      let (dir, slope, history) := descent s
      match lineSearch objective s dir slope 30 (firstLength (done = 0) s.gradient) with
      | none => (s, done)
      | some (params, loss, gradient) =>
        let next := accept s history params loss gradient
        if isConverged tolerance s.loss loss then (next, done + 1)
        else search objective tolerance limit (done + 1) next

/-- The loss of layers with the given parameters, and its packed gradient. -/
def objective (t : Training α) (x targets : Matrix α) (layers : List (Layer α)) (params : List α) :
    α × List α :=
  let (loss, gradient) := Network.lossAndGradient t.activation t.alpha (Network.unpack layers params)
    x targets
  (loss, Network.pack gradient)

def train (t : Training α) (x targets : Matrix α) (layers : List (Layer α)) :
    List (Layer α) × Nat × α :=
  let start := Network.pack layers
  let (loss, gradient) := objective t x targets layers start
  let (s, steps) := search (objective t x targets layers) t.tolerance t.limit 0
    ⟨start, loss, gradient, []⟩
  (Network.unpack layers s.params, steps, s.loss)

end PackageTriage.QuasiNewton
