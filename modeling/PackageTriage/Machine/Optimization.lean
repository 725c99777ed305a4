import PackageTriage.Random.Generator
import PackageTriage.Scalar

/-!
# Sequential minimal optimisation

The dual problem of a support vector machine: for a kernel matrix `K`, classes `y` of one and minus
one, and a bound `c`, find multipliers between zero and `c` with `∑ αₖ yₖ = 0` that make
`∑ αₖ - ½ ∑ αₖ αₗ yₖ yₗ Kₖₗ` large. Each step looks at one sample; if its multiplier can be bettered,
a partner is chosen and the two multipliers are moved along the line on which the sum stays zero.

A step is a function of the two places, so what holds of it holds for every choice of partners.
-/

namespace PackageTriage.Smo

/-- What does not change while the multipliers are found. -/
structure Problem (α : Type) (n : Nat) where
  kernel : Vector (Vector α n) n
  y : Vector α n
  /-- The upper bound of the multipliers. -/
  c : α
  /-- By how much a sample may miss its condition. -/
  tolerance : α

structure State (α : Type) (n : Nat) where
  alpha : Vector α n
  bias : α

variable {α : Type} [Scalar α] {n : Nat}

namespace State

def initial : State α n := ⟨Vector.replicate n 0, 0⟩

end State

namespace Problem

variable (p : Problem α n)

def decision (s : State α n) (k : Fin n) : α :=
  Fin.foldl n (fun sum i => sum + s.alpha[i] * p.y[i] * p.kernel[i][k]) s.bias

/-- How far the decision function is from the class of a sample. -/
def error (s : State α n) (k : Fin n) : α := p.decision s k - p.y[k]

/-- The multiplier of a sample can be bettered: its condition is missed on a side where there is
room. -/
def violates (s : State α n) (i : Fin n) : Bool :=
  let r := p.y[i] * p.error s i
  (Scalar.less r (-p.tolerance) && Scalar.less s.alpha[i] p.c) ||
    (Scalar.less p.tolerance r && Scalar.less 0 s.alpha[i])

/-- The ends of the segment on which the multiplier of `j` can move together with that of `i`. -/
def segment (s : State α n) (i j : Fin n) : α × α :=
  let ai := s.alpha[i]
  let aj := s.alpha[j]
  if Scalar.same p.y[i] p.y[j] then
    (Scalar.max (ai + aj - p.c) 0, Scalar.min (ai + aj) p.c)
  else (Scalar.max (aj - ai) 0, Scalar.min (p.c + aj - ai) p.c)

/-- The curvature along the segment; the objective has a maximum on it only if this is negative. -/
def curvature (i j : Fin n) : α :=
  Scalar.two * p.kernel[i][j] - p.kernel[i][i] - p.kernel[j][j]

/-- The bias that goes with moved multipliers: the one that mends the error of a sample whose
multiplier is inside its bounds, else halfway between those that mend either. `ei` and `ej` are the
errors of the two samples. -/
def movedBias (s : State α n) (i j : Fin n) (ei ej newI newJ : α) : α :=
  let di := newI - s.alpha[i]
  let dj := newJ - s.alpha[j]
  let b1 := s.bias - ei - p.y[i] * di * p.kernel[i][i] - p.y[j] * dj * p.kernel[i][j]
  let b2 := s.bias - ej - p.y[i] * di * p.kernel[i][j] - p.y[j] * dj * p.kernel[j][j]
  if Scalar.less 0 newI && Scalar.less newI p.c then b1
  else if Scalar.less 0 newJ && Scalar.less newJ p.c then b2
  else (b1 + b2) / Scalar.two

/-- The multiplier of `j` at the maximum on the segment between `low` and `high`. -/
def movedPartner (s : State α n) (i j : Fin n) (ei ej low high : α) : α :=
  Scalar.clamp (s.alpha[j] - p.y[j] * (ei - ej) / p.curvature i j) low high

/-- The multiplier of `i` that keeps the sum of the signed multipliers when that of `j` moves. -/
def movedOther (s : State α n) (i j : Fin n) (newJ : α) : α :=
  s.alpha[i] + p.y[i] * p.y[j] * (s.alpha[j] - newJ)

/-- Move the multipliers of `i` and `j`, and tell whether the move counts. It does not if there is no
segment, no maximum on it, or the partner hardly moves; in the last case the partner keeps its new
multiplier all the same. -/
def step (s : State α n) (i j : Fin n) : State α n × Bool :=
  let (low, high) := p.segment s i j
  if Scalar.less (Scalar.abs (low - high)) (Scalar.decimal 1 10) then (s, false)
  else if Scalar.atMost 0 (p.curvature i j) then (s, false)
  else
    let ei := p.error s i
    let ej := p.error s j
    let newJ := p.movedPartner s i j ei ej low high
    let moved := s.alpha.set j newJ
    if Scalar.less (Scalar.abs (newJ - s.alpha[j])) (Scalar.decimal 1 5) then
      ({ s with alpha := moved }, false)
    else
      let newI := p.movedOther s i j newJ
      (⟨moved.set i newI, p.movedBias s i j ei ej newI newJ⟩, true)

variable {σ : Type}

/-- Visit one sample: take a step with a chosen partner if its condition is missed. -/
def visit (choose : Fin n → σ → Fin n × σ) (s : State α n) (i : Fin n) (g : σ) :
    State α n × Bool × σ :=
  if p.violates s i then
    let (j, g) := choose i g
    let (s, counts) := p.step s i j
    (s, counts, g)
  else (s, false, g)

def sweep (choose : Fin n → σ → Fin n × σ) : List (Fin n) → State α n → Nat → σ → State α n × Nat × σ
  | [], s, moves, g => (s, moves, g)
  | i :: is, s, moves, g =>
    let (s, counts, g) := p.visit choose s i g
    sweep choose is s (if counts then moves + 1 else moves) g

/-- Sweep until `quiet` sweeps in a row made no move, and at most `sweeps` times. -/
def run (choose : Fin n → σ → Fin n × σ) : (sweeps quiet : Nat) → State α n → σ → State α n
  | 0, _, s, _ => s
  | _, 0, s, _ => s
  | sweeps + 1, quiet + 1, s, g =>
    let (s, moves, g) := p.sweep choose (List.finRange n) s 0 g
    run choose sweeps (if moves = 0 then quiet else quietSweeps) s g
where
  /-- How many sweeps without a move end the search. -/
  quietSweeps : Nat := 5

end Problem

/-- Draw a place other than `i`; a place next to it is the way out after too many trials. -/
def drawOther {σ : Type} [Generator σ] (i : Fin n) : (trials : Nat) → σ → Fin n × σ
  | 0, g => (⟨(i + 1) % n, Nat.mod_lt _ (Nat.zero_lt_of_lt i.2)⟩, g)
  | trials + 1, g =>
    let (j, g) := Generator.below n g
    if h : j < n then
      if j = i then drawOther i trials g else (⟨j, h⟩, g)
    else drawOther i trials g

end PackageTriage.Smo
