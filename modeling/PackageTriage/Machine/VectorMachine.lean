import PackageTriage.Attempt
import PackageTriage.Classes
import PackageTriage.Machine.Gamma
import PackageTriage.Machine.Optimization
import PackageTriage.Random.Xoshiro

/-!
# Support vector machines

Two classes, parted by a sum of radial kernels around the support vectors: the training samples whose
multipliers are not zero.
-/

namespace PackageTriage

structure MachineSettings (α : Type) where
  c : α
  gamma : Gamma α
  tolerance : α
  /-- The greatest number of sweeps over the samples. -/
  sweeps : Nat
  seed : UInt64

structure VectorMachine (α : Type) where
  settings : MachineSettings α
  /-- The kernel coefficient. -/
  gamma : α
  support : Matrix α
  /-- For every support vector its multiplier, signed by its class. -/
  coefficients : List α
  bias : α
  /-- The two classes; the decision function is positive for the second. -/
  classes : List α

variable {α : Type} [Scalar α]

namespace MachineSettings

instance : Inhabited (MachineSettings α) := ⟨1, .named "scale", Scalar.decimal 1 3, 1000, 42⟩

end MachineSettings

namespace VectorMachine

def unfitted (settings : MachineSettings α) : VectorMachine α := ⟨settings, 0, .empty 0, [], 0, []⟩

instance : Inhabited (VectorMachine α) := ⟨unfitted default⟩

/-- The greatest number of training samples: the kernel matrix is held as a whole. -/
def sampleLimit : Nat := 10000

/-- The kernel of two samples falls off with their squared distance. -/
def kernel (gamma : α) (a b : List α) : α :=
  Scalar.exp (-gamma * Scalar.sum (List.zipWith (fun x y => Scalar.sq (x - y)) a b))

/-- The kernels of all pairs of rows; each is computed once, from the earlier row to the later. -/
def kernelMatrix {n : Nat} (gamma : α) (rows : Vector (List α) n) : Vector (Vector α n) n :=
  Vector.ofFn fun i => Vector.ofFn fun j =>
    if i.val ≤ j.val then kernel gamma (rows.get i) (rows.get j)
    else kernel gamma (rows.get j) (rows.get i)

/-- The multipliers and the bias for a training matrix with classes of one and minus one. -/
def optimize (settings : MachineSettings α) (gamma : α) (rows : List (List α)) (y : List α) :
    Except Error (List α × α) :=
  let n := rows.length
  if sampleLimit < n then .error (.data (.kernelSize n sampleLimit))
  else
    let problem : Smo.Problem α n :=
      { kernel := kernelMatrix gamma (Vector.ofFn fun i => rows[i])
        y := Vector.ofFn fun i => y.getD i 0
        c := settings.c
        tolerance := settings.tolerance }
    let final := problem.run (fun i => Smo.drawOther i Generator.trials) settings.sweeps
      Smo.Problem.run.quietSweeps .initial (Xoshiro.ofSeed settings.seed)
    .ok (final.alpha.toList, final.bias)

def supportIndices (alphas : List α) : List Nat :=
  (List.range alphas.length).filter fun i => Scalar.less (Scalar.decimal 1 8) (alphas.getD i 0)

/-- What is wrong with the labels of a training matrix, the settings, or the classes, in this order. -/
def check (settings : MachineSettings α) (x : Matrix α) (y : List α) : Except Error (List α) :=
  if x.height ≠ y.length then .error (.shape (.labels x.height y.length))
  else if !Scalar.less 0 settings.c then
    .error (.parameter "C" (Scalar.text settings.c) "must be positive")
  else
    let classes := Classes.distinct y
    if classes.length ≠ 2 then .error (.data (.classes classes.length)) else .ok classes

/-- Fit the machine to the rows of a matrix and their labels. Coefficient and classes are set before
the multipliers are looked for, and stay so if there are too many samples for that. -/
def fit (m : VectorMachine α) (x : Matrix α) (y : List α) : Attempt (VectorMachine α) :=
  match check m.settings x y with
  | .error e => .failed m e
  | .ok classes =>
    match m.settings.gamma.resolve x with
    | .error e => .failed m e
    | .ok gamma =>
      let m := { m with gamma, classes }
      let signs := y.map fun v => if Scalar.same v (classes.getD 1 0) then 1 else -1
      match optimize m.settings gamma x.rows signs with
      | .error e => .failed m e
      | .ok (alphas, bias) =>
        let places := supportIndices alphas
        .fitted { m with
          support := x.select places
          coefficients := places.map fun i => alphas.getD i 0 * signs.getD i 0
          bias }

def decide (m : VectorMachine α) (sample : List α) : α :=
  (m.support.rows.zip m.coefficients).foldl
    (fun sum (v, coefficient) => sum + coefficient * kernel m.gamma sample v) m.bias

/-- The decision function at every row. Only support vectors know how wide the rows have to be. -/
def decisions (m : VectorMachine α) (x : Matrix α) : Except Error (List α) :=
  if m.classes.isEmpty then .error .notFitted
  else if x.width ≠ m.support.width && !m.support.rows.isEmpty then
    .error (.shape (.features m.support.width x.width))
  else .ok (x.rows.map m.decide)

def predict (m : VectorMachine α) (x : Matrix α) : Except Error (List α) := do
  return (← m.decisions x).map fun s => m.classes.getD (if Scalar.less 0 s then 1 else 0) 0

end VectorMachine

end PackageTriage
