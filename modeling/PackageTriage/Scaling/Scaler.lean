import PackageTriage.Matrix
import PackageTriage.Statistics

/-!
# Scalers

A fitted scaler moves every column by a centre and divides it by a scale. Values outside the range
that the scaler was fitted on are not clipped.
-/

namespace PackageTriage

inductive Scaler (α : Type) where
  | standard (mean scale : List α)
  | minMax (min scale : List α)

namespace Scaler

variable {α : Type} [Scalar α]

def method : Scaler α → Method
  | standard _ _ => .standardize
  | minMax _ _ => .minMax

def center : Scaler α → List α
  | standard mean _ => mean
  | minMax min _ => min

def scale : Scaler α → List α
  | standard _ scale => scale
  | minMax _ scale => scale

def width (s : Scaler α) : Nat := s.center.length

/-- Zero cannot be divided by and is no scale. -/
def usable (s : α) : α := if Scalar.same s 0 then 1 else s

/-- The means of the columns. A matrix of one column is summed as one sequence. -/
def columnMeans (x : Matrix α) : List α :=
  let n : α := (x.height : α)
  if x.width = 1 then x.columns.map fun col => Statistics.laneSum col / n
  else x.columnSums.map (· / n)

/-- Centre at the mean, scale to the standard deviation. -/
def fitStandard (x : Matrix α) : Scaler α :=
  .standard (columnMeans x)
    (x.columns.map fun col => usable (Scalar.sqrt (Statistics.variance col)))

/-- Centre at the least entry, scale to the range. -/
def fitMinMax (x : Matrix α) : Scaler α :=
  let low := x.columns.map Statistics.least
  let high := x.columns.map Statistics.greatest
  .minMax low (List.zipWith (fun lo hi => usable (hi - lo)) low high)

/-- Scale one row; columns beyond the fitted ones stay. -/
def scaleRow : (center scale : List α) → List α → List α
  | c :: cs, s :: ss, v :: vs => (v - c) / s :: scaleRow cs ss vs
  | _, _, vs => vs

theorem length_scaleRow (cs ss vs : List α) : (scaleRow cs ss vs).length = vs.length := by
  fun_induction scaleRow cs ss vs with
  | case1 c cs s ss v vs ih => simp [ih]
  | case2 => rfl

/-- Data of another width than the fitted one cannot be scaled. -/
def checkWidth (s : Scaler α) (width : Nat) : Except Error Unit :=
  if width = s.width then .ok () else .error (.shape (.features s.width width))

def transformRow (s : Scaler α) (row : List α) : Except Error (List α) := do
  s.checkWidth row.length
  return scaleRow s.center s.scale row

def transform (s : Scaler α) (x : Matrix α) : Except Error (Matrix α) := do
  s.checkWidth x.width
  return x.mapRows (scaleRow s.center s.scale) (length_scaleRow _ _)

end Scaler

/-- The scaler that a method fits; leaving the features as they are needs none. -/
def Method.fit? {α : Type} [Scalar α] (m : Method) (x : Matrix α) :
    Except Error (Option (Scaler α)) :=
  match m with
  | .raw => .ok none
  | .standardize => if x.rows.isEmpty then noRows else .ok (some (.fitStandard x))
  | .minMax => if x.rows.isEmpty then noRows else .ok (some (.fitMinMax x))
where
  noRows : Except Error (Option (Scaler α)) := .error (.data (.noRows "a scaler"))

def Method.preprocess {α : Type} [Scalar α] (m : Method) (x : Matrix α) :
    Except Error (Matrix α × Option (Scaler α)) := do
  match ← m.fit? x with
  | none => return (x, none)
  | some s => return (← s.transform x, some s)

end PackageTriage
