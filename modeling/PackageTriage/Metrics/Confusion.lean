import PackageTriage.Error
import PackageTriage.Label

/-!
# Confusion counts

How often predictions and true labels meet in each of the four ways.
-/

namespace PackageTriage

structure Confusion where
  truePositive : Nat
  falsePositive : Nat
  trueNegative : Nat
  falseNegative : Nat
  deriving DecidableEq, Repr

namespace Confusion

def zero : Confusion := ⟨0, 0, 0, 0⟩

instance : Inhabited Confusion := ⟨zero⟩

def add (a b : Confusion) : Confusion :=
  ⟨a.truePositive + b.truePositive, a.falsePositive + b.falsePositive,
    a.trueNegative + b.trueNegative, a.falseNegative + b.falseNegative⟩

instance : Add Confusion := ⟨add⟩

def total (c : Confusion) : Nat :=
  c.truePositive + c.falsePositive + c.trueNegative + c.falseNegative

def ofOutcome : (actual predicted : Bool) → Confusion
  | true, true => ⟨1, 0, 0, 0⟩
  | false, true => ⟨0, 1, 0, 0⟩
  | false, false => ⟨0, 0, 1, 0⟩
  | true, false => ⟨0, 0, 0, 1⟩

variable {α : Type} [Scalar α]

def count (actual predicted : List α) : Confusion :=
  (List.zipWith (fun a p => ofOutcome (Label.isPositive a) (Label.isPositive p)) actual
    predicted).foldl add zero

/-- Every true class code needs its prediction. -/
def ofPredictions (actual predicted : List α) : Except Error Confusion :=
  if actual.length = predicted.length then .ok (count actual predicted)
  else .error (.shape (.predictions actual.length predicted.length))

end Confusion

end PackageTriage
