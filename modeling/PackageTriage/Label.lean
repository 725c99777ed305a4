import PackageTriage.Choice
import PackageTriage.Scalar

/-!
# Labels

A package is malicious or benign. Models know the labels by class codes: one for malicious, which is
the positive class, and zero for benign.
-/

namespace PackageTriage

inductive Label where
  | malicious
  | benign
  deriving DecidableEq, Repr, Inhabited

namespace Label

def name : Label → String
  | .malicious => "malicious"
  | .benign => "benign"

variable {α : Type} [Scalar α]

/-- A class code stands for the positive class when it is above one half. -/
def isPositive (c : α) : Bool := Scalar.less Scalar.half c

def toClass : Label → α
  | .malicious => 1
  | .benign => 0

def ofClass (c : α) : Label := if isPositive c then .malicious else .benign

end Label

instance : Choice Label where
  all := [.malicious, .benign]
  name
    | .malicious => "Malicious"
    | .benign => "Benign"
  aliases _ := []
  spellings _ := []
  shown
    | .malicious => "Malicious"
    | .benign => "Benign"

end PackageTriage
