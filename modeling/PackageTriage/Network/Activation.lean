import PackageTriage.Choice
import PackageTriage.Scalar

/-!
# Activations

The functions that hidden units apply to their inputs. The slope is given in terms of the unit's
output, which is at hand when errors are carried back.
-/

namespace PackageTriage

inductive Activation where
  | identity
  | logistic
  | tanh
  | relu
  deriving DecidableEq, Repr, Inhabited

namespace Activation

def name : Activation → String
  | .identity => "identity"
  | .logistic => "logistic"
  | .tanh => "tanh"
  | .relu => "relu"

variable {α : Type} [Scalar α]

def apply : Activation → α → α
  | .identity, v => v
  | .logistic, v => 1 / (1 + Scalar.exp (-v))
  | .tanh, v => Scalar.tanh v
  | .relu, v => Scalar.max v 0

/-- The derivative at the input that gave the output `a`. -/
def slope : Activation → α → α
  | .identity, _ => 1
  | .logistic, a => a * (1 - a)
  | .tanh, a => 1 - a * a
  | .relu, a => if Scalar.less 0 a then 1 else 0

end Activation

instance : Choice Activation where
  all := [.identity, .logistic, .tanh, .relu]
  name := Activation.name
  aliases _ := []
  spellings
    | .identity => ["identity"]
    | .logistic => ["logistic", "sigmoid"]
    | .tanh => ["tanh"]
    | .relu => ["relu"]
  shown
    | .identity => "Identity"
    | .logistic => "Logistic"
    | .tanh => "Tanh"
    | .relu => "Relu"

end PackageTriage
