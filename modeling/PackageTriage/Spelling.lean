import PackageTriage.Action
import PackageTriage.Error
import PackageTriage.Network.Activation
import PackageTriage.Network.Solver

/-!
# Spelled choices

Choices as the command line spells them, and the complaint about a spelling that names none.
-/

namespace PackageTriage

/-- The choice that a text spells. The complaint shows `given`, a form of the text. -/
def Choice.spelled {α : Type} [Choice α] (parameter reason given : String) (s : String) :
    Except Error α :=
  match Choice.ofText? s with
  | some a => .ok a
  | none => .error (.parameter parameter given reason)

def Family.spelled (s : String) : Except Error Family :=
  Choice.spelled "model" "expected one of RF, MLP, NB, SVM" s s

def Action.spelled (s : String) : Except Error Action :=
  Choice.spelled "action" "expected validate or save" s s

def Method.spelled (s : String) : Except Error Method :=
  Choice.spelled "preprocess" "expected one of none, standardize, min-max" s.toLower s

def Activation.spelled (s : String) : Except Error Activation :=
  Choice.spelled "activation" "expected one of identity, logistic, tanh, relu" s.toLower s

def Solver.spelled (s : String) : Except Error Solver :=
  Choice.spelled "optimizer" "expected one of sgd, adam, lbfgs" s.toLower s

end PackageTriage
