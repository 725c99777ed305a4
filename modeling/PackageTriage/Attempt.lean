import PackageTriage.Error

/-!
# Attempts

Fitting changes a model, and a fit that fails may have changed it too. An attempt tells both: the
model as it stands afterwards, and what went wrong.
-/

namespace PackageTriage

structure Attempt (μ : Type) where
  model : μ
  failure : Option Error

namespace Attempt

variable {μ : Type}

def fitted (model : μ) : Attempt μ := ⟨model, none⟩

def failed (model : μ) (e : Error) : Attempt μ := ⟨model, some e⟩

/-- A fit that changes the model only when it succeeds. -/
def ofExcept (before : μ) : Except Error μ → Attempt μ
  | .ok after => fitted after
  | .error e => failed before e

def result (a : Attempt μ) : Except Error μ :=
  match a.failure with
  | none => .ok a.model
  | some e => .error e

@[simp] theorem result_fitted (model : μ) : (fitted model).result = .ok model := rfl

@[simp] theorem result_failed (model : μ) (e : Error) : (failed model e).result = .error e := rfl

end Attempt

end PackageTriage
