import PackageTriage.Action
import PackageTriage.Hyperparameters
import PackageTriage.Scaling.Method

/-!
# Training requests
-/

namespace PackageTriage

structure TrainRequest where
  malicious : List String
  benign : List String
  method : Method
  family : Family
  action : Action
  /-- Looked at only when a model is to be saved. -/
  selection : Selection Float

namespace TrainRequest

/-- Only the hyperparameters may be left out. -/
def ofJson? (j : Json) : Option TrainRequest := do
  match ← Json.fields? [["malicious_dirs"], ["benign_dirs"], ["preprocess"], ["family"], ["action"],
      ["hyperparameters"]] j with
  | [malicious, benign, method, family, action, selection] =>
    return ⟨← (← malicious) |> Json.listOf? Json.string?, ← (← benign) |> Json.listOf? Json.string?,
      ← (← method) |> Choice.ofJson?, ← (← family) |> Choice.ofJson?,
      ← (← action) |> Choice.ofJson?, ← Json.orDefault? Selection.ofJson? default selection⟩
  | _ => none

end TrainRequest

end PackageTriage
