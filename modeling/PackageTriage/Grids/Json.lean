import PackageTriage.Grids.Basic

/-!
# Grids in settings files

A grid that is left out, and a list that is left out of a grid, has its default.
-/

namespace PackageTriage

/-- One number is the size of one layer, a list gives the sizes of several. -/
def HiddenLayers.ofJson? (j : Json) : Option HiddenLayers :=
  match j.natural? with
  | some n => some (single n)
  | none => (Json.listOf? Json.natural? j).map stacked

def HiddenLayers.toJson : HiddenLayers → Json
  | single n => .ofNat n
  | stacked ns => .list (ns.map Json.ofNat)

def Json.ofList {β : Type} (write : β → Json) (bs : List β) : Json := .list (bs.map write)

def ForestGrid.ofJson? (j : Json) : Option ForestGrid := do
  match ← Json.fields? [["number_of_decision_trees"], ["maximum_depths", "maxium_depths"]] j with
  | [trees, maxDepths] =>
    return ⟨← Json.orDefault? (Json.listOf? Json.natural?) ForestGrid.default.trees trees,
      ← Json.orDefault? (Json.listOf? (Json.optional? Json.natural?)) ForestGrid.default.maxDepths
        maxDepths⟩
  | _ => none

def ForestGrid.toJson (g : ForestGrid) : Json :=
  .record [("number_of_decision_trees", .ofList .ofNat g.trees),
    ("maximum_depths", .ofList (.ofOption .ofNat) g.maxDepths)]

def PerceptronGrid.ofJson? [Json.NumberReader] (j : Json) : Option (PerceptronGrid Float) := do
  let default : PerceptronGrid Float := PerceptronGrid.default
  match ← Json.fields? [["number_of_hidden_units"], ["activation_functions"],
      ["optimization_algorithms"], ["learning_rates"], ["number_of_iterations"]] j with
  | [hidden, activations, solvers, rates, iterations] =>
    return ⟨← Json.orDefault? (Json.listOf? HiddenLayers.ofJson?) default.hidden hidden,
      ← Json.orDefault? (Json.listOf? Choice.ofJson?) default.activations activations,
      ← Json.orDefault? (Json.listOf? Choice.ofJson?) default.solvers solvers,
      ← Json.orDefault? (Json.listOf? Json.float?) default.rates rates,
      ← Json.orDefault? (Json.listOf? Json.natural?) default.iterations iterations⟩
  | _ => none

def PerceptronGrid.toJson (g : PerceptronGrid Float) : Json :=
  .record [("number_of_hidden_units", .ofList HiddenLayers.toJson g.hidden),
    ("activation_functions", .ofList Choice.toJson g.activations),
    ("optimization_algorithms", .ofList Choice.toJson g.solvers),
    ("learning_rates", .ofList .ofFloat g.rates),
    ("number_of_iterations", .ofList .ofNat g.iterations)]

def NaiveBayesGrid.ofJson? [Json.NumberReader] (j : Json) : Option (NaiveBayesGrid Float) := do
  match ← Json.fields? [["smoothings"]] j with
  | [smoothings] =>
    return ⟨← Json.orDefault? (Json.listOf? Json.float?) NaiveBayesGrid.default.smoothings smoothings⟩
  | _ => none

def NaiveBayesGrid.toJson (g : NaiveBayesGrid Float) : Json :=
  .record [("smoothings", .ofList .ofFloat g.smoothings)]

def MachineGrid.ofJson? [Json.NumberReader] (j : Json) : Option (MachineGrid Float) := do
  match ← Json.fields? [["gammas"], ["C"]] j with
  | [gammas, c] =>
    return ⟨← Json.orDefault? (Json.listOf? Gamma.ofJson?) MachineGrid.default.gammas gammas,
      ← Json.orDefault? (Json.listOf? Json.float?) MachineGrid.default.c c⟩
  | _ => none

def MachineGrid.toJson (g : MachineGrid Float) : Json :=
  .record [("gammas", .ofList Gamma.toJson g.gammas), ("C", .ofList .ofFloat g.c)]

def Grids.ofJson? [Json.NumberReader] (j : Json) : Option (Grids Float) := do
  match ← Json.fields? (Family.all.map fun f => [f.code]) j with
  | [forest, perceptron, naiveBayes, machine] =>
    return ⟨← Json.orDefault? ForestGrid.ofJson? default forest,
      ← Json.orDefault? PerceptronGrid.ofJson? default perceptron,
      ← Json.orDefault? NaiveBayesGrid.ofJson? default naiveBayes,
      ← Json.orDefault? MachineGrid.ofJson? default machine⟩
  | _ => none

def Grids.toJson (g : Grids Float) : Json :=
  .record [(Family.randomForest.code, g.forest.toJson), (Family.perceptron.code, g.perceptron.toJson),
    (Family.naiveBayes.code, g.naiveBayes.toJson), (Family.vectorMachine.code, g.machine.toJson)]

end PackageTriage
