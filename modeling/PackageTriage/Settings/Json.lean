import PackageTriage.Grids.Json
import PackageTriage.Json.Reading
import PackageTriage.Json.Writing
import PackageTriage.Settings.Basic

/-!
# Settings files

Settings are a JSON text. Every section and every entry of a section may be left out and has a default
then, so an empty object stands for all defaults.
-/

namespace PackageTriage

def Directories.ofJson? (j : Json) : Option Directories := do
  let d : Directories := default
  match ← Json.fields? [["models"], ["results"], ["reports"], ["features"]] j with
  | [models, results, reports, features] =>
    return ⟨← Json.orDefault? Json.string? d.models models,
      ← Json.orDefault? Json.string? d.results results,
      ← Json.orDefault? Json.string? d.reports reports,
      ← Json.orDefault? Json.string? d.features features⟩
  | _ => none

def Directories.toJson (d : Directories) : Json :=
  .record [("models", .ofString d.models), ("results", .ofString d.results),
    ("reports", .ofString d.reports), ("features", .ofString d.features)]

namespace Settings

abbrev Classifiers := List Family × List Method × Grids Float

def defaultClassifiers : Classifiers := (Choice.all, Choice.all, default)

def classifiers? [Json.NumberReader] (j : Json) : Option Classifiers := do
  match ← Json.fields? [["models"], ["preprocess_methods"], ["hyperparameters"]] j with
  | [families, methods, grids] =>
    return (← Json.orDefault? (Json.listOf? Choice.ofJson?) Choice.all families,
      ← Json.orDefault? (Json.listOf? Choice.ofJson?) Choice.all methods,
      ← Json.orDefault? Grids.ofJson? default grids)
  | _ => none

def ofJson? [Json.NumberReader] (j : Json) : Option (Settings Float) := do
  match ← Json.fields? [["path"], ["classifier"]] j with
  | [path, classifier] =>
    let directories ← Json.orDefault? Directories.ofJson? default path
    let (families, methods, grids) ← Json.orDefault? classifiers? defaultClassifiers classifier
    return ⟨directories, families, methods, grids⟩
  | _ => none

def toJson (s : Settings Float) : Json :=
  .record [("path", s.directories.toJson),
    ("classifier", .record [("models", .ofList Choice.toJson s.families),
      ("preprocess_methods", .ofList Choice.toJson s.methods),
      ("hyperparameters", s.grids.toJson)])]

def parse [Json.NumberReader] (text : String) : Except Error (Settings Float) :=
  match (Json.read? text).bind ofJson? with
  | some s => .ok s
  | none => .error .settings

def render (s : Settings Float) : String := s.toJson.pretty

end Settings

end PackageTriage
