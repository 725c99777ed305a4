import PackageTriage.CommandLine.Options
import PackageTriage.Spelling
import PackageTriage.Training.Request

/-!
# Invocations

What a command line asks for: a training run or predictions, with settings from a given file or from
the default one.
-/

namespace PackageTriage

inductive PredictTarget where
  | file (path : String)
  | directory (path : String)
  deriving DecidableEq, Repr

structure PredictRequest where
  family : Family
  target : PredictTarget
  /-- Where the report is written. -/
  report : Option String
  deriving DecidableEq, Repr

inductive Command where
  | train (r : TrainRequest)
  | predict (r : PredictRequest)

structure Invocation where
  settings : Option String
  command : Command

namespace Invocation

def accepted {γ : Type} (read : String → Except Error γ) (s : String) : Option γ := (read s).toOption

structure TrainFields where
  settings : Option String
  family : Option Family
  malicious : List String
  benign : List String
  method : Method
  action : Action
  selection : Selection Float

def TrainFields.empty : TrainFields := ⟨none, none, [], [], .raw, .validate, default⟩

def directories (name : String) (letter : Char) (put : String → TrainFields → TrainFields) :
    OptionSpec TrainFields :=
  { OptionSpec.path name (some letter) put with repeatable := true, greedy := true }

def hyperparameter {γ : Type} (name : String) (read : String → Option γ)
    (put : γ → Selection Float → Selection Float) : OptionSpec TrainFields :=
  .reading name none read fun c f => { f with selection := put c f.selection }

def hyperparameters : List (OptionSpec TrainFields) :=
  [hyperparameter "trees" Decimal.readNatural? fun n s => { s with trees := some n },
    hyperparameter "max-depth" Decimal.readNatural? fun n s => { s with maxDepth := some n },
    hyperparameter "learning-rate" Decimal.readFloat? fun x s => { s with rate := some x },
    { hyperparameter "hidden-layers" Decimal.readNatural? fun n s =>
        { s with hidden := some (s.hidden.getD [] ++ [n]) } with
      repeatable := true, parted := true },
    hyperparameter "max-iterations" Decimal.readNatural? fun n s => { s with iterations := some n },
    hyperparameter "optimizer" (accepted Solver.spelled) fun v s => { s with solver := some v },
    hyperparameter "activation" (accepted Activation.spelled) fun v s =>
      { s with activation := some v },
    hyperparameter "smoothing" Decimal.readFloat? fun x s => { s with smoothing := some x },
    hyperparameter "gamma" (fun v => some (Gamma.parse v)) fun g s => { s with gamma := some g },
    hyperparameter "c" Decimal.readFloat? fun x s => { s with c := some x }]

def trainTable : OptionTable TrainFields where
  options :=
    [.path "settings" none fun v f => { f with settings := some v },
      directories "malicious" 'm' fun v f => { f with malicious := f.malicious ++ [v] },
      directories "benign" 'b' fun v f => { f with benign := f.benign ++ [v] },
      .reading "model" (some 'o') (accepted Family.spelled) fun v f => { f with family := some v },
      .reading "preprocess" (some 'p') (accepted Method.spelled) fun v f => { f with method := v },
      .reading "action" (some 'a') (accepted Action.spelled) fun v f => { f with action := v }] ++
      hyperparameters
  commands := []
  hasVersion := false

/-- The run that the fields ask for; directories and family are needed. -/
def TrainFields.request (f : TrainFields) : Except Complaint TrainRequest :=
  if f.malicious.isEmpty then .error (.missing "--malicious")
  else if f.benign.isEmpty then .error (.missing "--benign")
  else
    match f.family with
    | none => .error (.missing "--model")
    | some family => .ok ⟨f.malicious, f.benign, f.method, family, f.action, f.selection⟩

structure PredictFields where
  settings : Option String
  family : Option Family
  file : Option String
  directory : Option String
  report : Option String

def PredictFields.empty : PredictFields := ⟨none, none, none, none, none⟩

def predictTable : OptionTable PredictFields where
  options :=
    [.path "settings" none fun v f => { f with settings := some v },
      .reading "model" (some 'o') (accepted Family.spelled) fun v f => { f with family := some v },
      .path "file" (some 'f') fun v f => { f with file := some v },
      .path "dir" (some 'd') fun v f => { f with directory := some v },
      .path "report" (some 'r') fun v f => { f with report := some v }]
  commands := []
  hasVersion := false

/-- The file or the directory, of which exactly one is needed. -/
def PredictFields.target (f : PredictFields) : Except Complaint PredictTarget :=
  match f.file, f.directory with
  | some _, some _ => .error (.conflict "--file" "--dir")
  | some p, none => .ok (.file p)
  | none, some p => .ok (.directory p)
  | none, none => .error (.missing "--file or --dir")

def PredictFields.request (f : PredictFields) : Except Complaint PredictRequest := do
  let target ← f.target
  match f.family with
  | none => throw (.missing "--model")
  | some family => return ⟨family, target, f.report⟩

def readAll {β : Type} (t : OptionTable β) (start : β) (args : List String) : Except Complaint β := do
  let (r, _) ← OptionReader.run t (.start start) args
  return (← r.settle).record

def commands : List String := ["train", "predict", "help"]

/-- In front of the command there may be settings. -/
def table : OptionTable (Option String) := ⟨[.path "settings" none fun v _ => some v], commands, true⟩

/-- Help on a command; commands have none of their own. -/
def help : List String → Complaint
  | [] => .help
  | name :: rest =>
    if commands.contains name then
      match rest with
      | [] => .help
      | other :: _ => .unknownCommand other
    else .unknownCommand name

/-- A command with its arguments; settings may be given there as well. -/
def readCommand (name : String) (args : List String) : Except Complaint (Option String × Command) := do
  if name = "train" then
    let f ← readAll trainTable .empty args
    return (f.settings, .train (← f.request))
  else if name = "predict" then
    let f ← readAll predictTable .empty args
    return (f.settings, .predict (← f.request))
  else throw (help args)

/-- What the arguments behind the program's name ask for. Settings that are given with the command
win. -/
def parse (args : List String) : Except Complaint Invocation := do
  let (r, rest) ← OptionReader.run table (.start none) args
  match rest with
  | none =>
    let r ← r.settle
    throw (if r.given.isEmpty then .nothing else .noCommand)
  | some (name, args) =>
    let (settings, command) ← readCommand name args
    let r ← r.settle
    return ⟨settings.or r.record, command⟩

end Invocation

end PackageTriage
