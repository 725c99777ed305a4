import PackageTriage.CommandLine.Console
import PackageTriage.CommandLine.Invocation
import PackageTriage.Prediction.Report
import PackageTriage.Settings.File
import PackageTriage.Training.Run

/-!
# Commands

The two commands, and what they show on the way: a title, the choices that were made, each step as it
begins and ends, and the files that were written.
-/

namespace PackageTriage

/-- What ended a command, and what the command was about to do. -/
structure Failure where
  context : Option String
  error : Error

/-- The work of a command. What was shown and written before a failure stays. -/
abbrev Work (m : Type → Type) := ExceptT Failure m

namespace Work

variable {m : Type → Type} [Monad m]

/-- Do a run; should it fail, `context` is told. -/
def doing {β : Type} (context : Option String) (r : Run m β) : Work m β :=
  ExceptT.mk do
    match ← r.run with
    | .ok b => return .ok b
    | .error e => return .error ⟨context, e⟩

variable [Console m]

def say (s : String) : Work m Unit := ExceptT.lift (Console.say s)

def sayLine (s : String) : Work m Unit := say (s ++ "\n")

def title (s : String) : Work m Unit := do
  sayLine ""
  sayLine ("  " ++ s)
  sayLine ("  " ++ String.ofList (List.replicate 56 '─'))

/-- A name in a column of its own, and a value. -/
def entry (name value : String) : Work m Unit :=
  sayLine ("  " ++ name ++ String.ofList (List.replicate (16 - name.length) ' ') ++ " " ++ value)

def begin (s : String) : Work m Unit := do
  say ("  › " ++ s ++ "... ")
  ExceptT.lift Console.startClock

/-- A step ended; `done` says what was done, in front of how long it took. -/
def finish (done : String) : Work m Unit := do
  say ("done " ++ done)
  ExceptT.lift Console.sayElapsed
  sayLine ""

def wrote (path : String) : Work m Unit := do
  sayLine ("  ✓ Wrote " ++ path)
  sayLine ""

end Work

namespace Invocation

variable {m : Type → Type} [Monad m] [FileSystem m] [Console m]

/-- The settings in a given file. Without one, those in the default file if it is there. -/
def loadSettings : Option String → Work m (Settings Float)
  | some path => .doing (some ("failed to load settings from " ++ path)) (Settings.load path)
  | none => .doing none do
    if ← Run.isFile Settings.defaultPath then Settings.load Settings.defaultPath else return default

def ensureEnabled (s : Settings Float) (f : Family) (method : Option Method)
    (selection : Selection Float) : Work m Unit :=
  .doing (some "option not enabled in settings")
    (Run.ofExcept (s.ensureChoice f method selection))

def train (s : Settings Float) (r : TrainRequest) : Work m Unit := do
  Work.title "Train"
  ensureEnabled s r.family (some r.method) r.selection
  Work.entry "Model" r.family.code
  Work.entry "Preprocess" r.method.name
  Work.entry "Action" r.action.name
  Work.begin (match r.action with
    | .validate => "Validating grid"
    | .save => "Fitting model")
  let path ← Work.doing none (r.run s.directories s.grids)
  Work.finish ""
  Work.wrote path

def predictFile (s : Settings Float) (f : Family) (path : String) : Work m Unit := do
  let label ← Work.doing none (Predictor.predict s.directories.models f path)
  Work.entry "Package" path
  Work.entry "Prediction" label.name
  Work.sayLine ""

/-- Label all feature files below a directory, show the malicious packages, and write a report. -/
def predictDirectory (s : Settings Float) (f : Family) (directory : String)
    (report : Option String) : Work m Unit := do
  Work.begin ("Classifying " ++ directory)
  let ps ← Work.doing none (Predictor.predictDirectory s.directories.models f directory)
  Work.finish (toString ps.length ++ " packages in ")
  for p in ps do
    if p.label = .malicious then Work.sayLine ("    " ++ p.label.name ++ " " ++ p.package)
  let path := report.getD (Prediction.reportPath s.directories.reports f)
  Work.doing none (Prediction.writeReport ps path)
  Work.wrote path

def predict (s : Settings Float) (r : PredictRequest) : Work m Unit := do
  Work.title "Predict"
  ensureEnabled s r.family none default
  match r.target with
  | .file path => predictFile s r.family path
  | .directory path => predictDirectory s r.family path r.report

def run (i : Invocation) : Work m Unit := do
  let s ← loadSettings i.settings
  match i.command with
  | .train r => train s r
  | .predict r => predict s r

end Invocation

end PackageTriage
