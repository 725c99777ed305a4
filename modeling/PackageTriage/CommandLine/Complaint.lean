/-!
# Complaints about a command line

Why a command line is not carried out. Asking for help or for the version is one of the reasons.
-/

namespace PackageTriage

inductive Complaint where
  | help
  | version
  /-- Nothing was given that says what to do. -/
  | nothing
  | noCommand
  | unknownCommand (name : String)
  | unknownArgument (written : String)
  /-- An option that is needed was not given. -/
  | missing (option : String)
  | noValue (option : String)
  /-- The value is not of the kind that the option takes. -/
  | badValue (option value : String)
  /-- A value was given where none is taken. -/
  | needlessValue (option : String)
  /-- Two options were given of which only one can be. -/
  | conflict (option other : String)
  deriving DecidableEq, Repr

namespace Complaint

def message : Complaint → String
  | help | nothing =>
    "Usage: package-triage [--settings PATH] train|predict OPTIONS\n\n" ++
      "  train    -m PATH.. -b PATH.. -o MODEL [-p METHOD] [-a validate|save]\n" ++
      "           [--trees N] [--max-depth N] [--learning-rate X] [--hidden-layers N,N..]\n" ++
      "           [--max-iterations N] [--optimizer NAME] [--activation NAME]\n" ++
      "           [--smoothing X] [--gamma X] [--c X]\n" ++
      "  predict  -o MODEL (-f PATH | -d PATH) [-r PATH]"
  | version => "package-triage 0.1.0"
  | noCommand => "error: a command is needed: train or predict"
  | unknownCommand name => "error: unknown command " ++ name
  | unknownArgument written => "error: unexpected argument " ++ written
  | missing option => "error: missing " ++ option
  | noValue option => "error: " ++ option ++ " needs a value"
  | badValue option value => "error: " ++ value ++ " is no value for " ++ option
  | needlessValue option => "error: " ++ option ++ " takes no value"
  | conflict option other => "error: " ++ option ++ " cannot be used with " ++ other

/-- Help and the version were asked for; anything else is a fault. -/
def isFault : Complaint → Bool
  | help | version => false
  | _ => true

end Complaint

end PackageTriage
