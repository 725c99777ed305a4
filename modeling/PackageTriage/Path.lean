/-!
# Paths

Texts that name files and directories, parts divided by slashes. A path that begins with a slash leads
from the root, any other from the working directory. Empty parts and single dots lead nowhere.
-/

namespace PackageTriage.Path

def pieces (path : String) : List String :=
  (path.toList.splitOn '/').map String.ofList

def isAbsolute (path : String) : Bool := path.toList.head? = some '/'

def join (path name : String) : String :=
  if isAbsolute name || path.isEmpty then name
  else if path.toList.getLast? = some '/' then path ++ name
  else path ++ "/" ++ name

/-- A part that leads somewhere. -/
def leads (piece : String) : Bool := piece ≠ "" && piece ≠ "."

def steps (path : String) : List String := (pieces path).filter leads

/-- The path with these parts, from the root or from the working directory. -/
def ofSteps (absolute : Bool) (steps : List String) : String :=
  (if absolute then "/" else "") ++ "/".intercalate steps

/-- The paths of all directories that a path leads through, the outermost first. -/
def ancestors (path : String) : List String :=
  (List.range ((steps path).length - 1)).map fun i =>
    ofSteps (isAbsolute path) ((steps path).take (i + 1))

def trimEnd (path : String) : String :=
  String.ofList (path.toList.reverse.dropWhile (· = '/')).reverse

/-- The directory that a path leads through last, unless that is the root or the working directory. -/
def parent? (path : String) : Option String := (ancestors path).getLast?

def fileName? (path : String) : Option String := (steps path).getLast?.filter (· ≠ "..")

/-- A name without what stands from its last dot on. A dot at the front is part of the name. -/
def stem (name : String) : String :=
  let cs := name.toList.reverse
  match cs.dropWhile (· ≠ '.') with
  | [] => name
  | [_] => name
  | _ :: front => String.ofList front.reverse

end PackageTriage.Path
