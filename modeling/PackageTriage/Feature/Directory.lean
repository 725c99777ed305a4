import PackageTriage.Feature.Dataset
import PackageTriage.Feature.File
import PackageTriage.Storage.Walk

/-!
# Feature directories

A directory holds the feature files of many packages, in itself and in the directories below it.
-/

namespace PackageTriage

variable {m : Type → Type} [Monad m] [FileSystem m]

def FeatureFile.read (path : String) : Run m (List FeatureValue) := do
  unless ← Run.isFile path do throw (.missingFile path)
  let text ← Run.readText path
  Run.ofExcept (parse path text.toList)

/-- The files below a directory one after the other, and then the fault of a walk that broke off. -/
def Run.forFiles {β : Type} (directory : String) (visit : String → Run m β) : Run m (List β) := do
  let walk ← ask (Walk.of directory)
  let visited ← walk.files.mapM visit
  if walk.broken then throw .storage
  return visited

def Sample.read (label : Label) (path : String) : Run m Sample := do
  let values ← FeatureFile.read path
  return ⟨(Path.fileName? path).getD "", values, label⟩

namespace Dataset

def readDirectory (label : Label) (directory : String) : Run m (List Sample) := do
  unless ← Run.isDirectory directory do throw (.missingFile directory)
  Run.forFiles directory (Sample.read label)

/-- The samples of all malicious directories in order, then those of the benign ones. -/
def read (malicious benign : List String) : Run m (List Sample) := do
  let bad ← malicious.mapM (readDirectory .malicious)
  let good ← benign.mapM (readDirectory .benign)
  return bad.flatten ++ good.flatten

end Dataset

end PackageTriage
