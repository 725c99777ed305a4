import PackageTriage.Settings.Json
import PackageTriage.Storage.FileSystem

/-!
# Loading settings
-/

namespace PackageTriage.Settings

variable {m : Type → Type} [Monad m] [FileSystem m]

def load (path : String) : Run m (Settings Float) := do
  unless ← Run.isFile path do throw (.missingFile path)
  let text ← Run.readText path
  Run.ofExcept (parse text)

end PackageTriage.Settings
