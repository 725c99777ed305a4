import PackageTriage.Storage.FileSystem

/-!
# Walks

The files below a directory, those of a directory in the order of their names with each inner directory
in the place of its own name. Links are followed; a link that leads nowhere, or back to a directory on
the way to it, breaks the walk off.
-/

namespace PackageTriage

/-- The files that were met, in order, and whether the walk broke off behind them. -/
structure Walk where
  files : List String
  broken : Bool
  deriving DecidableEq, Repr

namespace Walk

def empty : Walk := ⟨[], false⟩

def broke : Walk := ⟨[], true⟩

def append (a b : Walk) : Walk := ⟨a.files ++ b.files, b.broken⟩

variable {m : Type → Type} [Monad m]

def andThen (w : Walk) (next : m Walk) : m Walk := do
  if w.broken then return w else return w.append (← next)

def inOrder (walk : String → m Walk) : List String → Walk → m Walk
  | [], w => pure w
  | path :: paths, w => do inOrder walk paths (← w.andThen (walk path))

def sortNames (names : List String) : List String := names.mergeSort (fun a b => a ≤ b)

variable [FileSystem m]

/-- Walk from a path, on the way to which the directories in `above` were met. A way has no more than
`fuel` directories. -/
def below : (fuel : Nat) → (above : List String) → String → m Walk
  | 0, _, _ => pure broke
  | fuel + 1, above, path => do
    match ← FileSystem.kind path with
    | none => return broke
    | some .file => return ⟨[path], false⟩
    | some .other => return empty
    | some .directory =>
      match ← FileSystem.identity path with
      | none => return broke
      | some here =>
        if above.contains here && (← FileSystem.isLink path) then return broke
        else
          match ← FileSystem.names path with
          | none => return broke
          | some names =>
            inOrder (below fuel (here :: above)) ((sortNames names).map (Path.join path)) empty

/-- No path leads through more directories than this, since its text would be too long. -/
def maxDepth : Nat := 4096

def of (path : String) : m Walk := below maxDepth [] path

end Walk

end PackageTriage
