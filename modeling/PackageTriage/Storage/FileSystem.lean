import PackageTriage.Error
import PackageTriage.Path

/-!
# File systems

What the program asks of the place where its files are kept. Every question and every change is one
primitive, so a program over them can run on real files and be reasoned about on a disk that is a
value. A run that fails keeps the changes made before.
-/

namespace PackageTriage

inductive FileKind where
  | file
  | directory
  | other
  deriving DecidableEq, Repr

class FileSystem (m : Type → Type) where
  /-- What a path leads to, if anything; links are followed. -/
  kind : String → m (Option FileKind)
  /-- Whether a path names a link. -/
  isLink : String → m Bool
  /-- A text that two paths share exactly if they lead to the same place. -/
  identity : String → m (Option String)
  /-- The names in a directory. -/
  names : String → m (Option (List String))
  /-- The bytes of a file. -/
  bytes : String → m (Option (List UInt8))
  /-- Make a file hold these bytes and no others; false if it cannot be written. -/
  put : String → List UInt8 → m Bool
  /-- Make a directory and all directories above it; false if one of them cannot be made. -/
  makeDirectory : String → m Bool

abbrev Run (m : Type → Type) := ExceptT Error m

namespace Run

variable {m : Type → Type} [Monad m]

def ofExcept {β : Type} (e : Except Error β) : Run m β := ExceptT.mk (pure e)

def ask {β : Type} (question : m β) : Run m β := ExceptT.lift question

variable [FileSystem m]

def isFile (path : String) : Run m Bool := do
  return (← ask (FileSystem.kind path)) = some .file

def isDirectory (path : String) : Run m Bool := do
  return (← ask (FileSystem.kind path)) = some .directory

def readBytes (path : String) : Run m (List UInt8) := do
  let some bytes ← ask (FileSystem.bytes path) | throw .storage
  return bytes

def readText (path : String) : Run m String := do
  let bytes ← readBytes path
  let some text := String.fromUTF8? ⟨bytes.toArray⟩ | throw .storage
  return text

/-- A directory, made if need be. -/
def ensureDirectory (path : String) : Run m Unit := do
  unless ← ask (FileSystem.makeDirectory path) do throw .storage

def writeBytes (path : String) (bytes : List UInt8) : Run m Unit := do
  unless ← ask (FileSystem.put path bytes) do throw .storage

/-- Write a table; the directories on the way to it are made. -/
def writeTable (path text : String) : Run m Unit := do
  if let some parent := Path.parent? path then ensureDirectory parent
  unless ← ask (FileSystem.put path text.toUTF8.toList) do throw .table

end Run

end PackageTriage
