import PackageTriage.Storage.FileSystem

/-!
# Consoles

Where a command shows what it does. A duration is shown where a clock was read, and since no rule
says what the clock shows, a transcript only marks the place.
-/

namespace PackageTriage

class Console (m : Type → Type) where
  say : String → m Unit
  /-- Start the clock. -/
  startClock : m Unit
  /-- Show how long ago the clock was started. -/
  sayElapsed : m Unit

inductive Shown where
  | text (s : String)
  | elapsed
  deriving DecidableEq, Repr

/-- All that was shown, last first. -/
abbrev Transcript := List Shown

namespace Transcript

/-- The text of a transcript; `elapsed` stands where durations were shown. -/
def render (elapsed : String) (t : Transcript) : String :=
  String.join (t.reverse.map fun
    | .text s => s
    | .elapsed => elapsed)

end Transcript

variable {m : Type → Type} [Monad m]

instance : Console (StateT Transcript m) where
  say s := modify (.text s :: ·)
  startClock := pure ()
  sayElapsed := modify (.elapsed :: ·)

/-- A run that shows something works on the same files. -/
instance {σ : Type} [FileSystem m] : FileSystem (StateT σ m) where
  kind path := StateT.lift (FileSystem.kind path)
  isLink path := StateT.lift (FileSystem.isLink path)
  identity path := StateT.lift (FileSystem.identity path)
  names path := StateT.lift (FileSystem.names path)
  bytes path := StateT.lift (FileSystem.bytes path)
  put path bytes := StateT.lift (FileSystem.put path bytes)
  makeDirectory path := StateT.lift (FileSystem.makeDirectory path)

end PackageTriage
