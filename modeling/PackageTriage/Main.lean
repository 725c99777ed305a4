import PackageTriage.CommandLine.Commands

/-!
# The program

The command line on the files and the console of the machine: every primitive of a file system and of
a console is one action. The program fails with one if the command fails and with two if the command
line is not understood.
-/

namespace PackageTriage

/-- An answer that is missing when the action fails. -/
def attempt? {β : Type} (action : IO β) : IO (Option β) :=
  tryCatch (some <$> action) fun _ => pure none

def kindOf : IO.FS.FileType → FileKind
  | .file => .file
  | .dir => .directory
  | _ => .other

def succeeds (action : IO Unit) : IO Bool := do return (← attempt? action).isSome

instance : FileSystem IO where
  kind path := attempt? do return kindOf (← (← IO.FS.realPath path).metadata).type
  isLink path := do
    match ← attempt? (System.mkFilePath [path]).symlinkMetadata with
    | some md => return md.type == .symlink
    | none => return false
  identity path := attempt? do return (← IO.FS.realPath path).toString
  names path := attempt? do
    return (← (System.mkFilePath [path]).readDir).toList.map (·.fileName)
  bytes path := attempt? do return (← IO.FS.readBinFile path).toList
  put path bytes := succeeds (IO.FS.writeBinFile path ⟨bytes.toArray⟩)
  makeDirectory path := if path.isEmpty then return true else succeeds (IO.FS.createDirAll path)

/-- A duration in the largest unit of which it holds at least one, with two decimals. -/
def showDuration (nanoseconds : Nat) : String :=
  let (unit, name) :=
    if nanoseconds < 1000 then (1, "ns")
    else if nanoseconds < 1000000 then (1000, "µs")
    else if nanoseconds < 1000000000 then (1000000, "ms")
    else (1000000000, "s")
  let hundredths := (nanoseconds * 100 + unit / 2) / unit
  let decimals := toString (hundredths % 100)
  toString (hundredths / 100) ++ "." ++ (if decimals.length = 1 then "0" else "") ++ decimals ++ name

abbrev Clocked := StateT Nat IO

instance : Console Clocked where
  say s := do
    let out ← IO.getStdout
    out.putStr s
    out.flush
  startClock := do set (← IO.monoNanosNow)
  sayElapsed := do
    let now ← IO.monoNanosNow
    let out ← IO.getStdout
    out.putStr (showDuration (now - (← get)))

def Failure.message (f : Failure) : String :=
  match f.context with
  | none => "Error: " ++ f.error.message
  | some context => "Error: " ++ context ++ "\n\nCaused by:\n    " ++ f.error.message

def carryOut (args : List String) : IO UInt32 := do
  match Invocation.parse args with
  | .error c =>
    if c.isFault then
      IO.eprintln c.message
      return 2
    else
      IO.println c.message
      return 0
  | .ok i =>
    let (outcome, _) ← ((Invocation.run i : Work Clocked Unit).run).run 0
    match outcome with
    | .ok () => return 0
    | .error f =>
      IO.eprintln f.message
      return 1

end PackageTriage

def main (args : List String) : IO UInt32 := PackageTriage.carryOut args
