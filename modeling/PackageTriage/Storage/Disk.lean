import PackageTriage.Storage.FileSystem

/-!
# Disks

A file system as a value: what stands at every place, a place being the names on the way from the
root. Links are followed wherever a path leads through them, at most so many on one way.

The main statements say what a disk holds after a change: at the changed place what was put there, at
all others what was there before.
-/

namespace PackageTriage

abbrev Place := List String

inductive Entry where
  | file (bytes : List UInt8)
  | directory
  | link (target : String)
  deriving DecidableEq, Repr

/-- The entries with their places, and the working directory. The root is a directory and has no
entry. -/
structure Disk where
  entries : List (Place × Entry)
  home : Place
  deriving DecidableEq, Repr

namespace Disk

def empty : Disk := ⟨[(["home"], .directory)], ["home"]⟩

instance : Inhabited Disk := ⟨empty⟩

def at? (d : Disk) (p : Place) : Option Entry :=
  if p = [] then some .directory else d.entries.lookup p

/-- Put an entry at a place, instead of what stands there. -/
def set (d : Disk) (p : Place) (e : Entry) : Disk :=
  { d with entries := (p, e) :: d.entries.filter fun (q, _) => q ≠ p }

def erase (d : Disk) (p : Place) : Disk :=
  { d with entries := d.entries.filter fun (q, _) => !p.isPrefixOf q }

theorem lookup_filter_ne {p q : Place} (h : q ≠ p) (entries : List (Place × Entry)) :
    (entries.filter fun (r, _) => r ≠ p).lookup q = entries.lookup q := by
  induction entries with
  | nil => rfl
  | cons x entries ih =>
    obtain ⟨r, e⟩ := x
    by_cases hr : r = p
    · subst hr
      have : (q == r) = false := by simpa using h
      simpa [List.lookup_cons, this] using ih
    · by_cases hq : q = r
      · subst hq
        simp [h]
      · have : (q == r) = false := by simpa using hq
        simpa [hr, List.lookup_cons, this] using ih

@[simp] theorem at?_set_self (d : Disk) {p : Place} (h : p ≠ []) (e : Entry) :
    (d.set p e).at? p = some e := by
  simp [at?, set, h]

theorem at?_set_of_ne (d : Disk) {p q : Place} (h : q ≠ p) (e : Entry) :
    (d.set p e).at? q = d.at? q := by
  have : (q == p) = false := by simpa using h
  simp only [at?, set, List.lookup_cons, this]
  rw [lookup_filter_ne h]

@[simp] theorem home_set (d : Disk) (p : Place) (e : Entry) : (d.set p e).home = d.home := rfl

/-- Follow the pieces of a path from a place. All pieces but the last have to lead to directories;
`jump` goes on behind a link. The last piece need not lead to anything, and a link there is followed
only if `follow` says so. -/
def descend (d : Disk) (follow : Bool) (jump : Place → List String → Option Place) :
    Place → List String → Option Place
  | p, [] => some p
  | p, piece :: pieces =>
    if d.at? p ≠ some .directory then none
    else if !Path.leads piece then descend d follow jump p pieces
    else if piece = ".." then descend d follow jump p.dropLast pieces
    else
      match d.at? (p ++ [piece]) with
      | some (.link target) =>
        if pieces.isEmpty && !follow then some (p ++ [piece])
        else if target.isEmpty then none
        else jump (if Path.isAbsolute target then [] else p) (Path.pieces target ++ pieces)
      | _ => descend d follow jump (p ++ [piece]) pieces

def follow (d : Disk) (last : Bool) : (links : Nat) → Place → List String → Option Place
  | 0 => descend d last fun _ _ => none
  | links + 1 => descend d last (d.follow last links)

def maxLinks : Nat := 40

def place? (d : Disk) (last : Bool) (path : String) : Option Place :=
  if path.isEmpty then none
  else d.follow last maxLinks (if Path.isAbsolute path then [] else d.home) (Path.pieces path)

def find? (d : Disk) (path : String) : Option Entry := (d.place? true path).bind d.at?

def kind? (d : Disk) (path : String) : Option FileKind :=
  match d.find? path with
  | some (.file _) => some .file
  | some .directory => some .directory
  | _ => none

def isLink (d : Disk) (path : String) : Bool :=
  match (d.place? false path).bind d.at? with
  | some (.link _) => true
  | _ => false

def spell (p : Place) : String := Path.ofSteps true p

def identity? (d : Disk) (path : String) : Option String :=
  match d.place? true path with
  | some p => if (d.at? p).isSome then some (spell p) else none
  | none => none

/-- The name of a place in a directory, if it stands there. -/
def nameIn? (directory p : Place) : Option String :=
  if p.dropLast = directory then p.getLast? else none

def names? (d : Disk) (path : String) : Option (List String) :=
  match d.place? true path with
  | some p =>
    if d.at? p = some .directory then some (d.entries.filterMap fun (q, _) => nameIn? p q) else none
  | none => none

def bytes? (d : Disk) (path : String) : Option (List UInt8) :=
  match d.find? path with
  | some (.file bytes) => some bytes
  | _ => none

/-- The disk after a file was written, if it can be. -/
def put? (d : Disk) (path : String) (bytes : List UInt8) : Option Disk := do
  let p ← d.place? true path
  match d.at? p with
  | some .directory => none
  | _ => some (d.set p (.file bytes))

/-- The disk with a directory at a path whose parent is there. -/
def makeOne (d : Disk) (path : String) : Option Disk := do
  if d.kind? path = some .directory then return d
  let p ← d.place? false path
  match d.at? p with
  | none => some (d.set p .directory)
  | some _ => none

/-- The disk with all directories on the way to a path, and how far they could be made. -/
def makeAll (d : Disk) : List String → Disk × Bool
  | [] => (d, true)
  | path :: paths =>
    match d.makeOne path with
    | some d => d.makeAll paths
    | none => (d, false)

def make (d : Disk) (path : String) : Disk × Bool :=
  if path.isEmpty then (d, true) else d.makeAll (Path.ancestors path ++ [Path.trimEnd path])

end Disk

/-- Runs on a disk. -/
instance : FileSystem (StateM Disk) where
  kind path := do return (← get).kind? path
  isLink path := do return (← get).isLink path
  identity path := do return (← get).identity? path
  names path := do return (← get).names? path
  bytes path := do return (← get).bytes? path
  put path bytes := do
    match (← get).put? path bytes with
    | some d =>
      set d
      return true
    | none => return false
  makeDirectory path := do
    let (d, made) := (← get).make path
    set d
    return made

end PackageTriage
