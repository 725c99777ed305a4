import PackageTriage.CommandLine.Complaint

/-!
# Options

An option is written with two dashes and its name, or with one dash and its letter. Its value is the
next argument, or stands behind an equals sign, or directly behind the letter. An argument that begins
with a dash is never the value of the option before it.

The values of an option are stored when the next option begins or the arguments end, so a fault in
what follows is found first.
-/

namespace PackageTriage

/-- An option whose values are stored in a record of the type `β`. -/
structure OptionSpec (β : Type) where
  name : String
  letter : Option Char
  /-- Whether the option may be given more than once. -/
  repeatable : Bool
  /-- Whether it takes all values that follow and not one only. -/
  greedy : Bool
  /-- Whether a comma parts one value from the next. -/
  parted : Bool
  store : String → β → Except Complaint β

namespace OptionSpec

variable {β : Type}

def shown (o : OptionSpec β) : String := "--" ++ o.name

/-- An option with one value that stands for something. -/
def reading {γ : Type} (name : String) (letter : Option Char) (read : String → Option γ)
    (put : γ → β → β) : OptionSpec β where
  name := name
  letter := letter
  repeatable := false
  greedy := false
  parted := false
  store v b :=
    match read v with
    | some c => .ok (put c b)
    | none => .error (.badValue ("--" ++ name) v)

/-- An option with one path; the empty path counts as no value. -/
def path (name : String) (letter : Option Char) (put : String → β → β) : OptionSpec β where
  name := name
  letter := letter
  repeatable := false
  greedy := false
  parted := false
  store v b := if v.isEmpty then .error (.noValue ("--" ++ name)) else .ok (put v b)

def values (o : OptionSpec β) (written : List String) : List String :=
  if o.parted then written.flatMap fun v => (v.toList.splitOn ',').map String.ofList else written

end OptionSpec

/-- What is known where a command line, or its rest behind a command, is read. -/
structure OptionTable (β : Type) where
  options : List (OptionSpec β)
  commands : List String
  hasVersion : Bool

/-- An option whose values are still being read, last one first. -/
structure OpenOption (β : Type) where
  option : OptionSpec β
  values : List String
  /-- Whether the next argument may be a value. -/
  waiting : Bool

structure OptionReader (β : Type) where
  record : β
  /-- The names of the options that were stored. -/
  given : List String
  current : Option (OpenOption β)

namespace OptionReader

variable {β : Type}

def start (record : β) : OptionReader β := ⟨record, [], none⟩

def accept (r : OptionReader β) (o : OptionSpec β) (written : List String) :
    Except Complaint (OptionReader β) :=
  if !o.repeatable && r.given.contains o.name then .error (.conflict o.shown o.shown)
  else do
    let record ← (o.values written).foldlM (fun b v => o.store v b) r.record
    return ⟨record, o.name :: r.given, none⟩

/-- Store the values of the option that was being read. -/
def settle (r : OptionReader β) : Except Complaint (OptionReader β) :=
  match r.current with
  | none => .ok r
  | some c =>
    if c.values.isEmpty then .error (.noValue c.option.shown)
    else { r with current := none }.accept c.option c.values.reverse

def isWaiting (r : OptionReader β) : Bool :=
  match r.current with
  | some c => c.waiting
  | none => false

def begin (r : OptionReader β) (o : OptionSpec β) (value : Option String) :
    Except Complaint (OptionReader β) := do
  let r ← r.settle
  match value with
  | some v => r.accept o [v]
  | none => return { r with current := some ⟨o, [], true⟩ }

/-- A flag ends the reading with a complaint of its own. -/
def flag (r : OptionReader β) (c : Complaint) : Except Complaint (OptionReader β) := do
  let _ ← r.settle
  throw c

def long (t : OptionTable β) (r : OptionReader β) (cs : List Char) :
    Except Complaint (OptionReader β) :=
  let name := String.ofList (cs.takeWhile (· ≠ '='))
  let value := match cs.dropWhile (· ≠ '=') with
    | [] => none
    | _ :: v => some (String.ofList v)
  let known : Option Complaint :=
    if name = "help" then some .help
    else if name = "version" && t.hasVersion then some .version
    else none
  match t.options.find? (·.name = name), known with
  | some o, _ => r.begin o value
  | none, some c => if value.isSome then .error (.needlessValue ("--" ++ name)) else r.flag c
  | none, none => .error (.unknownArgument ("--" ++ name))

/-- An argument that begins with one dash and the letter `c`. -/
def short (t : OptionTable β) (r : OptionReader β) (c : Char) (cs : List Char) :
    Except Complaint (OptionReader β) :=
  let value := match cs with
    | [] => none
    | '=' :: v => some (String.ofList v)
    | v => some (String.ofList v)
  match t.options.find? (·.letter = some c) with
  | some o => r.begin o value
  | none =>
    if c = 'h' then r.flag .help
    else if c = 'V' && t.hasVersion then r.flag .version
    else .error (.unknownArgument (String.ofList ['-', c]))

/-- An argument that belongs to no option. -/
def stray (t : OptionTable β) (written : String) : Complaint :=
  if t.commands.isEmpty then .unknownArgument written else .unknownCommand written

def plain (t : OptionTable β) (r : OptionReader β) (written : String) :
    Except Complaint (OptionReader β) :=
  match r.current with
  | some c =>
    if c.waiting then
      .ok { r with current := some { c with values := written :: c.values, waiting := c.option.greedy } }
    else .error (stray t written)
  | none => .error (stray t written)

def step (t : OptionTable β) (r : OptionReader β) (written : String) :
    Except Complaint (OptionReader β) :=
  match written.toList with
  | '-' :: '-' :: cs => long t r cs
  | '-' :: c :: cs => short t r c cs
  | _ => plain t r written

/-- Read arguments up to a command. Gives the command, if there is one, with the arguments behind it.
Behind two dashes alone nothing is an option, and since there is no other use for an argument, none
may follow. -/
def run (t : OptionTable β) : OptionReader β → List String →
    Except Complaint (OptionReader β × Option (String × List String))
  | r, [] => .ok (r, none)
  | r, a :: as =>
    if !r.isWaiting && t.commands.contains a then .ok (r, some (a, as))
    else if a = "--" then
      match as with
      | [] => .ok (r, none)
      | b :: _ => .error (if t.commands.contains b then .unknownArgument b else stray t b)
    else
      match step t r a with
      | .error c => .error c
      | .ok r => run t r as

end OptionReader

end PackageTriage
