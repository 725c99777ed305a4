import PackageTriage.Decimal.Style
import PackageTriage.Json.Number

/-!
# JSON values

A JSON document as a value. A number keeps the characters it was written with, because an integer
and a float may be written for the same quantity and only the reader of a field knows which it takes.
An object keeps its fields in the order they were written, with any repetitions.

A text is absent when one of its escapes stands for no character. Such a text is well formed, so it
may stand where nothing reads it.
-/

namespace PackageTriage

inductive Json where
  | null
  | bool (b : Bool)
  | number (written : String)
  | text (s : Option String)
  | list (items : List Json)
  | object (fields : List (Option String × Json))
  deriving Inhabited

namespace Json

def ofString (s : String) : Json := .text (some s)

def ofNat (n : Nat) : Json := .number (toString n)

/-- A float as settings files hold it: what is not finite has no number and becomes null. -/
def ofFloat (x : Float) : Json :=
  if x.isFinite then .number (NumberStyle.settings.render x) else .null

def ofOption {α : Type} (write : α → Json) : Option α → Json
  | none => .null
  | some a => write a

def record (fields : List (String × Json)) : Json :=
  .object (fields.map fun (name, value) => (some name, value))

/-- A natural number of 64 bits: digits only. -/
def natural? : Json → Option Nat
  | .number w =>
    if w.toList.all Char.isDigit then
      let n := Decimal.digitsToNat w.toList 0
      if n < Nat.pow 2 64 then some n else none
    else none
  | _ => none

/-- The float that a number is read as, unless that is infinite. -/
def float? [NumberReader] : Json → Option Float
  | .number w => (NumberReader.read w).filter Float.isFinite
  | _ => none

def string? : Json → Option String
  | .text s => s
  | _ => none

def listOf? {α : Type} (read : Json → Option α) : Json → Option (List α)
  | .list items => items.mapM read
  | _ => none

def optional? {α : Type} (read : Json → Option α) : Json → Option (Option α)
  | .null => some none
  | j => (read j).map some

/-- The value of one name: written as a text, or as an object of that one name and null. -/
def name? : Json → Option String
  | .text s => s
  | .object [(s, .null)] => s
  | _ => none

/-- What an object gives to a field that goes by any of `names`. A field given twice is a fault, also
under two of its names. -/
def givenTo? (names : List String) (given : List (String × Json)) : Option (Option Json) :=
  match given.filter fun (name, _) => names.contains name with
  | [] => some none
  | [(_, value)] => some (some value)
  | _ => none

/-- The fields of a record, each with the names it goes by. An object may leave fields out and may
hold others, which are passed over; a list gives the fields in order and may stop early. -/
def fields? (fields : List (List String)) : Json → Option (List (Option Json))
  | .object given => do
    let given ← given.mapM fun (name, value) => name.map (·, value)
    fields.mapM fun names => givenTo? names given
  | .list items =>
    if items.length ≤ fields.length then
      some (items.map some ++ List.replicate (fields.length - items.length) none)
    else none
  | _ => none

def orDefault? {α : Type} (read : Json → Option α) (default : α) : Option Json → Option α
  | none => some default
  | some j => read j

end Json

end PackageTriage
