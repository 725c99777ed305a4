import PackageTriage.Json.Value

/-!
# Reading JSON

One value with blanks around it and nothing else. Every function gives the value it read and the
characters after it; the first argument bounds the steps, and the length of the text always suffices
because every step consumes a character.
-/

namespace PackageTriage.Json

def isSpace (c : Char) : Bool := c = ' ' || c = '\n' || c = '\t' || c = '\r'

def skipSpaces (cs : List Char) : List Char := cs.dropWhile isSpace

def hexValue? (c : Char) : Option Nat :=
  if c.isDigit then some (c.toNat - '0'.toNat)
  else if 'a' ≤ c ∧ c ≤ 'f' then some (c.toNat - 'a'.toNat + 10)
  else if 'A' ≤ c ∧ c ≤ 'F' then some (c.toNat - 'A'.toNat + 10)
  else none

def codeUnit? : List Char → Option (Nat × List Char)
  | a :: b :: c :: d :: rest => do
    let a ← hexValue? a
    let b ← hexValue? b
    let c ← hexValue? c
    let d ← hexValue? d
    some (a * 4096 + b * 256 + c * 16 + d, rest)
  | _ => none

/-- A code unit that is half of a pair. -/
def isHighHalf (u : Nat) : Bool := 0xD800 ≤ u && u ≤ 0xDBFF

def isLowHalf (u : Nat) : Bool := 0xDC00 ≤ u && u ≤ 0xDFFF

/-- The character after `\u`, absent if its code unit is half of a pair that is not there. -/
def escapedUnit? (cs : List Char) : Option (Option Char × List Char) := do
  let (u, rest) ← codeUnit? cs
  if isHighHalf u then
    match rest with
    | '\\' :: 'u' :: more =>
      let (v, after) ← codeUnit? more
      if isLowHalf v then some (some (Char.ofNat (0x10000 + (u - 0xD800) * 1024 + (v - 0xDC00))), after)
      else some (none, rest)
    | _ => some (none, rest)
  else if isLowHalf u then some (none, rest)
  else some (some (Char.ofNat u), rest)

def escape? : List Char → Option (Option Char × List Char)
  | '"' :: rest => some (some '"', rest)
  | '\\' :: rest => some (some '\\', rest)
  | '/' :: rest => some (some '/', rest)
  | 'b' :: rest => some (some '\x08', rest)
  | 'f' :: rest => some (some '\x0c', rest)
  | 'n' :: rest => some (some '\n', rest)
  | 'r' :: rest => some (some '\r', rest)
  | 't' :: rest => some (some '\t', rest)
  | 'u' :: rest => escapedUnit? rest
  | _ => none

/-- The rest of a text after its opening quote. The characters read so far stand in `seen`, last one
first, or nothing does once an escape stood for no character. -/
def readText : Nat → List Char → Option (List Char) → Option (Option String × List Char)
  | 0, _, _ => none
  | _ + 1, [], _ => none
  | fuel + 1, c :: cs, seen =>
    if c = '"' then some (seen.map fun s => String.ofList s.reverse, cs)
    else if c = '\\' then
      match escape? cs with
      | none => none
      | some (e, rest) =>
        readText fuel rest (match seen, e with
          | some s, some e => some (e :: s)
          | _, _ => none)
    else if c.toNat < 0x20 then none
    else readText fuel cs (seen.map (c :: ·))

/-- The digits at the front, of which there has to be one. -/
def someDigits? (cs : List Char) : Option (List Char × List Char) :=
  let (ds, rest) := Decimal.spanDigits cs
  if ds.isEmpty then none else some (ds, rest)

/-- Digits that begin with zero only if they are zero. -/
def wholePart? : List Char → Option (List Char × List Char)
  | '0' :: cs => if (cs.head?.map Char.isDigit).getD false then none else some (['0'], cs)
  | cs => someDigits? cs

def fractionPart? : List Char → Option (List Char × List Char)
  | '.' :: cs => (someDigits? cs).map fun (ds, rest) => ('.' :: ds, rest)
  | cs => some ([], cs)

def exponentPart? : List Char → Option (List Char × List Char)
  | c :: cs =>
    if c = 'e' ∨ c = 'E' then
      match cs with
      | '+' :: cs => (someDigits? cs).map fun (ds, rest) => (c :: '+' :: ds, rest)
      | '-' :: cs => (someDigits? cs).map fun (ds, rest) => (c :: '-' :: ds, rest)
      | cs => (someDigits? cs).map fun (ds, rest) => (c :: ds, rest)
    else some ([], c :: cs)
  | [] => some ([], [])

def readNumber (cs : List Char) : Option (Json × List Char) := do
  let (sign, cs) := match cs with
    | '-' :: cs => (['-'], cs)
    | cs => ([], cs)
  let (whole, cs) ← wholePart? cs
  let (fraction, cs) ← fractionPart? cs
  let (exponent, cs) ← exponentPart? cs
  some (.number (String.ofList (sign ++ whole ++ fraction ++ exponent)), cs)

mutual

def readValue : Nat → List Char → Option (Json × List Char)
  | 0, _ => none
  | fuel + 1, cs =>
    match skipSpaces cs with
    | 'n' :: 'u' :: 'l' :: 'l' :: rest => some (.null, rest)
    | 't' :: 'r' :: 'u' :: 'e' :: rest => some (.bool true, rest)
    | 'f' :: 'a' :: 'l' :: 's' :: 'e' :: rest => some (.bool false, rest)
    | '"' :: rest => (readText fuel rest (some [])).map fun (s, rest) => (.text s, rest)
    | '[' :: rest =>
      match skipSpaces rest with
      | ']' :: rest => some (.list [], rest)
      | rest => (readItems fuel rest).map fun (items, rest) => (.list items, rest)
    | '\x7b' :: rest =>
      match skipSpaces rest with
      | '\x7d' :: rest => some (.object [], rest)
      | rest => (readFields fuel rest).map fun (fields, rest) => (.object fields, rest)
    | rest => readNumber rest

def readItems : Nat → List Char → Option (List Json × List Char)
  | 0, _ => none
  | fuel + 1, cs =>
    match readValue fuel cs with
    | none => none
    | some (item, rest) =>
      match skipSpaces rest with
      | ']' :: rest => some ([item], rest)
      | ',' :: rest => (readItems fuel rest).map fun (items, rest) => (item :: items, rest)
      | _ => none

def readFields : Nat → List Char → Option (List (Option String × Json) × List Char)
  | 0, _ => none
  | fuel + 1, cs =>
    match skipSpaces cs with
    | '"' :: rest =>
      match readText fuel rest (some []) with
      | none => none
      | some (name, rest) =>
        match skipSpaces rest with
        | ':' :: rest =>
          match readValue fuel rest with
          | none => none
          | some (value, rest) =>
            match skipSpaces rest with
            | '\x7d' :: rest => some ([(name, value)], rest)
            | ',' :: rest =>
              (readFields fuel rest).map fun (fields, rest) => ((name, value) :: fields, rest)
            | _ => none
        | _ => none
    | _ => none

end

def read? (s : String) : Option Json :=
  let cs := s.toList
  match readValue (2 * cs.length + 2) cs with
  | some (value, rest) => if (skipSpaces rest).isEmpty then some value else none
  | none => none

end PackageTriage.Json
