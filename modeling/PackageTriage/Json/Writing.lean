import PackageTriage.Json.Value
import PackageTriage.Text.Quoted

/-!
# Writing JSON

A value on one line without blanks, or laid out over several: two spaces per level, one item or field
to a line, nothing between the brackets of an empty list or object.
-/

namespace PackageTriage.Json

def escapeChar (c : Char) : List Char :=
  if c = '"' then ['\\', '"']
  else if c = '\\' then ['\\', '\\']
  else if c = '\x08' then ['\\', 'b']
  else if c = '\x0c' then ['\\', 'f']
  else if c = '\n' then ['\\', 'n']
  else if c = '\r' then ['\\', 'r']
  else if c = '\t' then ['\\', 't']
  else if c.toNat < 0x20 then
    ['\\', 'u', '0', '0', Nat.digitChar (c.toNat / 16), Nat.digitChar (c.toNat % 16)]
  else [c]

/-- A text between quotes; an absent one is empty. -/
def writeText (s : Option String) : String :=
  String.ofList ('"' :: (s.getD "").toList.flatMap escapeChar ++ ['"'])

mutual

def write : Json → String
  | .null => "null"
  | .bool b => if b then "true" else "false"
  | .number w => w
  | .text s => writeText s
  | .list items => "[" ++ ",".intercalate (writeItems items) ++ "]"
  | .object fields => "\x7b" ++ ",".intercalate (writeFields fields) ++ "\x7d"

def writeItems : List Json → List String
  | [] => []
  | item :: items => write item :: writeItems items

def writeFields : List (Option String × Json) → List String
  | [] => []
  | (name, value) :: fields => (writeText name ++ ":" ++ write value) :: writeFields fields

end

def indent (level : Nat) : String := String.ofList ('\n' :: List.replicate (2 * level) ' ')

/-- Lines between brackets, each indented by one level more than the brackets. -/
def block (opening closing : String) (level : Nat) (lines : List String) : String :=
  if lines.isEmpty then opening ++ closing
  else
    opening ++ indent (level + 1) ++ ("," ++ indent (level + 1)).intercalate lines ++
      indent level ++ closing

mutual

def layOut (level : Nat) : Json → String
  | .list items => block "[" "]" level (layOutItems (level + 1) items)
  | .object fields => block "\x7b" "\x7d" level (layOutFields (level + 1) fields)
  | .null => "null"
  | .bool b => if b then "true" else "false"
  | .number w => w
  | .text s => writeText s

def layOutItems (level : Nat) : List Json → List String
  | [] => []
  | item :: items => layOut level item :: layOutItems level items

def layOutFields (level : Nat) : List (Option String × Json) → List String
  | [] => []
  | (name, value) :: fields =>
    (writeText name ++ ": " ++ layOut level value) :: layOutFields level fields

end

def pretty (j : Json) : String := layOut 0 j

end PackageTriage.Json
