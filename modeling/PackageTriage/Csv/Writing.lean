/-!
# Writing comma-separated records

A field is written as it stands unless it holds a comma, a quote or the end of a line, or is the
empty field of a record that has no other. Then it stands between quotes and its own quotes are
doubled. Every record ends with a line feed.
-/

namespace PackageTriage.Csv

/-- A quote inside a quoted field is written twice. -/
def double (c : Char) : List Char := if c = '"' then ['"', '"'] else [c]

def needsQuotes (c : Char) : Bool := c = ',' || c = '"' || c = '\n' || c = '\r'

/-- A field; `alone` if its record has no other. -/
def writeField (alone : Bool) (s : String) : String :=
  if s.toList.any needsQuotes || (alone && s.isEmpty) then
    String.ofList ('"' :: s.toList.flatMap double ++ ['"'])
  else s

def writeRecord (fields : List String) : String :=
  ",".intercalate (fields.map (writeField (fields.length = 1))) ++ "\n"

def write (records : List (List String)) : String := String.join (records.map writeRecord)

end PackageTriage.Csv
