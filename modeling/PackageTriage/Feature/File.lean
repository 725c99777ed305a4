import PackageTriage.Csv.Reading
import PackageTriage.Feature.Value
import PackageTriage.Text.Lines

/-!
# Feature files

A feature file has one row per feature: its name, a comma and its value. The names are not kept, so
the place of a row is what tells which feature it is, and a row may be neither blank nor of another
number of fields: the first such row is the fault that is reported, blank rows before others.
-/

namespace PackageTriage.FeatureFile

/-- The number of the first blank line. -/
def blankLine? (text : List Char) : Option Nat :=
  ((Text.splitLines text).findIdx? Text.isBlankLine).map (· + 1)

def value (path : String) (r : Csv.Record) : Except Error FeatureValue :=
  match r.fields with
  | [_, v] => .ok (.parse (String.ofList v))
  | fields => .error (.malformedRow path r.line fields.length)

def parse (path : String) (text : List Char) : Except Error (List FeatureValue) :=
  match blankLine? text with
  | some line => .error (.malformedRow path line 0)
  | none => (Csv.read text).mapM (value path)

end PackageTriage.FeatureFile
