import PackageTriage.Decimal.Reading
import PackageTriage.Error
import PackageTriage.Text.Blank

/-!
# Feature values

A feature is a truth value or any other text. Only the exact words `true` and `false` are truth
values; a text is kept as it stands and read as a number where one is needed.
-/

namespace PackageTriage

inductive FeatureValue where
  | flag (b : Bool)
  | text (s : String)
  deriving DecidableEq, Repr

namespace FeatureValue

def parse (raw : String) : FeatureValue :=
  if raw = "true" then .flag true else if raw = "false" then .flag false else .text raw

def render : FeatureValue → String
  | .flag b => if b then "true" else "false"
  | .text s => s

/-- The number a value stands for: one and zero for the truth values, otherwise what the text
without the blanks around it is written for. -/
def number? : FeatureValue → Option Float
  | .flag b => some (if b then 1.0 else 0.0)
  | .text s => Decimal.readFloat? (Text.trim s)

/-- The numbers of a sample from column `column` on. -/
def numbersFrom (sample : String) : (column : Nat) → List FeatureValue → Except Error (List Float)
  | _, [] => .ok []
  | column, v :: vs =>
    match v.number? with
    | none => .error (.notNumeric sample column v.render)
    | some x => (numbersFrom sample (column + 1) vs).map (x :: ·)

def numbers (sample : String) (vs : List FeatureValue) : Except Error (List Float) :=
  numbersFrom sample 0 vs

end FeatureValue

end PackageTriage
