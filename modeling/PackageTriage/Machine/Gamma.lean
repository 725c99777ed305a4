import PackageTriage.Decimal.Reading
import PackageTriage.Json.Value
import PackageTriage.Matrix
import PackageTriage.Statistics
import PackageTriage.Text.Blank
import PackageTriage.Text.Quoted

/-!
# Kernel coefficients

The coefficient of the radial kernel is a number, or the name of a rule that computes it from the
training matrix. Any other name is kept and refused where the coefficient is needed.
-/

namespace PackageTriage

inductive Gamma (α : Type) where
  | value (v : α)
  | named (name : String)
  deriving Repr

namespace Gamma

/-- A text that is written for a number is that number, any other is a name. -/
def parse (raw : String) : Gamma Float :=
  match Decimal.readFloat? (Text.trim raw) with
  | some v => .value v
  | none => .named (Text.trim raw)

/-- In JSON a coefficient is a number, or a text that is parsed. -/
def ofJson? [Json.NumberReader] : Json → Option (Gamma Float)
  | .text s => s.map parse
  | j => j.float?.map .value

def toJson : Gamma Float → Json
  | .value v => .ofFloat v
  | .named name => .ofString name

variable {α : Type} [Scalar α]

instance : Inhabited (Gamma α) := ⟨named "scale"⟩

def text : Gamma α → String
  | .value v => Scalar.text v
  | .named name => name

def shown : Gamma α → String
  | .value v => "Value(" ++ Scalar.shown v ++ ")"
  | .named name => "Named(" ++ Text.quoted name ++ ")"

/-- Whether two coefficients are given in the same way; a number is the same as its equals. -/
def same : Gamma α → Gamma α → Bool
  | .value v, .value w => Scalar.same v w
  | .named a, .named b => a = b
  | _, _ => false

/-- The coefficient for a training matrix. The rule `auto` gives the inverse of the number of
features, the rule `scale` divides that by the variance of all entries, if there is any. -/
def resolve (g : Gamma α) (x : Matrix α) : Except Error α :=
  let n : α := (max x.width 1 : Nat)
  match g with
  | .value v =>
    if Scalar.less 0 v && Scalar.isFinite v then .ok v
    else .error (.parameter "gamma" g.text "must be a positive number")
  | .named "scale" =>
    let var := Statistics.variance x.entries
    .ok (if Scalar.less 0 var then 1 / (n * var) else 1)
  | .named "auto" => .ok (1 / n)
  | .named _ => .error (.parameter "gamma" g.text "expected a number, `scale` or `auto`")

end Gamma

end PackageTriage
