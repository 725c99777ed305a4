import PackageTriage.Attempt
import PackageTriage.Network.QuasiNewton
import PackageTriage.Random.Xoshiro

/-!
# Multi-layer perceptrons
-/

namespace PackageTriage

structure Perceptron (α : Type) where
  training : Training α
  weights : List (Matrix α)
  biases : List (List α)
  width : Nat
  classes : List α
  /-- The number of epochs or quasi-Newton steps that were run. -/
  iterations : Nat
  /-- The loss after the last of them. -/
  loss : α

namespace Perceptron

variable {α : Type} [Scalar α]

def unfitted (training : Training α) : Perceptron α := ⟨training, [], [], 0, [], 0, Scalar.infinity⟩

instance : Inhabited (Perceptron α) := ⟨unfitted default⟩

def layers (p : Perceptron α) : List (Layer α) := List.zipWith Layer.mk p.weights p.biases

/-- A scalar between `-bound` and `bound`, from the upper 52 bits of a word. -/
def drawBetween {σ : Type} [Generator σ] (bound : α) : (trials : Nat) → σ → α × σ
  | 0, g => (-bound, g)
  | trials + 1, g =>
    let (w, g) := Generator.word64 g
    let unit : α := ((w >>> 12).toNat : α) / ((Nat.pow 2 52 : Nat) : α)
    let v := unit * (bound - -bound) + -bound
    if Scalar.less v bound then (v, g) else drawBetween bound trials g

def drawRow {σ : Type} [Generator σ] (bound : α) : (count : Nat) → σ → List α × σ
  | 0, g => ([], g)
  | count + 1, g =>
    let (v, g) := drawBetween bound Generator.trials g
    let (vs, g) := drawRow bound count g
    (v :: vs, g)

theorem length_drawRow {σ : Type} [Generator σ] (bound : α) (count : Nat) (g : σ) :
    (drawRow bound count g).1.length = count := by
  induction count generalizing g with
  | zero => rfl
  | succ n ih => simp [drawRow, ih]

def drawRows {σ : Type} [Generator σ] (bound : α) (width : Nat) :
    (height : Nat) → σ → List (List α) × σ
  | 0, g => ([], g)
  | height + 1, g =>
    let (r, g) := drawRow bound width g
    let (rs, g) := drawRows bound width height g
    (r :: rs, g)

/-- Every drawn row has the asked width, whatever the generator does. -/
theorem length_of_mem_drawRows {σ : Type} [Generator σ] (bound : α) (width height : Nat) (g : σ) :
    ∀ r ∈ (drawRows bound width height g).1, r.length = width := by
  induction height generalizing g with
  | zero => simp [drawRows]
  | succ n ih =>
    intro r hr
    simp only [drawRows, List.mem_cons] at hr
    rcases hr with rfl | hr
    · exact length_drawRow bound width g
    · exact ih _ r hr

/-- The bound of a layer's first parameters, smaller the more inputs and units it has. -/
def bound (act : Activation) (inputs units : Nat) : α :=
  let factor : α := if act = .logistic then ((2 : Nat) : α) else ((6 : Nat) : α)
  Scalar.sqrt (factor / ((inputs + units : Nat) : α))

/-- A layer with drawn parameters: the weights row by row, then the biases. -/
def drawLayer {σ : Type} [Generator σ] (act : Activation) (inputs units : Nat) (g : σ) :
    Layer α × σ :=
  let b : α := bound act inputs units
  let rows := drawRows b units inputs g
  let bias := drawRow b units rows.2
  (⟨⟨units, rows.1, length_of_mem_drawRows b units inputs g⟩, bias.1⟩, bias.2)

/-- Layers of the given sizes, the first of which is the number of inputs. -/
def drawLayers {σ : Type} [Generator σ] (act : Activation) : List Nat → σ → List (Layer α) × σ
  | inputs :: units :: sizes, g =>
    let (l, g) := drawLayer act inputs units g
    let (ls, g) := drawLayers act (units :: sizes) g
    (l :: ls, g)
  | _, g => ([], g)

def sizesText (sizes : List Nat) : String := "[" ++ ", ".intercalate (sizes.map toString) ++ "]"

def check (t : Training α) : Except Error Unit :=
  if t.hidden.isEmpty || t.hidden.contains 0 then
    .error (.parameter "hidden_layer_sizes" (sizesText t.hidden)
      "every hidden layer needs at least one unit")
  else if !Scalar.less 0 t.rate then
    .error (.parameter "learning_rate" (Scalar.text t.rate) "must be positive")
  else if t.limit = 0 then .error (.parameter "max_iter" "0" "must be positive")
  else .ok ()

def train (t : Training α) (x targets : Matrix α) (layers : List (Layer α)) (g : Xoshiro) :
    List (Layer α) × Nat × α :=
  match t.solver with
  | .lbfgs => QuasiNewton.train t x targets layers
  | _ => Stochastic.train t x targets layers g

/-- Fit the perceptron to the rows of a matrix and their labels. Nothing is set before everything was
checked. -/
def refit (p : Perceptron α) (x : Matrix α) (y : List α) : Attempt (Perceptron α) :=
  let t := p.training
  match check t with
  | .error e => .failed p e
  | .ok () =>
    if x.rows.isEmpty then .failed p (.data (.noRows "an MLP"))
    else if x.height ≠ y.length then .failed p (.shape (.labels x.height y.length))
    else
      let classes := Classes.distinct y
      let (layers, g) := drawLayers t.activation (x.width :: t.hidden ++ [classes.length])
        (Xoshiro.ofSeed t.seed)
      let (layers, iterations, loss) := train t x (Network.targets classes y) layers g
      .fitted ⟨t, layers.map (·.weights), layers.map (·.bias), x.width, classes, iterations, loss⟩

def fit (p : Perceptron α) (x : Matrix α) (y : List α) : Except Error (Perceptron α) :=
  (p.refit x y).result

def probabilities (p : Perceptron α) (x : Matrix α) : Except Error (Matrix α) :=
  if p.weights.isEmpty then .error .notFitted
  else if x.width ≠ p.width then .error (.shape (.features p.width x.width))
  else .ok (Network.probabilities p.training.activation p.layers x)

/-- The likeliest class of every row, the lowest code on ties. -/
def predict (p : Perceptron α) (x : Matrix α) : Except Error (List α) := do
  return (← p.probabilities x).rows.map (Classes.best p.classes)

end Perceptron

end PackageTriage
