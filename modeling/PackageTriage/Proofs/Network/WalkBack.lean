import PackageTriage.Proofs.Network.Shapes

/-!
# The walk back through a network

The matrix that is carried back to the units of a layer decides the gradient of the layer, together with what enters
it. A walk from the last layer to the first finds each of these matrices from the one before, and the gradients last
layer first; put in the order of the layers they are the gradient of the pass.
-/

namespace PackageTriage.Network

variable {α : Type} [Scalar α]

/-- How the loss depends on what the units before the given layers receive. -/
def delta (act : Activation) (decay : α) (targets : Matrix α) : List (Layer α) → Matrix α → Matrix α
  | [], z => ((z.mapRows softmax length_softmax).zip (· - ·) targets).map (· / (z.height : α))
  | l :: ls, z =>
    (pass act decay targets (l :: ls) (z.map act.apply)).inputSlope.zip (· * ·) ((z.map act.apply).map act.slope)

variable (act : Activation) (decay : α) (targets : Matrix α)

theorem gradient_cons (l : Layer α) (ls : List (Layer α)) (x : Matrix α) :
    (pass act decay targets (l :: ls) x).gradient =
      layerGradient decay l x (delta act decay targets ls (l.inputs x)) ::
        (pass act decay targets ls (l.hidden act x)).gradient := by
  cases ls with
  | nil =>
    rw [delta, Layer.height_inputs]
    rfl
  | cons m ls => rfl

theorem inputSlope_cons (l : Layer α) (ls : List (Layer α)) (x : Matrix α) :
    (pass act decay targets (l :: ls) x).inputSlope =
      (delta act decay targets ls (l.inputs x)).mulTranspose l.weights := by
  cases ls with
  | nil =>
    rw [delta, Layer.height_inputs]
    rfl
  | cons m ls => rfl

def entering : List (Layer α) → Matrix α → List (Matrix α)
  | [], _ => []
  | l :: ls, x => x :: entering ls (l.hidden act x)

def lastDelta (layers : List (Layer α)) (x : Matrix α) : Matrix α :=
  ((probabilities act layers x).zip (· - ·) targets).map (· / (x.height : α))

/-- Carry this back through a layer, to the units whose outputs enter it. -/
def carry (delta : Matrix α) (step : Layer α × Matrix α) : Matrix α :=
  (delta.mulTranspose step.1.weights).zip (· * ·) (step.2.map act.slope)

/-- The gradients of layers with what enters them, in the order in which the walk comes to the layers. -/
def walkBack : (latestFirst : List (Layer α × Matrix α)) → (delta : Matrix α) → List (Layer α)
  | [], _ => []
  | step :: before, delta => layerGradient decay step.1 step.2 delta :: walkBack before (carry act delta step)

/-- Walking back one more layer computes its gradient last. -/
theorem walkBack_concat (steps : List (Layer α × Matrix α)) (step : Layer α × Matrix α) (delta : Matrix α) :
    walkBack act decay (steps ++ [step]) delta =
      walkBack act decay steps delta ++ [layerGradient decay step.1 step.2 (steps.foldl (carry act) delta)] := by
  induction steps generalizing delta with
  | nil => rfl
  | cons s steps ih => rw [List.cons_append, walkBack, ih, walkBack, List.foldl_cons, List.cons_append]

theorem lastDelta_cons (l m : Layer α) (ls : List (Layer α)) (x : Matrix α) :
    lastDelta act targets (l :: m :: ls) x = lastDelta act targets (m :: ls) (l.hidden act x) := by
  rw [lastDelta, lastDelta, Layer.height_hidden]
  rfl

/-- The walk over the layers behind a layer carries back to its units what the pass does. -/
theorem foldl_carry (l : Layer α) (ls : List (Layer α)) (x : Matrix α) :
    (ls.zip (entering act ls (l.hidden act x))).reverse.foldl (carry act) (lastDelta act targets (l :: ls) x) =
      delta act decay targets ls (l.inputs x) := by
  induction ls generalizing l x with
  | nil =>
    rw [delta, Layer.height_inputs]
    rfl
  | cons m ls ih =>
    rw [entering, List.zip_cons_cons, List.reverse_cons, List.foldl_append, lastDelta_cons, ih, delta, inputSlope_cons]
    rfl

/-- The gradient of a pass is what the walk finds, put in the order of the layers. -/
theorem gradient_pass (layers : List (Layer α)) (x : Matrix α) :
    (pass act decay targets layers x).gradient =
      (walkBack act decay (layers.zip (entering act layers x)).reverse (lastDelta act targets layers x)).reverse := by
  induction layers generalizing x with
  | nil => rfl
  | cons l ls ih =>
    rw [gradient_cons, entering, List.zip_cons_cons, List.reverse_cons, walkBack_concat, List.reverse_concat,
      foldl_carry act decay, ih]
    -- The walk begins with what the last layer gives, which is the same with and without the first one.
    cases ls with
    | nil => rfl
    | cons m ls => rw [lastDelta_cons]

end PackageTriage.Network
