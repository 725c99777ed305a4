import PackageTriage.Network.Layer

/-!
# Packed parameters

All weights and biases of a network as one list: the weights of every layer row by row, then the
biases of every layer. Gradients are packed alike, so a place in the list means the same parameter in
both.
-/

namespace PackageTriage.Network

variable {α : Type}

def pack (layers : List (Layer α)) : List α :=
  layers.flatMap (·.weights.entries) ++ layers.flatMap (·.bias)

/-- Put values in the place of old ones, as long as there are any; the values left over follow. -/
def refill : (old values : List α) → List α × List α
  | _ :: old, v :: vs =>
    let (new, rest) := refill old vs
    (v :: new, rest)
  | old, vs => (old, vs)

theorem length_refill (old vs : List α) : (refill old vs).1.length = old.length := by
  fun_induction refill old vs with
  | case1 _ old v vs new rest h ih => simpa [h] using ih
  | case2 => rfl

def refillRows : (rows : List (List α)) → (values : List α) → List (List α) × List α
  | [], vs => ([], vs)
  | r :: rs, vs =>
    let (r, vs) := refill r vs
    let (rs, vs) := refillRows rs vs
    (r :: rs, vs)

/-- Refilling rows keeps their widths: every row takes exactly as many values as it had. -/
theorem length_of_mem_refillRows {width : Nat} {rows : List (List α)} {vs : List α}
    (h : ∀ r ∈ rows, r.length = width) : ∀ r ∈ (refillRows rows vs).1, r.length = width := by
  induction rows generalizing vs with
  | nil => simp [refillRows]
  | cons s rows ih =>
    intro r hr
    simp only [refillRows, List.mem_cons] at hr
    rcases hr with rfl | hr
    · rw [length_refill, h s (by simp)]
    · exact ih (fun t ht => h t (by simp [ht])) r hr

def refillMatrix (x : Matrix α) (vs : List α) : Matrix α × List α :=
  (⟨x.width, (refillRows x.rows vs).1, length_of_mem_refillRows x.rows_width⟩,
    (refillRows x.rows vs).2)

def refillWeights : List (Layer α) → (values : List α) → List (Layer α) × List α
  | [], vs => ([], vs)
  | l :: ls, vs =>
    let (weights, vs) := refillMatrix l.weights vs
    let (ls, vs) := refillWeights ls vs
    ({ l with weights } :: ls, vs)

def refillBiases : List (Layer α) → (values : List α) → List (Layer α)
  | [], _ => []
  | l :: ls, vs =>
    let (bias, vs) := refill l.bias vs
    { l with bias } :: refillBiases ls vs

/-- Layers of the same shapes with the parameters of a list. -/
def unpack (layers : List (Layer α)) (values : List α) : List (Layer α) :=
  let (layers, biases) := refillWeights layers values
  refillBiases layers biases

end PackageTriage.Network
