import PackageTriage.Network.Perceptron

/-!
# Training keeps the layers

The drawn network has a layer between any two sizes that follow each other, and neither kind of
training adds or drops one: a gradient has as many layers as the network it is taken in.
-/

namespace PackageTriage

variable {α σ : Type}

/-- What every epoch keeps, training keeps. -/
theorem runEpochs_invariant [Scalar α] {P : σ → Prop} {epoch : σ → σ × α}
    (hepoch : ∀ s, P s → P (epoch s).1)
    (tolerance : α) (patience limit done : Nat) (p : Progress α) (s : σ) (loss : α) (h : P s) :
    P (runEpochs epoch tolerance patience limit done p s loss).1 := by
  induction limit generalizing done p s loss with
  | zero => exact h
  | succ limit ih =>
    rw [runEpochs]
    dsimp only
    split
    · exact hepoch s h
    · exact ih _ _ _ _ (hepoch s h)

namespace Network

theorem length_refillWeights (layers : List (Layer α)) (values : List α) :
    (refillWeights layers values).1.length = layers.length := by
  induction layers generalizing values with
  | nil => rfl
  | cons l layers ih => simp [refillWeights, ih]

theorem length_refillBiases (layers : List (Layer α)) (values : List α) :
    (refillBiases layers values).length = layers.length := by
  induction layers generalizing values with
  | nil => rfl
  | cons l layers ih => simp [refillBiases, ih]

@[simp] theorem length_unpack (layers : List (Layer α)) (values : List α) :
    (unpack layers values).length = layers.length := by
  rw [unpack, length_refillBiases, length_refillWeights]

variable [Scalar α]

theorem length_gradient_pass (act : Activation) (decay : α) (targets : Matrix α)
    (layers : List (Layer α)) (x : Matrix α) :
    (pass act decay targets layers x).gradient.length = layers.length := by
  induction layers generalizing x with
  | nil => rfl
  | cons l layers ih =>
    cases layers with
    | nil => rfl
    | cons m layers =>
      rw [pass]
      · simp [ih]
      · simp

@[simp] theorem length_lossAndGradient (act : Activation) (alpha : α) (layers : List (Layer α))
    (x targets : Matrix α) :
    (lossAndGradient act alpha layers x targets).2.length = layers.length :=
  length_gradient_pass act _ targets layers x

end Network

variable [Scalar α]

namespace Stochastic

theorem length_visit (t : Training α) (x targets : Matrix α) (acc : EpochState α σ × α)
    (places : List Nat) : (visit t x targets acc places).1.layers.length = acc.1.layers.length := by
  simp [visit]

theorem length_visits (t : Training α) (x targets : Matrix α) (batches : List (List Nat))
    (acc : EpochState α σ × α) :
    (batches.foldl (visit t x targets) acc).1.layers.length = acc.1.layers.length := by
  induction batches generalizing acc with
  | nil => rfl
  | cons places batches ih => rw [List.foldl_cons, ih, length_visit]

variable [Generator σ]

theorem length_epoch (t : Training α) (x targets : Matrix α) (s : EpochState α σ) :
    (epoch t x targets s).1.layers.length = s.layers.length :=
  length_visits t x targets _ _

/-- Stochastic training leaves the number of layers as it was drawn. -/
theorem length_train (t : Training α) (x targets : Matrix α) (layers : List (Layer α)) (g : σ) :
    (train t x targets layers g).1.length = layers.length := by
  have h := runEpochs_invariant (P := fun s : EpochState α σ => s.layers.length = layers.length)
    (fun s hs => (length_epoch t x targets s).trans hs) t.tolerance t.patience t.limit 0 Progress.start
    ⟨layers.map Moving.start, 0, List.range x.height, g⟩ Scalar.infinity (by simp)
  simpa [train] using h

end Stochastic

namespace Perceptron

theorem length_drawLayers [Generator σ] (act : Activation) (sizes : List Nat) (g : σ) :
    (drawLayers act sizes g : List (Layer α) × σ).1.length = sizes.length - 1 := by
  induction sizes generalizing g with
  | nil => rfl
  | cons inputs sizes ih =>
    cases sizes with
    | nil => rfl
    | cons units sizes => simp [drawLayers, ih]

/-- Both kinds of training keep the number of layers. -/
theorem length_train (t : Training α) (x targets : Matrix α) (layers : List (Layer α)) (g : Xoshiro) :
    (train t x targets layers g).1.length = layers.length := by
  cases hsolver : t.solver with
  | lbfgs => simp [train, hsolver, QuasiNewton.train]
  | sgd => simpa [train, hsolver] using Stochastic.length_train t x targets layers g
  | adam => simpa [train, hsolver] using Stochastic.length_train t x targets layers g

end Perceptron

end PackageTriage
