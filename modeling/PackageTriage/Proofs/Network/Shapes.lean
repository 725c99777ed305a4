import PackageTriage.Proofs.Classifier.Fitting
import PackageTriage.Proofs.Network.Depth

/-!
# Training keeps the shapes

The drawn network has a layer for any two sizes that follow each other, with an input for every unit of the
layer before. Where layers join like this, a gradient has the shapes of the layers, so neither kind of
training changes a shape, and a row that enters a trained network meets a weight at every input.
-/

namespace PackageTriage

variable {α σ : Type}

structure LayerShape where
  inputs : Nat
  units : Nat
  biases : Nat
  deriving DecidableEq

def Layer.shape (l : Layer α) : LayerShape := ⟨l.weights.height, l.weights.width, l.bias.length⟩

namespace Network

/-- Each layer has an input for every unit of the one before, and a bias for each of its own. -/
def Joins (inputs : Nat) : List (Layer α) → (units : Nat) → Prop
  | [], units => inputs = units
  | l :: ls, units => l.shape = ⟨inputs, l.weights.width, l.weights.width⟩ ∧ Joins l.weights.width ls units

instance (inputs : Nat) (layers : List (Layer α)) (units : Nat) : Decidable (Joins inputs layers units) :=
  match layers with
  | [] => inferInstanceAs (Decidable (inputs = units))
  | l :: ls =>
    have := instDecidableJoins l.weights.width ls units
    inferInstanceAs (Decidable (_ ∧ _))

/-- Only the shapes decide whether layers join. -/
theorem joins_of_shapes_eq {layers layers' : List (Layer α)} {inputs units : Nat}
    (hshapes : layers.map Layer.shape = layers'.map Layer.shape) (h : Joins inputs layers units) :
    Joins inputs layers' units := by
  induction layers generalizing inputs layers' with
  | nil =>
    obtain rfl := List.map_eq_nil_iff.1 hshapes.symm
    exact h
  | cons l layers ih =>
    obtain ⟨l', layers', rfl, hl, hls⟩ := List.map_eq_cons_iff.1 hshapes.symm
    have hwidth : l'.weights.width = l.weights.width := congrArg LayerShape.units hl
    exact ⟨hwidth ▸ hl.trans h.1, hwidth ▸ ih hls.symm h.2⟩

theorem Joins.length_bias {layers : List (Layer α)} {inputs units k : Nat} {l : Layer α} (h : Joins inputs layers units)
    (hk : layers[k]? = some l) : l.bias.length = l.weights.width := by
  induction layers generalizing inputs k with
  | nil => simp at hk
  | cons l' layers ih =>
    cases k with
    | zero =>
      obtain rfl := Option.some.inj hk
      exact congrArg LayerShape.biases h.1
    | succ k => exact ih h.2 hk

def shapes : List Nat → List LayerShape
  | inputs :: units :: sizes => ⟨inputs, units, units⟩ :: shapes (units :: sizes)
  | _ => []

theorem joins_of_shapes {layers : List (Layer α)} {inputs units : Nat} {hidden : List Nat}
    (h : layers.map Layer.shape = shapes (inputs :: hidden ++ [units])) : Joins inputs layers units := by
  induction hidden generalizing layers inputs with
  | nil =>
    obtain ⟨l, ls, rfl, hl, hls⟩ := List.map_eq_cons_iff.1 h
    obtain rfl := List.map_eq_nil_iff.1 hls
    have hwidth : l.weights.width = units := congrArg LayerShape.units hl
    exact ⟨hwidth ▸ hl, hwidth⟩
  | cons size hidden ih =>
    obtain ⟨l, ls, rfl, hl, hls⟩ := List.map_eq_cons_iff.1 h
    have hwidth : l.weights.width = size := congrArg LayerShape.units hl
    subst hwidth
    exact ⟨hl, ih hls⟩

end Network

namespace Layer

theorem height_eq {l : Layer α} {inputs : Nat} (h : l.shape = ⟨inputs, l.weights.width, l.weights.width⟩) :
    l.weights.height = inputs :=
  congrArg LayerShape.inputs h

@[simp] theorem shape_map (f : α → α) (l : Layer α) : (l.map f).shape = l.shape := by
  simp [shape, map, Matrix.map, Matrix.height]

theorem shape_zip (f : α → α → α) {a b : Layer α} (h : b.shape = a.shape) : (a.zip f b).shape = a.shape := by
  obtain ⟨hinputs, hunits, hbiases⟩ := LayerShape.mk.inj h
  have hrows : b.weights.rows.length = a.weights.rows.length := hinputs
  simp [shape, zip, Matrix.zip, Matrix.height, hrows, hunits, hbiases]

@[simp] theorem height_inputs [Scalar α] (l : Layer α) (x : Matrix α) : (l.inputs x).height = x.height := by
  simp [inputs, Matrix.mapRows, Matrix.mul, Matrix.combinations, Matrix.height]

theorem height_hidden [Scalar α] (act : Activation) (l : Layer α) (x : Matrix α) :
    (l.hidden act x).height = x.height :=
  (List.length_map ..).trans (l.height_inputs x)

end Layer

namespace Network

theorem length_refillRows (rows : List (List α)) (values : List α) :
    (refillRows rows values).1.length = rows.length := by
  induction rows generalizing values with
  | nil => rfl
  | cons r rows ih => simp [refillRows, ih]

theorem shapes_refillWeights (layers : List (Layer α)) (values : List α) :
    (refillWeights layers values).1.map Layer.shape = layers.map Layer.shape := by
  induction layers generalizing values with
  | nil => rfl
  | cons l layers ih =>
    simp [refillWeights, refillMatrix, Layer.shape, Matrix.height, length_refillRows, ih]

theorem shapes_refillBiases (layers : List (Layer α)) (values : List α) :
    (refillBiases layers values).map Layer.shape = layers.map Layer.shape := by
  induction layers generalizing values with
  | nil => rfl
  | cons l layers ih => simp [refillBiases, Layer.shape, length_refill, ih]

@[simp] theorem shapes_unpack (layers : List (Layer α)) (values : List α) :
    (unpack layers values).map Layer.shape = layers.map Layer.shape := by
  rw [unpack, shapes_refillBiases, shapes_refillWeights]

theorem map_length_rows (x : Matrix α) : x.rows.map List.length = List.replicate x.height x.width :=
  List.map_eq_replicate_iff.2 x.rows_width

theorem length_entries (x : Matrix α) : x.entries.length = x.height * x.width := by
  rw [Matrix.entries, List.length_flatten, map_length_rows, List.sum_replicate_nat]

/-- Only the shapes decide how many parameters there are. -/
theorem length_pack_eq {layers layers' : List (Layer α)}
    (hshapes : layers.map Layer.shape = layers'.map Layer.shape) : (pack layers).length = (pack layers').length := by
  induction layers generalizing layers' with
  | nil =>
    obtain rfl := List.map_eq_nil_iff.1 hshapes.symm
    rfl
  | cons l layers ih =>
    obtain ⟨l', layers', rfl, hl, hls⟩ := List.map_eq_cons_iff.1 hshapes.symm
    obtain ⟨hinputs, hunits, hbiases⟩ := LayerShape.mk.inj hl
    have hrest := ih hls.symm
    simp only [pack, List.flatMap_cons, List.length_append, length_entries, hinputs, hunits, hbiases] at hrest ⊢
    omega

variable [Scalar α]

theorem length_columnSums (x : Matrix α) : x.columnSums.length = x.width := by
  have hkeep : ∀ (rows : List (List α)) (start : List α), (∀ r ∈ rows, r.length = x.width) →
      start.length = x.width → (rows.foldl (List.zipWith (· + ·)) start).length = x.width := by
    intro rows
    induction rows with
    | nil => exact fun start _ hstart => hstart
    | cons r rows ih =>
      intro start hrows hstart
      refine ih _ (fun s hs => hrows s (List.mem_cons_of_mem r hs)) ?_
      rw [List.length_zipWith, hstart, hrows r List.mem_cons_self, Nat.min_self]
  exact hkeep x.rows _ x.rows_width List.length_replicate

/-- With an input for every column of `x` and a unit for every column of `delta`, the gradient of a layer has
the layer's shape. -/
theorem shape_layerGradient {decay : α} {l : Layer α} {x delta : Matrix α}
    (hl : l.shape = ⟨x.width, l.weights.width, l.weights.width⟩) (hdelta : delta.width = l.weights.width) :
    (layerGradient decay l x delta).shape = l.shape := by
  have hheight : l.weights.rows.length = x.width := Layer.height_eq hl
  rw [hl]
  simp [layerGradient, Layer.shape, Matrix.zip, Matrix.transposeMul, Matrix.combinations, Matrix.map,
    Matrix.height, Matrix.columns, length_columnSums, hheight, hdelta]

/-- Where layers join, the gradient has their shapes, and the slope at the inputs is as wide as these. -/
theorem shapes_pass {act : Activation} {decay : α} {targets : Matrix α} {layers : List (Layer α)}
    {x : Matrix α} (hne : layers ≠ []) (h : Joins x.width layers targets.width) :
    (pass act decay targets layers x).gradient.map Layer.shape = layers.map Layer.shape ∧
      (pass act decay targets layers x).inputSlope.width = x.width := by
  induction layers generalizing x with
  | nil => exact absurd rfl hne
  | cons l layers ih =>
    obtain ⟨hl, hjoin⟩ := h
    cases layers with
    | nil =>
      have hunits : l.weights.width = targets.width := hjoin
      refine ⟨?_, Layer.height_eq hl⟩
      simp only [pass, List.map_cons, List.map_nil, List.cons.injEq, and_true]
      refine shape_layerGradient hl ?_
      simp [Layer.output, Layer.inputs, Matrix.mapRows, Matrix.mul, Matrix.combinations, Matrix.zip,
        Matrix.map, hunits]
    | cons m layers =>
      obtain ⟨hgradient, hslope⟩ := ih (x := l.hidden act x) (by simp) hjoin
      refine ⟨?_, Layer.height_eq hl⟩
      rw [pass, List.map_cons, List.map_cons, hgradient]
      · refine congrArg (· :: _) (shape_layerGradient hl ?_)
        show min (pass act decay targets (m :: layers) (l.hidden act x)).inputSlope.width _ = _
        rw [hslope]
        exact Nat.min_self _
      · simp

/-- The gradient has the shapes of the layers. -/
theorem shapes_lossAndGradient {act : Activation} {alpha : α} {layers : List (Layer α)}
    {x targets : Matrix α} (hne : layers ≠ []) (h : Joins x.width layers targets.width) :
    (lossAndGradient act alpha layers x targets).2.map Layer.shape = layers.map Layer.shape :=
  (shapes_pass hne h).1

end Network

namespace Moving

/-- A layer in motion and both of its running means have one shape. -/
structure HasShape (s : LayerShape) (m : Moving α) : Prop where
  layer : m.layer.shape = s
  first : m.first.shape = s
  second : m.second.shape = s

theorem map_shape {shapes : List LayerShape} {ms : List (Moving α)} (h : List.Forall₂ HasShape shapes ms) :
    (ms.map (·.layer)).map Layer.shape = shapes := by
  induction h with
  | nil => rfl
  | cons hm _ ih => rw [List.map_cons, List.map_cons, ih, hm.layer]

variable [Scalar α]

theorem hasShape_start (l : Layer α) : (start l).HasShape l.shape :=
  ⟨rfl, Layer.shape_map _ l, Layer.shape_map _ l⟩

theorem HasShape.advance {s : LayerShape} {m : Moving α} (h : m.HasShape s) (t : Training α) (step : Nat)
    {gradient : Layer α} (hgradient : gradient.shape = s) : (m.advance t step gradient).HasShape s := by
  have zipped : ∀ (f : α → α → α) {a b : Layer α}, a.shape = s → b.shape = s → (a.zip f b).shape = s :=
    fun f _ _ ha hb => (Layer.shape_zip f (hb.trans ha.symm)).trans ha
  rw [Moving.advance]
  split
  · have hvelocity := zipped (fun v g => v * t.momentum - g * t.rate) h.first hgradient
    exact ⟨zipped _ h.layer hvelocity, hvelocity, h.second⟩
  · have hfirst := zipped (fun m g => m * t.beta1 + g * (1 - t.beta1)) h.first hgradient
    have hsecond := zipped (fun v g => v * t.beta2 + g * g * (1 - t.beta2)) h.second hgradient
    exact ⟨zipped _ h.layer (zipped _ hfirst hsecond), hfirst, hsecond⟩

theorem hasShape_starts (layers : List (Layer α)) :
    List.Forall₂ HasShape (layers.map Layer.shape) (layers.map start) := by
  induction layers with
  | nil => exact .nil
  | cons l layers ih => exact .cons (hasShape_start l) ih

theorem hasShape_advances {shapes : List LayerShape} {ms : List (Moving α)}
    (h : List.Forall₂ HasShape shapes ms) (t : Training α) (step : Nat) {gradient : List (Layer α)}
    (hgradient : gradient.map Layer.shape = shapes) :
    List.Forall₂ HasShape shapes (List.zipWith (advance t step) ms gradient) := by
  induction h generalizing gradient with
  | nil => simp
  | cons hm _ ih =>
    obtain ⟨g, gs, rfl, hg, hgs⟩ := List.map_eq_cons_iff.1 hgradient
    exact .cons (hm.advance t step hg) (ih hgs)

end Moving

variable [Scalar α] (t : Training α) {x targets : Matrix α} {layers : List (Layer α)}

namespace Stochastic

/-- A batch selects rows, which are as wide as those of the whole matrix, so its gradient has the shapes of
the layers. -/
theorem hasShape_visit (hne : layers ≠ []) (hjoin : Network.Joins x.width layers targets.width)
    (acc : EpochState α σ × α) (places : List Nat)
    (h : List.Forall₂ Moving.HasShape (layers.map Layer.shape) acc.1.layers) :
    List.Forall₂ Moving.HasShape (layers.map Layer.shape) (visit t x targets acc places).1.layers := by
  -- What is at hand are the layers as moved so far. They join because the first ones do.
  have hshapes := Moving.map_shape h
  have hbatch : Network.Joins (x.select places).width (acc.1.layers.map (·.layer))
      (targets.select places).width := Network.joins_of_shapes_eq hshapes.symm hjoin
  have hne' : acc.1.layers.map (·.layer) ≠ [] := by
    rintro hnil
    rw [hnil] at hshapes
    exact hne (List.map_eq_nil_iff.1 hshapes.symm)
  exact Moving.hasShape_advances h t _
    ((Network.shapes_lossAndGradient hne' hbatch).trans hshapes)

theorem hasShape_visits (hne : layers ≠ []) (hjoin : Network.Joins x.width layers targets.width)
    (batches : List (List Nat)) (acc : EpochState α σ × α)
    (h : List.Forall₂ Moving.HasShape (layers.map Layer.shape) acc.1.layers) :
    List.Forall₂ Moving.HasShape (layers.map Layer.shape)
      (batches.foldl (visit t x targets) acc).1.layers := by
  induction batches generalizing acc with
  | nil => exact h
  | cons places batches ih => exact ih _ (hasShape_visit t hne hjoin acc places h)

theorem hasShape_epoch [Generator σ] (hne : layers ≠ [])
    (hjoin : Network.Joins x.width layers targets.width) (s : EpochState α σ)
    (h : List.Forall₂ Moving.HasShape (layers.map Layer.shape) s.layers) :
    List.Forall₂ Moving.HasShape (layers.map Layer.shape) (epoch t x targets s).1.layers :=
  hasShape_visits t hne hjoin _ _ h

/-- Training leaves every layer in the shape it was drawn in. -/
theorem shapes_train [Generator σ] (hne : layers ≠ [])
    (hjoin : Network.Joins x.width layers targets.width) (g : σ) :
    (train t x targets layers g).1.map Layer.shape = layers.map Layer.shape := by
  have hkept := runEpochs_invariant
    (P := fun s : EpochState α σ => List.Forall₂ Moving.HasShape (layers.map Layer.shape) s.layers)
    (hasShape_epoch t hne hjoin) t.tolerance t.patience t.limit 0 Progress.start
    ⟨layers.map Moving.start, 0, List.range x.height, g⟩ Scalar.infinity (Moving.hasShape_starts layers)
  exact Moving.map_shape hkept

end Stochastic

namespace Perceptron

theorem length_drawRows [Generator σ] (bound : α) (width height : Nat) (g : σ) :
    (drawRows bound width height g).1.length = height := by
  induction height generalizing g with
  | zero => rfl
  | succ height ih => simp [drawRows, ih]

/-- A layer is drawn for any two sizes that follow each other. -/
theorem shapes_drawLayers [Generator σ] (act : Activation) (sizes : List Nat) (g : σ) :
    ((drawLayers act sizes g : List (Layer α) × σ).1).map Layer.shape = Network.shapes sizes := by
  induction sizes generalizing g with
  | nil => rfl
  | cons inputs sizes ih =>
    cases sizes with
    | nil => rfl
    | cons units sizes =>
      simp [drawLayers, Network.shapes, ih, drawLayer, Layer.shape, Matrix.height, length_drawRow,
        length_drawRows]

/-- Both kinds of training keep the shapes. -/
theorem shapes_train (hne : layers ≠ []) (hjoin : Network.Joins x.width layers targets.width)
    (g : Xoshiro) : (train t x targets layers g).1.map Layer.shape = layers.map Layer.shape := by
  cases hsolver : t.solver with
  | lbfgs => simp [train, hsolver, QuasiNewton.train]
  | sgd => simpa [train, hsolver] using Stochastic.shapes_train t hne hjoin g
  | adam => simpa [train, hsolver] using Stochastic.shapes_train t hne hjoin g

/-- The layers drawn for a training have the shapes that its settings and its samples ask for. -/
theorem shapes_drawn (p : Perceptron α) (x : Matrix α) (y : List α) :
    (p.drawn x y).1.map Layer.shape =
      Network.shapes (x.width :: p.training.hidden ++ [(Classes.distinct y).length]) :=
  shapes_drawLayers _ _ _

/-- So they join, whatever is trained and however. -/
theorem joins_drawn (p : Perceptron α) (x : Matrix α) (y : List α) :
    Network.Joins x.width (p.drawn x y).1 (Network.targets (Classes.distinct y) y).width :=
  Network.joins_of_shapes (p.shapes_drawn x y)

/-- Training keeps the shapes. -/
theorem shapes_trained (p : Perceptron α) (x : Matrix α) (y : List α) :
    (p.trained x y).1.map Layer.shape =
      Network.shapes (x.width :: p.training.hidden ++ [(Classes.distinct y).length]) := by
  have hne : (p.drawn x y).1 ≠ [] := by
    rw [← List.length_pos_iff, drawn, length_drawLayers]
    simp
  exact (shapes_train p.training hne (p.joins_drawn x y) _).trans (p.shapes_drawn x y)

end Perceptron

end PackageTriage
