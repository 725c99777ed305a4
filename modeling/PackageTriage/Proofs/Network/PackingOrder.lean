import Mathlib.Data.List.Nodup
import PackageTriage.Proofs.Network.Packing
import PackageTriage.Proofs.Network.WalkBack

/-!
# The order of packing

The weights come first, layer after layer and row by row, then the biases, layer after layer. So only the shapes of
the layers decide which parameter stands where in a packed list, and every parameter stands there once. Where layers
join, a gradient has their shapes, and is packed in the same order.
-/

namespace PackageTriage.Network

variable {α : Type}

/-- A parameter of a network: a weight in a row and a column of a layer, or the bias of one of its units. -/
inductive Parameter where
  | weight (layer row column : Nat)
  | bias (layer unit : Nat)
  deriving DecidableEq, Repr

namespace Parameter

def layer : Parameter → Nat
  | weight k _ _ => k
  | bias k _ => k

def read (layers : List (Layer α)) : Parameter → Option α
  | weight k r c => layers[k]?.bind fun l => l.weights.rows[r]?.bind (·[c]?)
  | bias k u => layers[k]?.bind (·.bias[u]?)

end Parameter

def weightsOf (s : LayerShape) (k : Nat) : List Parameter :=
  (List.range s.inputs).flatMap fun r => (List.range s.units).map (.weight k r)

def biasesOf (s : LayerShape) (k : Nat) : List Parameter := (List.range s.biases).map (.bias k)

/-- Some parameters of every layer, layer after layer. -/
def layerwise (own : LayerShape → Nat → List Parameter) (shapes : List LayerShape) : List Parameter :=
  shapes.zipIdx.flatMap fun x => own x.1 x.2

/-- All parameters of layers with these shapes, as they follow each other in the packed list. -/
def packingOrder (shapes : List LayerShape) : List Parameter :=
  layerwise weightsOf shapes ++ layerwise biasesOf shapes

theorem weight_mem_weightsOf {s : LayerShape} {k k' r c : Nat} :
    .weight k r c ∈ weightsOf s k' ↔ r < s.inputs ∧ c < s.units ∧ k' = k := by
  simp [weightsOf]

theorem bias_mem_biasesOf {s : LayerShape} {k k' u : Nat} : .bias k u ∈ biasesOf s k' ↔ u < s.biases ∧ k' = k := by
  simp [biasesOf]

theorem bias_notMem_weightsOf {s : LayerShape} {k k' u : Nat} : .bias k u ∉ weightsOf s k' := by
  simp [weightsOf]

theorem weight_notMem_biasesOf {s : LayerShape} {k k' r c : Nat} : .weight k r c ∉ biasesOf s k' := by
  simp [biasesOf]

section

variable {own : LayerShape → Nat → List Parameter}

/-- Listing layer after layer lists exactly what each layer owns. -/
theorem mem_layerwise {shapes : List LayerShape} {p : Parameter} :
    p ∈ layerwise own shapes ↔ ∃ s k, shapes[k]? = some s ∧ p ∈ own s k := by
  simp [layerwise, List.mem_zipIdx_iff_getElem?]

/-- Nothing comes twice if each layer has its own parameters, and none of them twice. -/
theorem nodup_layerwise (hown : ∀ s k, (own s k).Nodup) (hlayer : ∀ s k, ∀ p ∈ own s k, p.layer = k)
    (shapes : List LayerShape) : (layerwise own shapes).Nodup := by
  have hlayers : (shapes.zipIdx.map Prod.snd).Nodup := by
    rw [List.zipIdx_map_snd]
    exact List.nodup_range' 1
  refine List.nodup_flatMap.2 ⟨fun x _ => hown x.1 x.2, (List.pairwise_map.1 hlayers).imp ?_⟩
  intro x y hne p hx hy
  exact hne ((hlayer _ _ p hx).symm.trans (hlayer _ _ p hy))

end

/-- Every parameter of the layers is packed, and no others. -/
theorem mem_packingOrder {layers : List (Layer α)} {p : Parameter} :
    p ∈ packingOrder (layers.map Layer.shape) ↔ (p.read layers).isSome := by
  rw [packingOrder, List.mem_append, mem_layerwise, mem_layerwise]
  cases p with
  | weight k r c =>
    simp only [weight_mem_weightsOf, weight_notMem_biasesOf, and_false, exists_false, or_false]
    rw [Parameter.read]
    cases hk : layers[k]? with
    | none => simp [hk]
    | some l =>
      by_cases hr : r < l.weights.rows.length
      · have hwidth : l.weights.rows[r].length = l.weights.width := l.weights.rows_width _ (List.getElem_mem hr)
        simp [hk, Layer.shape, Matrix.height, hr, hwidth]
      · simp [hk, Layer.shape, Matrix.height, hr]
  | bias k u =>
    simp only [bias_mem_biasesOf, bias_notMem_weightsOf, and_false, exists_false, false_or]
    rw [Parameter.read]
    cases hk : layers[k]? with
    | none => simp [hk]
    | some l => simp [hk, Layer.shape]

theorem nodup_weightsOf (s : LayerShape) (k : Nat) : (weightsOf s k).Nodup := by
  refine List.nodup_flatMap.2 ⟨fun r _ => List.nodup_range.map ?_, List.nodup_range.imp ?_⟩
  · intro c c' h
    cases h
    rfl
  · intro r r' hne p hp hp'
    obtain ⟨c, -, rfl⟩ := List.mem_map.1 hp
    obtain ⟨c', -, h⟩ := List.mem_map.1 hp'
    cases h
    exact hne rfl

theorem nodup_biasesOf (s : LayerShape) (k : Nat) : (biasesOf s k).Nodup := by
  refine List.nodup_range.map fun u u' h => ?_
  cases h
  rfl

/-- No parameter is packed twice. -/
theorem nodup_packingOrder (shapes : List LayerShape) : (packingOrder shapes).Nodup := by
  have hweights : (layerwise weightsOf shapes).Nodup := by
    refine nodup_layerwise nodup_weightsOf (fun s k p hp => ?_) shapes
    cases p with
    | weight k' r c => exact (weight_mem_weightsOf.1 hp).2.2.symm
    | bias k' u => exact absurd hp bias_notMem_weightsOf
  have hbiases : (layerwise biasesOf shapes).Nodup := by
    refine nodup_layerwise nodup_biasesOf (fun s k p hp => ?_) shapes
    cases p with
    | weight k' r c => exact absurd hp weight_notMem_biasesOf
    | bias k' u => exact (bias_mem_biasesOf.1 hp).2.symm
  refine hweights.append hbiases fun p hweight hbias => ?_
  obtain ⟨s, k, -, hweight⟩ := mem_layerwise.1 hweight
  obtain ⟨s', k', -, hbias⟩ := mem_layerwise.1 hbias
  cases p with
  | weight k r c => exact weight_notMem_biasesOf hbias
  | bias k u => exact bias_notMem_weightsOf hweight

/-- In every position of an order, a list has the value of layers for the parameter that is there. -/
structure InOrder (order : List Parameter) (layers : List (Layer α)) (values : List α) : Prop where
  length_eq : values.length = order.length
  value : ∀ (i : Nat) (p : Parameter), order[i]? = some p → values[i]? = p.read layers

theorem map_some_eq_range {β : Type} (xs : List β) : xs.map some = (List.range xs.length).map (xs[·]?) :=
  List.ext_getElem (by simp) fun i h h' => by simp

/-- Entry after entry is row after row. -/
theorem map_some_entries (x : Matrix α) :
    x.entries.map some =
      (List.range x.height).flatMap fun r => (List.range x.width).map fun c => x.rows[r]?.bind (·[c]?) := by
  obtain ⟨width, rows, hrows⟩ := x
  show rows.flatten.map some =
    (List.range rows.length).flatMap fun r => (List.range width).map fun c => rows[r]?.bind (·[c]?)
  induction rows with
  | nil => rfl
  | cons row rows ih =>
    obtain ⟨hrow, hrows⟩ := List.forall_mem_cons.1 hrows
    rw [List.flatten_cons, List.map_append, ih hrows, map_some_eq_range, hrow, List.length_cons,
      List.range_succ_eq_map, List.flatMap_cons, List.flatMap_map]
    rfl

/-- A list of values of each layer, layer after layer, is in the order of parameters that each list is in. -/
theorem map_some_layerwise {own : LayerShape → Nat → List Parameter} {values : Layer α → List α}
    {layers : List (Layer α)}
    (hown : ∀ k l, layers[k]? = some l → (values l).map some = (own l.shape k).map (·.read layers)) :
    (layers.flatMap values).map some = (layerwise own (layers.map Layer.shape)).map (·.read layers) := by
  have hzip : layers.flatMap values = layers.zipIdx.flatMap fun x => values x.1 := by
    conv_lhs => rw [← List.zipIdx_map_fst 0 layers, List.flatMap_map]
  rw [hzip, layerwise, List.zipIdx_map, List.flatMap_map, List.map_flatMap, List.map_flatMap]
  exact List.flatMap_congr fun x hx => hown x.2 x.1 (List.mem_zipIdx_iff_getElem?.1 hx)

/-- Packing reads every parameter at its place in the order. -/
theorem map_some_pack (layers : List (Layer α)) :
    (pack layers).map some = (packingOrder (layers.map Layer.shape)).map (·.read layers) := by
  rw [pack, List.map_append, packingOrder, List.map_append]
  refine congrArg₂ (· ++ ·) (map_some_layerwise fun k l hk => ?_) (map_some_layerwise fun k l hk => ?_)
  · rw [map_some_entries, weightsOf, List.map_flatMap]
    simp only [List.map_map]
    simp [Function.comp_def, Parameter.read, hk, Layer.shape]
  · rw [map_some_eq_range, biasesOf, List.map_map]
    simp [Function.comp_def, Parameter.read, hk, Layer.shape]

/-- Layers of some shapes are packed in the order of these shapes. -/
theorem inOrder_pack {layers : List (Layer α)} {shapes : List LayerShape} (hshapes : layers.map Layer.shape = shapes) :
    InOrder (packingOrder shapes) layers (pack layers) := by
  have hvalues := map_some_pack layers
  rw [hshapes] at hvalues
  constructor
  · have hlength := congrArg List.length hvalues
    rwa [List.length_map, List.length_map] at hlength
  · intro i p hp
    have hvalue := congrArg (·[i]?) hvalues
    simp only [List.getElem?_map, hp, Option.map_some] at hvalue
    obtain ⟨v, hv, hread⟩ := Option.map_eq_some_iff.1 hvalue
    rw [hv, hread]

/-- Every parameter of the layers is in one position of the packed list, and their shapes alone say in which. Values
are unpacked into the parameters of their positions and packed again unchanged, and packed parameters are unpacked
into the layers they are from. Where layers join, their gradients, found from the last layer to the first, are packed
in the same order: the slope by a parameter is in the position of the parameter. -/
theorem packed_alike [Scalar α] (layers : List (Layer α)) :
    let order := packingOrder (layers.map Layer.shape)
    order.Nodup ∧ (∀ p : Parameter, p ∈ order ↔ (p.read layers).isSome) ∧ InOrder order layers (pack layers) ∧
    (∀ values : List α, values.length = (pack layers).length →
      pack (unpack layers values) = values ∧ InOrder order (unpack layers values) values) ∧
    unpack layers (pack layers) = layers ∧
    ∀ (act : Activation) (alpha : α) (x targets : Matrix α), Joins x.width layers targets.width →
      let gradient := (lossAndGradient act alpha layers x targets).2
      gradient = (walkBack act (alpha / (x.height : α)) (layers.zip (entering act layers x)).reverse
        (lastDelta act targets layers x)).reverse ∧
      (pack gradient).length = (pack layers).length ∧ InOrder order gradient (pack gradient) := by
  intro order
  refine ⟨nodup_packingOrder _, fun p => mem_packingOrder, inOrder_pack rfl, fun values hlength => ?_, unpack_pack rfl,
    fun act alpha x targets hjoin => ?_⟩
  · have hpacked := pack_unpack hlength
    have horder := inOrder_pack (shapes_unpack layers values)
    rw [hpacked] at horder
    exact ⟨hpacked, horder⟩
  · intro gradient
    have hshapes : gradient.map Layer.shape = layers.map Layer.shape := by
      -- Shapes are only handed back from layer to layer where there is a last layer to begin with.
      cases layers with
      | nil => rfl
      | cons l ls => exact shapes_lossAndGradient (List.cons_ne_nil l ls) hjoin
    exact ⟨gradient_pass act _ targets layers x, length_pack_eq hshapes, inOrder_pack hshapes⟩

/-- Two layers with one input, two hidden units and two classes. -/
theorem packed_alike_two :
    let layers : List (Layer Float) :=
      [⟨⟨2, [[1, 2]], by decide⟩, [3, 4]⟩, ⟨⟨2, [[5, 6], [7, 8]], by decide⟩, [9, 10]⟩]
    let values : List Float := [0, 1, 2, 3, 4, 5, 6, 7, 8, 9]
    let gradient := (lossAndGradient .relu 0 layers (Matrix.ofRow [1]) (Matrix.ofRow [1, 0])).2
    packingOrder (layers.map Layer.shape) = [.weight 0 0 0, .weight 0 0 1, .weight 1 0 0, .weight 1 0 1, .weight 1 1 0,
      .weight 1 1 1, .bias 0 0, .bias 0 1, .bias 1 0, .bias 1 1] ∧
    values.length = (pack layers).length ∧ pack (unpack layers values) = values ∧
    (Parameter.bias 0 1).read (unpack layers values) = some 7 ∧
    Joins 1 layers 2 ∧ (pack gradient).length = 10 ∧
    (pack gradient)[4]? = (Parameter.weight 1 1 0).read gradient := by
  intro layers values gradient
  have horder : packingOrder (layers.map Layer.shape) = [.weight 0 0 0, .weight 0 0 1, .weight 1 0 0, .weight 1 0 1,
    .weight 1 1 0, .weight 1 1 1, .bias 0 0, .bias 0 1, .bias 1 0, .bias 1 1] := rfl
  have hten : (pack layers).length = 10 := rfl
  have hjoin : Joins 1 layers 2 := ⟨rfl, rfl, rfl⟩
  obtain ⟨-, -, -, hunpack, -, hgradient⟩ := packed_alike layers
  obtain ⟨hpack, hvalues⟩ := hunpack values hten.symm
  obtain ⟨-, hlength, hslopes⟩ := hgradient .relu 0 (Matrix.ofRow [1]) (Matrix.ofRow [1, 0]) hjoin
  rw [horder] at hvalues hslopes
  exact ⟨horder, hten.symm, hpack, (hvalues.value 7 _ rfl).symm, hjoin, hlength.trans hten, hslopes.value 4 _ rfl⟩

end PackageTriage.Network
