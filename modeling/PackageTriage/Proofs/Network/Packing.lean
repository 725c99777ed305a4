import PackageTriage.Proofs.Network.Shapes

/-!
# Packed parameters and layers

Packing the parameters of layers and unpacking them into layers of the same shapes undo each other. Layers of
the same shapes that are packed alike are the same, so it makes no difference which parameters are overwritten.
-/

namespace PackageTriage.Network

variable {α : Type}

theorem refill_append {old values : List α} (h : old.length ≤ values.length) :
    (refill old values).1 ++ (refill old values).2 = values := by
  induction old generalizing values with
  | nil => rfl
  | cons o old ih =>
    cases values with
    | nil => simp at h
    | cons v values =>
      rw [refill, List.cons_append, ih (Nat.le_of_succ_le_succ h)]

theorem map_length_refillRows (rows : List (List α)) (values : List α) :
    (refillRows rows values).1.map List.length = rows.map List.length := by
  induction rows generalizing values with
  | nil => rfl
  | cons row rows ih => rw [refillRows, List.map_cons, ih, length_refill, List.map_cons]

theorem refillRows_append {rows : List (List α)} {values : List α} (h : rows.flatten.length ≤ values.length) :
    (refillRows rows values).1.flatten ++ (refillRows rows values).2 = values := by
  induction rows generalizing values with
  | nil => rfl
  | cons row rows ih =>
    rw [List.flatten_cons, List.length_append] at h
    have hrow : (refill row values).1 ++ (refill row values).2 = values := refill_append (by omega)
    have hrest : rows.flatten.length ≤ (refill row values).2.length := by
      have hlength := congrArg List.length hrow
      rw [List.length_append, length_refill] at hlength
      omega
    rw [refillRows, List.flatten_cons, List.append_assoc, ih hrest, hrow]

theorem length_entries_refillMatrix (x : Matrix α) (values : List α) :
    (refillMatrix x values).1.entries.length = x.entries.length := by
  rw [Matrix.entries, Matrix.entries, List.length_flatten, List.length_flatten, refillMatrix,
    map_length_refillRows]

theorem refillWeights_append {layers : List (Layer α)} {values : List α}
    (h : (layers.flatMap (·.weights.entries)).length ≤ values.length) :
    (refillWeights layers values).1.flatMap (·.weights.entries) ++ (refillWeights layers values).2 = values := by
  induction layers generalizing values with
  | nil => rfl
  | cons l layers ih =>
    rw [List.flatMap_cons, List.length_append] at h
    have hmatrix : (refillMatrix l.weights values).1.entries ++ (refillMatrix l.weights values).2 = values :=
      refillRows_append (by rw [← Matrix.entries]; omega)
    have hrest : (layers.flatMap (·.weights.entries)).length ≤ (refillMatrix l.weights values).2.length := by
      have hlength := congrArg List.length hmatrix
      rw [List.length_append, length_entries_refillMatrix] at hlength
      omega
    rw [refillWeights, List.flatMap_cons, List.append_assoc, ih hrest, hmatrix]

theorem map_bias_refillWeights (layers : List (Layer α)) (values : List α) :
    (refillWeights layers values).1.map (·.bias) = layers.map (·.bias) := by
  induction layers generalizing values with
  | nil => rfl
  | cons l layers ih => rw [refillWeights, List.map_cons, ih, List.map_cons]

theorem map_weights_refillBiases (layers : List (Layer α)) (values : List α) :
    (refillBiases layers values).map (·.weights) = layers.map (·.weights) := by
  induction layers generalizing values with
  | nil => rfl
  | cons l layers ih => rw [refillBiases, List.map_cons, ih, List.map_cons]

theorem flatMap_bias_refillBiases {layers : List (Layer α)} {values : List α}
    (h : values.length = (layers.flatMap (·.bias)).length) :
    (refillBiases layers values).flatMap (·.bias) = values := by
  induction layers generalizing values with
  | nil => exact (List.length_eq_zero_iff.1 h).symm
  | cons l layers ih =>
    rw [List.flatMap_cons, List.length_append] at h
    have hbias : (refill l.bias values).1 ++ (refill l.bias values).2 = values := refill_append (by omega)
    have hrest : (refill l.bias values).2.length = (layers.flatMap (·.bias)).length := by
      have hlength := congrArg List.length hbias
      rw [List.length_append, length_refill] at hlength
      omega
    rw [refillBiases, List.flatMap_cons, ih hrest, hbias]

/-- Matrices of one shape with the same entries are the same. -/
theorem matrix_ext {x y : Matrix α} (hheight : x.height = y.height) (hwidth : x.width = y.width)
    (hentries : x.entries = y.entries) : x = y := by
  have hlengths : x.rows.map List.length = y.rows.map List.length := by
    rw [map_length_rows, map_length_rows, hheight, hwidth]
  have hrows : x.rows = y.rows := List.eq_iff_flatten_eq.2 ⟨hentries, hlengths⟩
  cases x
  cases y
  cases hwidth
  cases hrows
  rfl

section

variable {layers layers' : List (Layer α)} (hshapes : layers.map Layer.shape = layers'.map Layer.shape)

include hshapes

theorem map_length_entries_eq :
    (layers.map (·.weights.entries)).map List.length = (layers'.map (·.weights.entries)).map List.length := by
  have hlengths (ls : List (Layer α)) : (ls.map (·.weights.entries)).map List.length =
      (ls.map Layer.shape).map fun s => s.inputs * s.units := by
    rw [List.map_map, List.map_map]
    exact List.map_congr_left fun l _ => length_entries l.weights
  rw [hlengths, hlengths, hshapes]

theorem map_length_bias_eq : (layers.map (·.bias)).map List.length = (layers'.map (·.bias)).map List.length := by
  have hlengths (ls : List (Layer α)) : (ls.map (·.bias)).map List.length = (ls.map Layer.shape).map (·.biases) := by
    rw [List.map_map, List.map_map]
    rfl
  rw [hlengths, hlengths, hshapes]

theorem length_flatMap_entries_eq :
    (layers.flatMap (·.weights.entries)).length = (layers'.flatMap (·.weights.entries)).length := by
  rw [List.flatMap_def, List.flatMap_def, List.length_flatten, List.length_flatten, map_length_entries_eq hshapes]

/-- Layers of the same shapes are told apart by their packed parameters. -/
theorem pack_injective (h : pack layers = pack layers') : layers = layers' := by
  obtain ⟨hentries, hbias⟩ := List.append_inj h (length_flatMap_entries_eq hshapes)
  rw [List.flatMap_def, List.flatMap_def] at hentries hbias
  have hentries := List.eq_iff_flatten_eq.2 ⟨hentries, map_length_entries_eq hshapes⟩
  have hbias := List.eq_iff_flatten_eq.2 ⟨hbias, map_length_bias_eq hshapes⟩
  have hparts : Function.Injective fun l : Layer α => (l.shape, l.weights.entries, l.bias) := by
    intro l l' heq
    obtain ⟨hshape, hrest⟩ := Prod.mk.inj heq
    obtain ⟨hentries, hbias⟩ := Prod.mk.inj hrest
    obtain ⟨hinputs, hunits, -⟩ := LayerShape.mk.inj hshape
    cases l
    cases l'
    exact congrArg₂ Layer.mk (matrix_ext hinputs hunits hentries) hbias
  refine List.map_injective_iff.2 hparts ?_
  rw [← List.zip_map', ← List.zip_map', ← List.zip_map', ← List.zip_map', hshapes, hentries, hbias]

end

/-- Unpacked parameters are packed again. -/
theorem pack_unpack {layers : List (Layer α)} {values : List α} (h : values.length = (pack layers).length) :
    pack (unpack layers values) = values := by
  rw [pack, List.length_append] at h
  have hweights : (refillWeights layers values).1.flatMap (·.weights.entries) ++ (refillWeights layers values).2 =
      values := refillWeights_append (by omega)
  have hbiases :
      (refillWeights layers values).2.length = ((refillWeights layers values).1.flatMap (·.bias)).length := by
    have hlength := congrArg List.length hweights
    have hentries := length_flatMap_entries_eq (shapes_refillWeights layers values)
    rw [List.flatMap_def, map_bias_refillWeights, ← List.flatMap_def]
    rw [List.length_append] at hlength
    omega
  have hkept : (unpack layers values).flatMap (·.weights.entries) =
      (refillWeights layers values).1.flatMap (·.weights.entries) := by
    have hmap := congrArg (List.map Matrix.entries)
      (map_weights_refillBiases (refillWeights layers values).1 (refillWeights layers values).2)
    rw [List.map_map, List.map_map] at hmap
    exact congrArg List.flatten hmap
  rw [pack, hkept]
  conv_lhs =>
    enter [2]
    rw [unpack, flatMap_bias_refillBiases hbiases]
  exact hweights

/-- Packed parameters are unpacked into any layers of their shapes. -/
theorem unpack_pack {layers layers' : List (Layer α)} (hshapes : layers.map Layer.shape = layers'.map Layer.shape) :
    unpack layers (pack layers') = layers' :=
  pack_injective ((shapes_unpack layers _).trans hshapes) (pack_unpack (length_pack_eq hshapes).symm)

/-- It makes no difference which parameters are overwritten. -/
theorem unpack_eq_unpack {layers layers' : List (Layer α)} (hshapes : layers.map Layer.shape = layers'.map Layer.shape)
    {values : List α} (h : values.length = (pack layers).length) : unpack layers' values = unpack layers values := by
  have hunpacked := unpack_pack (hshapes.symm.trans (shapes_unpack layers values).symm)
  rwa [pack_unpack h] at hunpacked

end PackageTriage.Network
