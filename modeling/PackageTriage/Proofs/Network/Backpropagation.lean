import PackageTriage.Proofs.Network.Chain
import PackageTriage.Proofs.Network.Descent

/-!
# Backpropagation

A layer that moves takes the loss along by its weights and biases, each times its entry in the gradient. Only what is
behind the layer moves with it, so the gradient of a layer needs no more than what is carried back to its units, and
the decay of its own weights. Moving one weight or one bias alone shows that its entry is the partial derivative.
-/

namespace PackageTriage

open Finset

/-- A layer that moves comes by `l`, keeps its shape, and each of its weights and biases has a slope there. -/
structure Layer.Moves (m : ℝ → Layer ℝ) (l : Layer ℝ) (weight : ℕ → ℕ → ℝ) (bias : ℕ → ℝ) (t : ℝ) : Prop where
  at_eq : m t = l
  shape_eq : ∀ s, (m s).shape = l.shape
  weight : ∀ i < l.weights.height, ∀ j < l.weights.width, HasDerivAt (fun s => (m s).weights.entry i j) (weight i j) t
  bias : ∀ j < l.weights.width, HasDerivAt (fun s => (m s).bias.getD j 0) (bias j) t

namespace Layer

theorem squares_eq (l : Layer ℝ) :
    l.squares =
      ∑ i ∈ range l.weights.height, ∑ j ∈ range l.weights.width, l.weights.entry i j * l.weights.entry i j := by
  have hentries : l.weights.entries.map (fun w => w * w) = (l.weights.map fun w => w * w).entries := List.map_flatten ..
  rw [squares, Statistics.laneSum_eq, hentries, Matrix.sum_entries, Matrix.height_map, Matrix.width_map]
  exact Finset.sum_congr rfl fun i hi => Finset.sum_congr rfl fun j hj =>
    Matrix.entry_map _ (mem_range.1 hi) (mem_range.1 hj)

namespace Moves

variable {m : ℝ → Layer ℝ} {l : Layer ℝ} {weight : ℕ → ℕ → ℝ} {bias : ℕ → ℝ} {t : ℝ}

/-- What its units receive for fixed inputs moves with the layer. -/
theorem inputs (hm : Moves m l weight bias t) {x : Matrix ℝ}
    (hl : l.shape = ⟨x.width, l.weights.width, l.weights.width⟩) :
    Matrix.Moves (fun s => (m s).inputs x) x.height l.weights.width
      (fun i j => ∑ k ∈ range x.width, x.entry i k * weight k j + bias j) t := by
  have hshape (s : ℝ) : (m s).weights.height = x.width ∧ (m s).weights.width = l.weights.width ∧
      (m s).bias.length = l.weights.width := LayerShape.mk.inj ((hm.shape_eq s).trans hl)
  refine ⟨fun s => (m s).height_inputs x, fun s => (hshape s).2.1, fun i hi j hj => ?_⟩
  have hentry (s : ℝ) : ((m s).inputs x).entry i j =
      ∑ k ∈ range x.width, x.entry i k * (m s).weights.entry k j + (m s).bias.getD j 0 :=
    Layer.entry_inputs (hshape s).1.symm ((hshape s).2.2.trans (hshape s).2.1.symm) hi ((hshape s).2.1.symm ▸ hj)
  simp only [hentry]
  refine (HasDerivAt.fun_sum fun k hk => (hm.weight k ?_ j hj).const_mul (x.entry i k)).add (hm.bias j hj)
  rw [Layer.height_eq hl]
  exact mem_range.1 hk

/-- The squares of its weights move by twice the weights. -/
theorem squares (hm : Moves m l weight bias t) :
    HasDerivAt (fun s => (m s).squares)
      (∑ i ∈ range l.weights.height, ∑ j ∈ range l.weights.width, 2 * l.weights.entry i j * weight i j) t := by
  have hshape (s : ℝ) : (m s).weights.height = l.weights.height ∧ (m s).weights.width = l.weights.width ∧ _ :=
    LayerShape.mk.inj (hm.shape_eq s)
  have hsquares (s : ℝ) : (m s).squares = ∑ i ∈ range l.weights.height, ∑ j ∈ range l.weights.width,
      (m s).weights.entry i j * (m s).weights.entry i j := by
    rw [squares_eq, (hshape s).1, (hshape s).2.1]
  simp only [hsquares]
  refine HasDerivAt.fun_sum fun i hi => HasDerivAt.fun_sum fun j hj => ?_
  have hentry := hm.weight i (mem_range.1 hi) j (mem_range.1 hj)
  refine (hentry.mul hentry).congr_deriv ?_
  rw [hm.at_eq]
  ring

end Moves

end Layer

namespace Network

variable {act : Activation} {decay : ℝ} {targets : Matrix ℝ} {t : ℝ} {layers : List (Layer ℝ)} {x : Matrix ℝ}

/-- What is carried back to the units of a layer is handed on to their weights and their biases. -/
theorem sum_carried (d x a : ℕ → ℕ → ℝ) (b : ℕ → ℝ) (height width inputs : ℕ) :
    ∑ i ∈ range height, ∑ j ∈ range width, d i j * (∑ k ∈ range inputs, x i k * a k j + b j) =
      ∑ k ∈ range inputs, ∑ j ∈ range width, (∑ i ∈ range height, x i k * d i j) * a k j +
        ∑ j ∈ range width, (∑ i ∈ range height, d i j) * b j := by
  have hweights : ∑ i ∈ range height, ∑ j ∈ range width, d i j * ∑ k ∈ range inputs, x i k * a k j =
      ∑ k ∈ range inputs, ∑ j ∈ range width, (∑ i ∈ range height, x i k * d i j) * a k j := by
    calc ∑ i ∈ range height, ∑ j ∈ range width, d i j * ∑ k ∈ range inputs, x i k * a k j
        = ∑ i ∈ range height, ∑ k ∈ range inputs, ∑ j ∈ range width, x i k * d i j * a k j := by
          refine Finset.sum_congr rfl fun i _ => ?_
          simp only [Finset.mul_sum]
          rw [Finset.sum_comm]
          exact Finset.sum_congr rfl fun k _ => Finset.sum_congr rfl fun j _ => by ring
      _ = ∑ k ∈ range inputs, ∑ j ∈ range width, ∑ i ∈ range height, x i k * d i j * a k j := by
          rw [Finset.sum_comm]
          exact Finset.sum_congr rfl fun k _ => Finset.sum_comm
      _ = ∑ k ∈ range inputs, ∑ j ∈ range width, (∑ i ∈ range height, x i k * d i j) * a k j := by
          simp only [Finset.sum_mul]
  have hbiases : ∑ i ∈ range height, ∑ j ∈ range width, d i j * b j =
      ∑ j ∈ range width, (∑ i ∈ range height, d i j) * b j := by
    rw [Finset.sum_comm]
    simp only [Finset.sum_mul]
  simp only [mul_add, Finset.sum_add_distrib, hweights, hbiases]

/-- The gradient of a layer entry by entry, the decay included. -/
theorem entry_layerGradient {l : Layer ℝ} {d : Matrix ℝ} (hl : l.shape = ⟨x.width, l.weights.width, l.weights.width⟩)
    (hheight : d.height = x.height) (hwidth : d.width = l.weights.width) {i j : ℕ} (hi : i < l.weights.height)
    (hj : j < l.weights.width) : (layerGradient decay l x d).weights.entry i j =
      ∑ k ∈ range x.height, x.entry k i * d.entry k j + l.weights.entry i j * decay := by
  have hx : i < x.width := Layer.height_eq hl ▸ hi
  have hrows : i < (x.transposeMul d).height := by
    rw [Matrix.height, Matrix.transposeMul, Matrix.combinations, List.length_map, Matrix.columns, List.length_map,
      List.length_range]
    exact hx
  have hcolumns : j < (x.transposeMul d).width := hwidth.symm ▸ hj
  have hdecay : j < (l.weights.map (· * decay)).width := hj
  rw [layerGradient, Matrix.entry_zip _ hrows (by simpa using hi) hcolumns hdecay,
    Matrix.entry_transposeMul hheight.symm hx hcolumns, Matrix.entry_map _ hi hj]

section

variable {m : ℝ → Layer ℝ} {l g : Layer ℝ} {weight : ℕ → ℕ → ℝ} {bias : ℕ → ℝ} (hm : Layer.Moves m l weight bias t)
  {k : ℕ} (hk : layers[k]? = some l)

include hm hk

/-- Moving one parameter moves the sum of squares by twice the weight. -/
theorem hasDerivAt_squares : HasDerivAt (fun s => Scalar.sum ((layers.set k (m s)).map Layer.squares))
    (∑ i ∈ range l.weights.height, ∑ j ∈ range l.weights.width, 2 * l.weights.entry i j * weight i j) t := by
  simp only [Scalar.sum_real]
  induction layers generalizing k with
  | nil => simp at hk
  | cons l' layers ih =>
    cases k with
    | zero =>
      obtain rfl := Option.some.inj hk
      simp only [List.set_cons_zero, List.map_cons, List.sum_cons]
      exact hm.squares.add_const _
    | succ k =>
      simp only [List.set_cons_succ, List.map_cons, List.sum_cons]
      exact (ih hk).const_add _

/-- The cross-entropy moves with a layer by its gradient, less the decay. -/
theorem hasDerivAt_crossEntropy_set
    (htargets : ∀ i < targets.height, ∑ j ∈ range targets.width, targets.entry i j = 1)
    (hheight : x.height = targets.height) (hjoin : Joins x.width layers targets.width)
    (hleast : ∀ p ∈ (probabilities act layers x).entries, leastProbability < p)
    (hslope : act = .relu → ∀ h ∈ received act layers x, ∀ v ∈ h.entries, v ≠ 0)
    (hg : (pass act decay targets layers x).gradient[k]? = some g) :
    HasDerivAt (fun s => crossEntropy targets (probabilities act (layers.set k (m s)) x) targets.height)
      (∑ i ∈ range l.weights.height, ∑ j ∈ range l.weights.width,
          (g.weights.entry i j - l.weights.entry i j * decay) * weight i j +
        ∑ j ∈ range l.weights.width, g.bias.getD j 0 * bias j) t := by
  -- The layers before the one that moves only hand it its inputs, so the induction goes along them.
  induction layers generalizing k x with
  | nil => simp at hk
  | cons l' layers ih =>
    obtain ⟨hl, hjoin⟩ := hjoin
    rw [gradient_cons] at hg
    cases k with
    | zero =>
      obtain rfl := Option.some.inj hk
      obtain rfl := Option.some.inj hg
      obtain ⟨hrows, hwidth⟩ : (delta act decay targets layers (l'.inputs x)).height = _ ∧
          (delta act decay targets layers (l'.inputs x)).width = l'.weights.width :=
        shape_delta ((l'.height_inputs x).trans hheight) hjoin
      rw [Layer.height_inputs] at hrows
      have hz := hm.inputs hl
      rw [hheight] at hz
      simp only [List.set_cons_zero, probabilities_cons] at hleast ⊢
      refine (hasDerivAt_finish decay htargets hz hjoin (hm.at_eq.symm ▸ hleast)
        (hm.at_eq.symm ▸ hslope)).congr_deriv ?_
      rw [hm.at_eq, sum_carried, Layer.height_eq hl]
      refine congrArg₂ (· + ·) (Finset.sum_congr rfl fun i hi => Finset.sum_congr rfl fun j hj => ?_)
        (Finset.sum_congr rfl fun j hj => ?_)
      · rw [entry_layerGradient hl hrows hwidth ((Layer.height_eq hl).symm ▸ mem_range.1 hi) (mem_range.1 hj),
          add_sub_cancel_right, hheight]
      · rw [layerGradient, Matrix.getD_columnSums (hwidth.symm ▸ mem_range.1 hj), hrows, hheight]
    | succ k =>
      have hk : layers[k]? = some l := hk
      obtain ⟨l'', rest, rfl⟩ := List.exists_cons_of_ne_nil (List.ne_nil_of_mem (List.mem_of_getElem? hk))
      have hset (s : ℝ) : probabilities act ((l' :: l'' :: rest).set (k + 1) (m s)) x =
          probabilities act ((l'' :: rest).set k (m s)) (l'.hidden act x) := by
        cases k <;> rfl
      have hhidden : (l'.hidden act x).height = targets.height := by
        rw [Layer.hidden, Matrix.height_map, Layer.height_inputs, hheight]
      simp only [hset]
      exact ih hk hhidden hjoin hleast (fun hact h hh => hslope hact h (List.mem_cons_of_mem _ hh)) hg

/-- With the decay, the loss moves with a layer by its gradient. -/
theorem hasDerivAt_loss {alpha : ℝ} (htargets : ∀ i < targets.height, ∑ j ∈ range targets.width, targets.entry i j = 1)
    (hheight : x.height = targets.height) (hjoin : Joins x.width layers targets.width)
    (hleast : ∀ p ∈ (probabilities act layers x).entries, leastProbability < p)
    (hslope : act = .relu → ∀ h ∈ received act layers x, ∀ v ∈ h.entries, v ≠ 0)
    (hg : (lossAndGradient act alpha layers x targets).2[k]? = some g) :
    HasDerivAt (fun s => (lossAndGradient act alpha (layers.set k (m s)) x targets).1)
      (∑ i ∈ range l.weights.height, ∑ j ∈ range l.weights.width, g.weights.entry i j * weight i j +
        ∑ j ∈ range l.weights.width, g.bias.getD j 0 * bias j) t := by
  have hhalf : (Scalar.half : ℝ) = 1 / 2 := by
    show ((5 : ℕ) : ℝ) / 10 ^ 1 = 1 / 2
    norm_num
  have hloss (s : ℝ) : (lossAndGradient act alpha (layers.set k (m s)) x targets).1 =
      crossEntropy targets (probabilities act (layers.set k (m s)) x) targets.height +
        1 / 2 * alpha * Scalar.sum ((layers.set k (m s)).map Layer.squares) / targets.height := by
    rw [lossAndGradient]
    dsimp only
    rw [output_pass, hheight, hhalf]
  simp only [hloss]
  have hentropy := hasDerivAt_crossEntropy_set hm hk htargets hheight hjoin hleast hslope hg
  have hdecay := ((hasDerivAt_squares hm hk).const_mul (1 / 2 * alpha)).div_const (targets.height : ℝ)
  refine (hentropy.add hdecay).congr_deriv ?_
  rw [add_right_comm, hheight, Finset.mul_sum, Finset.sum_div, ← Finset.sum_add_distrib]
  refine congrArg (· + _) (Finset.sum_congr rfl fun i _ => ?_)
  rw [Finset.mul_sum, Finset.sum_div, ← Finset.sum_add_distrib]
  exact Finset.sum_congr rfl fun j _ => by ring

end

end Network

def Matrix.setEntry {α : Type} (x : Matrix α) (r c : ℕ) (v : α) : Matrix α where
  width := x.width
  rows := x.rows.mapIdx fun i row => if i = r then row.set c v else row
  rows_width := by
    intro row hrow
    obtain ⟨i, hi, rfl⟩ := List.mem_mapIdx.1 hrow
    split
    · rw [List.length_set, x.rows_width _ (List.getElem_mem hi)]
    · exact x.rows_width _ (List.getElem_mem hi)

def Layer.setWeight {α : Type} (l : Layer α) (r c : ℕ) (v : α) : Layer α :=
  { l with weights := l.weights.setEntry r c v }

def Layer.setBias {α : Type} (l : Layer α) (c : ℕ) (v : α) : Layer α := { l with bias := l.bias.set c v }

namespace Matrix

variable {x : Matrix ℝ} {r c : ℕ}

theorem entry_setEntry (r c : ℕ) (v : ℝ) {i j : ℕ} (hi : i < x.height) (hj : j < x.width) :
    (x.setEntry r c v).entry i j = if i = r ∧ j = c then v else x.entry i j := by
  have hrow : j < (x.rows.getD i []).length := (length_row hi).symm ▸ hj
  have hrows : i < x.rows.length := hi
  rw [entry, setEntry, entry]
  simp only [List.getD_eq_getElem?_getD, List.getElem?_mapIdx, List.getElem?_eq_getElem hrows, Option.map_some,
    Option.getD_some] at hrow ⊢
  split_ifs with hr hrc hrc
  · rw [hrc.2, List.getElem?_set_self (hrc.2 ▸ hrow), Option.getD_some]
  · rw [List.getElem?_set_ne fun hc => hrc ⟨hr, hc.symm⟩]
  · exact absurd hrc.1 hr
  · rfl

/-- An entry put in its own place changes nothing. -/
theorem setEntry_entry (hr : r < x.height) (hc : c < x.width) : x.setEntry r c (x.entry r c) = x := by
  have hrows : r < x.rows.length := hr
  have hrow : c < x.rows[r].length := (x.rows_width _ (List.getElem_mem hrows)).symm ▸ hc
  have hentry : x.entry r c = x.rows[r][c] := by
    rw [entry, List.getD_eq_getElem _ _ hrows, List.getD_eq_getElem _ _ hrow]
  have hset : (x.setEntry r c (x.entry r c)).rows = x.rows := by
    rw [setEntry, hentry]
    refine List.ext_getElem List.length_mapIdx fun i hi hi' => ?_
    rw [List.getElem_mapIdx]
    split_ifs with h
    · subst h
      rw [List.set_getElem_self]
    · rfl
  cases x
  exact Matrix.mk.injEq .. ▸ ⟨rfl, hset⟩

end Matrix

namespace Layer

variable {l : Layer ℝ} {r c : ℕ}

theorem moves_setWeight (hr : r < l.weights.height) (hc : c < l.weights.width) :
    Moves (fun v => l.setWeight r c v) l (fun i j => if i = r ∧ j = c then 1 else 0) (fun _ => 0)
      (l.weights.entry r c) where
  at_eq := congrArg (Layer.mk · l.bias) (Matrix.setEntry_entry hr hc)
  shape_eq v := by
    simp [shape, setWeight, Matrix.setEntry, Matrix.height]
  weight i hi j hj := by
    have hentry (v : ℝ) : (l.setWeight r c v).weights.entry i j = if i = r ∧ j = c then v else l.weights.entry i j :=
      Matrix.entry_setEntry r c v hi hj
    simp only [hentry]
    split_ifs
    · exact hasDerivAt_id' _
    · exact hasDerivAt_const _ _
  bias j _ := hasDerivAt_const _ (l.bias.getD j 0)

theorem moves_setBias (hc : c < l.bias.length) :
    Moves (fun v => l.setBias c v) l (fun _ _ => 0) (fun j => if j = c then 1 else 0) (l.bias.getD c 0) where
  at_eq := by
    rw [setBias, List.getD_eq_getElem _ _ hc, List.set_getElem_self]
  shape_eq v := by
    simp [shape, setBias]
  weight i _ j _ := hasDerivAt_const _ (l.weights.entry i j)
  bias j _ := by
    have hentry (v : ℝ) : (l.setBias c v).bias.getD j 0 = if j = c then v else l.bias.getD j 0 := by
      split_ifs with h
      · rw [h, setBias, List.getD_eq_getElem?_getD, List.getElem?_set_self hc, Option.getD_some]
      · rw [setBias, List.getD_eq_getElem?_getD, List.getElem?_set_ne (Ne.symm h), List.getD_eq_getElem?_getD]
    simp only [hentry]
    split_ifs
    · exact hasDerivAt_id' _
    · exact hasDerivAt_const _ _

end Layer

namespace Network

/-- Targets with a one at the class of each label and zeros elsewhere add up to one in every row. -/
theorem sum_row_targets {classes : List ℝ} (hclasses : classes ≠ []) (y : List ℝ) :
    ∀ row ∈ (targets classes y).rows, row.sum = 1 := by
  intro row hrow
  obtain ⟨c, -, rfl⟩ := List.mem_map.1 hrow
  have hplace : (Classes.index? classes c).getD 0 < classes.length := by
    cases hindex : Classes.index? classes c with
    | none => exact List.length_pos_iff.2 hclasses
    | some i => exact (List.findIdx?_eq_some_iff_getElem.1 hindex).1
  rw [sum_map_range, Finset.sum_ite_eq', if_pos (mem_range.2 hplace)]

/-- The gradient has a weight for every weight and a bias for every bias, and each is the partial derivative of the
loss by the one in its place. The targets of every row add up to one, all probabilities count as themselves in the
loss, and no hidden unit that cuts off receives just zero. -/
theorem gradient_partial {act : Activation} {alpha : ℝ} {layers : List (Layer ℝ)} {x targets : Matrix ℝ}
    (hne : layers ≠ []) (hjoin : Joins x.width layers targets.width) (hheight : x.height = targets.height)
    (htargets : ∀ row ∈ targets.rows, row.sum = 1)
    (hleast : ∀ p ∈ (probabilities act layers x).entries, leastProbability < p)
    (hslope : act = .relu → ∀ h ∈ received act layers x, ∀ v ∈ h.entries, v ≠ 0) :
    (lossAndGradient act alpha layers x targets).2.map Layer.shape = layers.map Layer.shape ∧
    ∀ k l g, layers[k]? = some l → (lossAndGradient act alpha layers x targets).2[k]? = some g →
      (∀ r < l.weights.height, ∀ c < l.weights.width,
        HasDerivAt (fun v => (lossAndGradient act alpha (layers.set k (l.setWeight r c v)) x targets).1)
          (g.weights.entry r c) (l.weights.entry r c)) ∧
      ∀ c < l.bias.length,
        HasDerivAt (fun v => (lossAndGradient act alpha (layers.set k (l.setBias c v)) x targets).1)
          (g.bias.getD c 0) (l.bias.getD c 0) := by
  have hsums : ∀ i < targets.height, ∑ j ∈ range targets.width, targets.entry i j = 1 := by
    intro i hi
    have hrow : (targets.rows.getD i []).sum = 1 := by
      rw [List.getD_eq_getElem _ _ hi]
      exact htargets _ (List.getElem_mem hi)
    rwa [sum_eq_sum_getD, Matrix.length_row hi] at hrow
  refine ⟨shapes_lossAndGradient hne hjoin, fun k l g hk hg => ⟨fun r hr c hc => ?_, fun c hc => ?_⟩⟩
  · refine (hasDerivAt_loss (Layer.moves_setWeight hr hc) hk hsums hheight hjoin hleast hslope hg).congr_deriv ?_
    simp [ite_and, Finset.sum_ite_eq', hr, hc]
  · have hunits : c < l.weights.width := by
      rw [← hjoin.length_bias hk]
      exact hc
    refine (hasDerivAt_loss (Layer.moves_setBias hc) hk hsums hheight hjoin hleast hslope hg).congr_deriv ?_
    simp [Finset.sum_ite_eq', hunits]

/-- A hidden unit in front of a layer that knows nothing. -/
def staged : List (Layer ℝ) := ⟨Matrix.ofRow [1], [0]⟩ :: QuasiNewton.coin

theorem probabilities_staged : (probabilities .relu staged (Matrix.ofRow [1])).rows = [[1 / 2, 1 / 2]] := by
  simp [staged, QuasiNewton.coin, probabilities, Layer.hidden, Layer.output, Layer.inputs, QuasiNewton.softmax_coin,
    addTo, Matrix.ofRow, Matrix.mul, Matrix.mapRows, Matrix.combinations, Matrix.combine, Matrix.combineFrom,
    Matrix.map, Activation.apply, Scalar.max_real]

theorem received_staged : (received .relu staged (Matrix.ofRow [1])).map Matrix.entries = [[1]] := by
  simp [staged, QuasiNewton.coin, received, receivedFrom, Layer.inputs, addTo, Matrix.ofRow, Matrix.mul,
    Matrix.mapRows, Matrix.combinations, Matrix.combine, Matrix.combineFrom, Matrix.entries]

theorem targets_staged : targets [(0 : ℝ), 1] [0] = Matrix.ofRow [1, 0] := by
  simp [targets, Matrix.ofRow, Classes.index?, List.range_succ, List.findIdx?_cons]

theorem gradient_staged :
    (lossAndGradient .relu 0 staged (Matrix.ofRow [1]) (Matrix.ofRow [1, 0])).2[1]?.map (·.weights.entry 0 0) =
      some (-1 / 2 : ℝ) := by
  simp [staged, QuasiNewton.coin, lossAndGradient, pass, layerGradient, Layer.hidden, Layer.output, Layer.inputs,
    QuasiNewton.softmax_coin, addTo, Matrix.ofRow, Matrix.mul, Matrix.mapRows, Matrix.transposeMul,
    Matrix.combinations, Matrix.combine, Matrix.combineFrom, Matrix.zip, Matrix.map, Matrix.column, Matrix.columns,
    Matrix.height, Matrix.entry, Activation.apply, Scalar.max_real]
  norm_num

/-- For a sample of the first class the loss falls at the rate of one half with the weight that speaks for it. -/
theorem gradient_partial_staged :
    HasDerivAt (fun v => (lossAndGradient .relu 0
      (staged.set 1 (Layer.setWeight ⟨⟨2, [[0, 0]], by simp⟩, [0, 0]⟩ 0 0 v))
      (Matrix.ofRow [1]) (Matrix.ofRow [1, 0])).1) (-1 / 2) 0 := by
  have htargets : ∀ row ∈ (Matrix.ofRow [(1 : ℝ), 0]).rows, row.sum = 1 :=
    targets_staged ▸ sum_row_targets (List.cons_ne_nil _ _) [0]
  have hleast : ∀ p ∈ (probabilities .relu staged (Matrix.ofRow [1])).entries, leastProbability < p := by
    intro p hp
    rw [Matrix.entries, probabilities_staged] at hp
    obtain rfl : p = 1 / 2 := by simpa using hp
    show ((1 : ℕ) : ℝ) / 10 ^ 12 < 1 / 2
    norm_num
  have hslope : Activation.relu = .relu → ∀ h ∈ received .relu staged (Matrix.ofRow [1]), ∀ v ∈ h.entries, v ≠ 0 := by
    intro _ h hh v hv
    have hentries : h.entries ∈ (received .relu staged (Matrix.ofRow [1])).map Matrix.entries := List.mem_map_of_mem hh
    rw [received_staged, List.mem_singleton] at hentries
    obtain rfl : v = 1 := by simpa [hentries] using hv
    exact one_ne_zero
  obtain ⟨g, hg, hentry⟩ := Option.map_eq_some_iff.1 gradient_staged
  have hjoin : Joins (Matrix.ofRow [(1 : ℝ)]).width staged (Matrix.ofRow [(1 : ℝ), 0]).width := ⟨rfl, rfl, rfl⟩
  obtain ⟨-, hpartial⟩ := gradient_partial (List.cons_ne_nil _ _) hjoin rfl htargets hleast hslope
  exact hentry ▸ (hpartial 1 _ g rfl hg).1 0 Nat.one_pos 0 Nat.two_pos

end Network

end PackageTriage
