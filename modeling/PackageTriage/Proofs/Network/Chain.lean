import PackageTriage.Proofs.Network.Slopes
import PackageTriage.Proofs.Network.WalkBack

/-!
# The chain rule through a network

What the units of a layer receive decides the rest of the pass. The matrix that is carried back to them says by how
much the loss moves with each of them. For the last layer it is the difference of output and target; for a hidden
layer it is that of the next one, carried back through its weights and times the slope of the activation.
-/

namespace PackageTriage

open Finset

/-- A matrix that moves keeps its shape, and each of its entries has a slope. -/
structure Matrix.Moves (z : ℝ → Matrix ℝ) (height width : ℕ) (slope : ℕ → ℕ → ℝ) (t : ℝ) : Prop where
  height_eq : ∀ s, (z s).height = height
  width_eq : ∀ s, (z s).width = width
  entry : ∀ i < height, ∀ j < width, HasDerivAt (fun s => (z s).entry i j) (slope i j) t

namespace Matrix.Moves

variable {z : ℝ → Matrix ℝ} {height width : ℕ} {slope : ℕ → ℕ → ℝ} {t : ℝ}

theorem entry_mem (hz : Moves z height width slope t) {i j : ℕ} (hi : i < height) (hj : j < width) :
    (z t).entry i j ∈ (z t).entries :=
  entry_mem_entries (hz.height_eq t ▸ hi) (hz.width_eq t ▸ hj)

/-- Outputs move with what the units receive, by the slope of the activation. -/
theorem apply (hz : Moves z height width slope t) {act : Activation}
    (hslope : act = .relu → ∀ v ∈ (z t).entries, v ≠ 0) :
    Moves (fun s => (z s).map act.apply) height width
      (fun i j => act.slope (((z t).map act.apply).entry i j) * slope i j) t where
  height_eq s := (height_map ..).trans (hz.height_eq s)
  width_eq s := hz.width_eq s
  entry i hi j hj := by
    have hentry (s : ℝ) : ((z s).map act.apply).entry i j = act.apply ((z s).entry i j) :=
      entry_map _ (hz.height_eq s ▸ hi) (hz.width_eq s ▸ hj)
    simp only [hentry]
    exact (Activation.hasDerivAt_apply fun hact => hslope hact _ (hz.entry_mem hi hj)).comp t (hz.entry i hi j hj)

/-- What the units of the next layer receive moves with the outputs, by the weights. -/
theorem inputs (hz : Moves z height width slope t) {l : Layer ℝ}
    (hl : l.shape = ⟨width, l.weights.width, l.weights.width⟩) :
    Moves (fun s => l.inputs (z s)) height l.weights.width
      (fun i j => ∑ k ∈ range width, slope i k * l.weights.entry k j) t where
  height_eq s := (l.height_inputs _).trans (hz.height_eq s)
  width_eq _ := rfl
  entry i hi j hj := by
    have hentry (s : ℝ) : (l.inputs (z s)).entry i j =
        ∑ k ∈ range width, (z s).entry i k * l.weights.entry k j + l.bias.getD j 0 := by
      rw [Layer.entry_inputs ((hz.width_eq s).trans (Layer.height_eq hl).symm) (congrArg LayerShape.biases hl)
        (hz.height_eq s ▸ hi) hj, hz.width_eq s]
    simp only [hentry]
    exact (HasDerivAt.fun_sum fun k hk => (hz.entry i hi k (mem_range.1 hk)).mul_const _).add_const _

end Matrix.Moves

namespace Network

theorem entry_softmax {z : Matrix ℝ} {i : ℕ} (hi : i < z.height) (j : ℕ) :
    (z.mapRows softmax length_softmax).entry i j = (softmax (z.rows.getD i [])).getD j 0 := by
  rw [Matrix.entry, Matrix.mapRows, getD_map_of_lt _ hi []]

variable {targets : Matrix ℝ} {t : ℝ}

/-- The loss moves with what the last units receive by the differences of their probabilities and the targets. -/
theorem hasDerivAt_crossEntropy (htargets : ∀ i < targets.height, ∑ j ∈ range targets.width, targets.entry i j = 1)
    {z : ℝ → Matrix ℝ} {slope : ℕ → ℕ → ℝ} (hz : Matrix.Moves z targets.height targets.width slope t)
    (hleast : ∀ p ∈ ((z t).mapRows softmax length_softmax).entries, leastProbability < p) (n : ℝ) :
    HasDerivAt (fun s => crossEntropy targets ((z s).mapRows softmax length_softmax) n)
      (∑ i ∈ range targets.height, ∑ j ∈ range targets.width,
        (((z t).mapRows softmax length_softmax).entry i j - targets.entry i j) / n * slope i j) t := by
  have hheight (s : ℝ) : ((z s).mapRows softmax length_softmax).height = targets.height :=
    (List.length_map ..).trans (hz.height_eq s)
  have hsum (s : ℝ) : crossEntropy targets ((z s).mapRows softmax length_softmax) n = _ :=
    crossEntropy_eq (hheight s) (hz.width_eq s) n
  have hlog {i : ℕ} (hi : i < targets.height) {j : ℕ} (hj : j < targets.width) :
      HasDerivAt (fun s => Scalar.log (Scalar.max (((z s).mapRows softmax length_softmax).entry i j) leastProbability))
        (slope i j - ∑ k ∈ range targets.width, ((z t).mapRows softmax length_softmax).entry i k * slope i k) t := by
    have hrow (s : ℝ) (k : ℕ) : ((z s).mapRows softmax length_softmax).entry i k =
        (softmax ((z s).rows.getD i [])).getD k 0 := entry_softmax (hz.height_eq s ▸ hi) k
    have hp := hleast _ (Matrix.entry_mem_entries (hheight t ▸ hi) (hz.width_eq t ▸ hj))
    simp only [hrow] at hp ⊢
    refine hasDerivAt_log_max_softmax (fun s => ?_) (fun k hk => hz.entry i hi k hk) hj hp
    rw [Matrix.length_row (hz.height_eq s ▸ hi), hz.width_eq s]
  simp only [hsum]
  refine ((HasDerivAt.fun_sum fun i hi => HasDerivAt.fun_sum fun j hj =>
    (hlog (mem_range.1 hi) (mem_range.1 hj)).const_mul (targets.entry i j)).neg.div_const n).congr_deriv ?_
  rw [← Finset.sum_neg_distrib, Finset.sum_div]
  refine Finset.sum_congr rfl fun i hi => ?_
  -- A target shares out the mean score once over, since its row adds up to one.
  have hmean := htargets i (mem_range.1 hi)
  simp only [mul_sub, sub_div, sub_mul, Finset.sum_sub_distrib, ← Finset.sum_mul, hmean]
  simp only [div_mul_eq_mul_div, ← Finset.sum_div]
  ring

/-- The rest of the pass, from what the units before the given layers receive. -/
def finish {α : Type} [Scalar α] (act : Activation) : List (Layer α) → Matrix α → Matrix α
  | [], z => z.mapRows softmax length_softmax
  | l :: ls, z => probabilities act (l :: ls) (z.map act.apply)

/-- What the units of all hidden layers receive, if those before the given layers receive `z`. -/
def receivedFrom {α : Type} [Scalar α] (act : Activation) : List (Layer α) → Matrix α → List (Matrix α)
  | [], _ => []
  | l :: ls, z => z :: receivedFrom act ls (l.inputs (z.map act.apply))

def received {α : Type} [Scalar α] (act : Activation) : List (Layer α) → Matrix α → List (Matrix α)
  | [], _ => []
  | l :: ls, x => receivedFrom act ls (l.inputs x)

section

variable (act : Activation) (decay : ℝ) (targets : Matrix ℝ) (l : Layer ℝ) (ls : List (Layer ℝ)) (x : Matrix ℝ)

theorem probabilities_cons : probabilities act (l :: ls) x = finish act ls (l.inputs x) := by
  cases ls <;> rfl

theorem output_pass : (pass act decay targets ls x).output = probabilities act ls x := by
  induction ls generalizing x with
  | nil => rfl
  | cons l ls ih =>
    cases ls with
    | nil => rfl
    | cons m ls => exact ih (l.hidden act x)

end

/-- What is carried back has the shape of what the units received. -/
theorem shape_delta {act : Activation} {decay : ℝ} {ls : List (Layer ℝ)} {z : Matrix ℝ}
    (hheight : z.height = targets.height) (hjoin : Joins z.width ls targets.width) :
    (delta act decay targets ls z).height = z.height ∧ (delta act decay targets ls z).width = z.width := by
  induction ls generalizing z with
  | nil =>
    have hrows : (z.mapRows softmax length_softmax).height = z.height := List.length_map ..
    rw [delta, Matrix.height_map, Matrix.height_zip _ (hheight.symm.trans hrows.symm), hrows]
    exact ⟨rfl, Matrix.width_zip (· - ·) hjoin.symm⟩
  | cons l ls ih =>
    obtain ⟨hl, hjoin⟩ := hjoin
    obtain ⟨hrows, -⟩ := ih (z := l.inputs (z.map act.apply)) (by simpa using hheight) hjoin
    have hslope : (pass act decay targets (l :: ls) (z.map act.apply)).inputSlope.height = z.height := by
      rw [inputSlope_cons, Matrix.height_mulTranspose, hrows, Layer.height_inputs, Matrix.height_map]
    have hwidth : (pass act decay targets (l :: ls) (z.map act.apply)).inputSlope.width = z.width := by
      rw [inputSlope_cons, Matrix.width_mulTranspose, Layer.height_eq hl]
    rw [delta, Matrix.height_zip _ (by simpa using hslope.symm), Matrix.width_zip _ (by simpa using hwidth.symm)]
    exact ⟨hslope, hwidth⟩

variable {act : Activation} {decay : ℝ} {ls : List (Layer ℝ)} {l : Layer ℝ} {z : Matrix ℝ} {i j : ℕ}

/-- The error at the outputs is what the softmax gives less the target, over the batch. -/
theorem entry_delta_nil (hheight : z.height = targets.height) (hwidth : z.width = targets.width) (hi : i < z.height)
    (hj : j < z.width) : (delta act decay targets [] z).entry i j =
      ((z.mapRows softmax length_softmax).entry i j - targets.entry i j) / z.height := by
  have hrows : (z.mapRows softmax length_softmax).height = z.height := List.length_map ..
  have hout : j < (z.mapRows softmax length_softmax).width := hj
  have hzip := Matrix.height_zip (· - ·) (hheight.symm.trans hrows.symm)
  rw [delta, Matrix.entry_map _ (hzip.trans hrows ▸ hi) (Matrix.width_zip (· - ·) hwidth.symm ▸ hj),
    Matrix.entry_zip _ (hrows ▸ hi) (hheight ▸ hi) hout (hwidth ▸ hj)]

/-- A hidden unit is answerable for what the units behind it are, by its weights there. -/
theorem entry_delta_cons (hheight : z.height = targets.height)
    (hl : l.shape = ⟨z.width, l.weights.width, l.weights.width⟩) (hjoin : Joins l.weights.width ls targets.width)
    (hi : i < z.height) (hj : j < z.width) : (delta act decay targets (l :: ls) z).entry i j =
      (∑ k ∈ range l.weights.width, (delta act decay targets ls (l.inputs (z.map act.apply))).entry i k *
        l.weights.entry j k) * act.slope ((z.map act.apply).entry i j) := by
  have hinputs : (l.inputs (z.map act.apply)).height = targets.height := by simpa using hheight
  obtain ⟨hrows, hwidth⟩ : (delta act decay targets ls (l.inputs (z.map act.apply))).height = _ ∧
      (delta act decay targets ls (l.inputs (z.map act.apply))).width = l.weights.width := shape_delta hinputs hjoin
  have hback : i < (delta act decay targets ls (l.inputs (z.map act.apply))).height := by
    rw [hrows, hinputs, ← hheight]
    exact hi
  have hweight : j < l.weights.height := (Layer.height_eq hl).symm ▸ hj
  have happly : j < (z.map act.apply).width := hj
  have hslope : j < ((z.map act.apply).map act.slope).width := hj
  rw [delta, inputSlope_cons, Matrix.entry_zip _ (by simpa using hback) (by simpa using hi) hweight hslope,
    Matrix.entry_mulTranspose hwidth hback hweight, Matrix.entry_map _ (by simpa using hi) happly, hwidth]

variable (decay) in
/-- The loss moves with what the units of a layer receive by what is carried back to them. -/
theorem hasDerivAt_finish (htargets : ∀ i < targets.height, ∑ j ∈ range targets.width, targets.entry i j = 1)
    {z : ℝ → Matrix ℝ} {width : ℕ} {slope : ℕ → ℕ → ℝ} (hz : Matrix.Moves z targets.height width slope t)
    (hjoin : Joins width ls targets.width) (hleast : ∀ p ∈ (finish act ls (z t)).entries, leastProbability < p)
    (hslope : act = .relu → ∀ h ∈ receivedFrom act ls (z t), ∀ v ∈ h.entries, v ≠ 0) :
    HasDerivAt (fun s => crossEntropy targets (finish act ls (z s)) targets.height)
      (∑ i ∈ range targets.height, ∑ j ∈ range width, (delta act decay targets ls (z t)).entry i j * slope i j) t := by
  -- Along the layers from the front: what moves a layer moves the inputs of the next one, and all of the latter's
  -- slopes are carried back through the same weights.
  induction ls generalizing z width slope with
  | nil =>
    obtain rfl : width = targets.width := hjoin
    refine (hasDerivAt_crossEntropy htargets hz hleast targets.height).congr_deriv ?_
    refine Finset.sum_congr rfl fun i hi => Finset.sum_congr rfl fun j hj => ?_
    rw [entry_delta_nil (hz.height_eq t) (hz.width_eq t) (hz.height_eq t ▸ mem_range.1 hi)
      (hz.width_eq t ▸ mem_range.1 hj), hz.height_eq t]
  | cons l ls ih =>
    obtain ⟨hl, hjoin⟩ := hjoin
    have happly := hz.apply fun hact => hslope hact (z t) List.mem_cons_self
    have hfinish (s : ℝ) : finish act (l :: ls) (z s) = finish act ls (l.inputs ((z s).map act.apply)) :=
      probabilities_cons ..
    simp only [hfinish] at hleast ⊢
    refine (ih (happly.inputs hl) hjoin hleast
      fun hact h hh => hslope hact h (List.mem_cons_of_mem _ hh)).congr_deriv ?_
    refine Finset.sum_congr rfl fun i hi => ?_
    simp only [Finset.mul_sum]
    rw [Finset.sum_comm]
    refine Finset.sum_congr rfl fun j hj => ?_
    rw [entry_delta_cons (hz.height_eq t) ((hz.width_eq t).symm ▸ hl) hjoin (hz.height_eq t ▸ mem_range.1 hi)
      (hz.width_eq t ▸ mem_range.1 hj), Finset.sum_mul, Finset.sum_mul]
    exact Finset.sum_congr rfl fun k _ => by ring

end Network

end PackageTriage
