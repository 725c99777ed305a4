import PackageTriage.Proofs.Network.Directions
import PackageTriage.Proofs.Network.Shapes

/-!
# No direction is given up

A search looks back at its direction before it follows it, and takes the steepest one if the slope does not
fall. In exact arithmetic it never has to. The history holds only steps along which the gradient grew steeper,
all of the length of the parameters, and a search that is not over stands at a gradient that is not zero; so
every direction it asks for leads down, and without the look back it ends at the same place.
-/

namespace PackageTriage

namespace QuasiNewton

section Searches

variable {α : Type} [Scalar α] (objective : List α → α × List α)

/-- The direction of a step with its slope and history, without a look back. -/
def unguarded (s : State α) : List α × α × List (Pair α) :=
  (direction s.gradient s.history, Scalar.dot (direction s.gradient s.history) s.gradient, s.history)

def next? (found : List α × α × List (Pair α)) (done : Nat) (s : State α) : Option (State α) :=
  (lineSearch objective s found.1 found.2.1 30 (firstLength (done = 0) s.gradient)).map fun accepted =>
    accept s found.2.2 accepted.1 accepted.2.1 accepted.2.2

def searchBy (find : State α → List α × α × List (Pair α)) (tolerance : α) :
    (limit done : Nat) → State α → State α × Nat
  | 0, done, s => (s, done)
  | limit + 1, done, s =>
    if isFlat s.gradient then (s, done)
    else
      match next? objective (find s) done s with
      | none => (s, done)
      | some next =>
        if isConverged tolerance s.loss next.loss then (next, done + 1)
        else searchBy find tolerance limit (done + 1) next

def asked (tolerance : α) : (limit done : Nat) → State α → List (State α)
  | 0, _, _ => []
  | limit + 1, done, s =>
    if isFlat s.gradient then []
    else
      s :: match next? objective (descent s) done s with
        | none => []
        | some next =>
          if isConverged tolerance s.loss next.loss then [] else asked tolerance limit (done + 1) next

/-- One step of the search, with its three ways to end. -/
theorem search_succ (tolerance : α) (limit done : Nat) (s : State α) :
    search objective tolerance (limit + 1) done s =
      if isFlat s.gradient then (s, done)
      else
        match next? objective (descent s) done s with
        | none => (s, done)
        | some next =>
          if isConverged tolerance s.loss next.loss then (next, done + 1)
          else search objective tolerance limit (done + 1) next := by
  rw [search, next?]
  obtain ⟨dir, slope, history⟩ := descent s
  dsimp only
  cases lineSearch objective s dir slope 30 (firstLength (done = 0) s.gradient) with
  | none => rfl
  | some accepted => rfl

/-- Only at these places does it matter how directions are found. -/
theorem search_eq_searchBy {find : State α → List α × α × List (Pair α)} {tolerance : α} {limit done : Nat}
    {s : State α} (h : ∀ s' ∈ asked objective tolerance limit done s, descent s' = find s') :
    search objective tolerance limit done s = searchBy objective find tolerance limit done s := by
  induction limit generalizing done s with
  | zero => rfl
  | succ limit ih =>
    rw [search_succ, searchBy]
    split
    · rfl
    · next hsteep =>
      rw [asked, if_neg hsteep] at h
      rw [← h s List.mem_cons_self]
      cases hnext : next? objective (descent s) done s with
      | none => rfl
      | some next =>
        rw [hnext] at h
        dsimp only at h ⊢
        split
        · rfl
        · next hmoves =>
          rw [if_neg hmoves] at h
          exact ih fun s' hs' => h s' (List.mem_cons_of_mem s hs')

variable {objective}

/-- What a step from a place that is not flat keeps holds wherever the search asks for a direction. -/
theorem asked_invariant {P : State α → Prop} {tolerance : α}
    (hnext : ∀ done s next, P s → isFlat s.gradient = false →
      next? objective (descent s) done s = some next → P next)
    {limit done : Nat} {s : State α} (hs : P s) :
    ∀ s' ∈ asked objective tolerance limit done s, P s' ∧ isFlat s'.gradient = false := by
  induction limit generalizing done s with
  | zero => nofun
  | succ limit ih =>
    rw [asked]
    split
    · nofun
    · next hsteep =>
      have hsteep := eq_false_of_ne_true hsteep
      intro s' hs'
      rcases List.mem_cons.1 hs' with rfl | hs'
      · exact ⟨hs, hsteep⟩
      · split at hs'
        · cases hs'
        · next next hn =>
          split at hs'
          · cases hs'
          · exact ih (hnext done s next hs hsteep hn) s' hs'

/-- An accepted point lies along the direction, and it is low enough. Its distance has what halving keeps. -/
theorem lineSearch_eq_some_of {P : α → Prop} (hhalf : ∀ length, P length → P (length * Scalar.half))
    {s : State α} {dir : List α} {slope : α} {trials : Nat} {step : α} (hstep : P step)
    {params : List α} {loss : α} {gradient : List α}
    (h : lineSearch objective s dir slope trials step = some (params, loss, gradient)) :
    ∃ length, P length ∧ params = addScaled s.params length dir ∧ objective params = (loss, gradient) ∧
      Scalar.isFinite loss = true ∧
        Scalar.atMost loss (s.loss + Scalar.decimal 1 4 * length * slope) = true := by
  induction trials generalizing step with
  | zero => cases h
  | succ trials ih =>
    rw [lineSearch] at h
    dsimp only at h
    split at h
    · next hlow =>
      cases h
      exact ⟨step, hstep, rfl, rfl, (Bool.and_eq_true _ _).mp hlow⟩
    · exact ih (hhalf step hstep) h

theorem lineSearch_eq_some {s : State α} {dir : List α} {slope : α} {trials : Nat} {step : α}
    {params : List α} {loss : α} {gradient : List α}
    (h : lineSearch objective s dir slope trials step = some (params, loss, gradient)) :
    ∃ length, params = addScaled s.params length dir ∧ objective params = (loss, gradient) ∧
      Scalar.isFinite loss = true ∧
        Scalar.atMost loss (s.loss + Scalar.decimal 1 4 * length * slope) = true := by
  obtain ⟨length, -, hfound⟩ := lineSearch_eq_some_of (P := fun _ => True) (fun _ _ => trivial) trivial h
  exact ⟨length, hfound⟩

omit [Scalar α] in
theorem mem_remember {history : List (Pair α)} {p p' : Pair α} (h : p' ∈ remember history p) :
    p' ∈ history ∨ p' = p := by
  rw [remember] at h
  rcases List.mem_append.1 h with h | h
  · left
    split at h
    · exact List.mem_of_mem_drop h
    · exact h
  · exact .inr (List.mem_singleton.1 h)

end Searches

/-- Parameters, gradient and steps have one length, and along every step the gradient grew steeper. -/
structure State.Sound (length : Nat) (s : State ℝ) : Prop where
  length_params : s.params.length = length
  length_gradient : s.gradient.length = length
  history : ∀ p ∈ s.history, p.Sound length

namespace State.Sound

variable {n : Nat} {s : State ℝ}

theorem length_direction (hs : s.Sound n) : (direction s.gradient s.history).length = n :=
  QuasiNewton.length_direction hs.length_gradient fun p hp => ⟨(hs.history p hp).length_s, (hs.history p hp).length_y⟩

/-- Where the history is sound the descent is never reset. -/
theorem descent_eq (hs : s.Sound n) (hne : ∃ v ∈ s.gradient, v ≠ 0) :
    descent s = unguarded s ∧ (unguarded s).2.1 < 0 := by
  have hdown : Scalar.dot (direction s.gradient s.history) s.gradient < 0 := by
    apply dot_direction_neg hne
    intro p hp
    rw [hs.length_gradient]
    exact hs.history p hp
  have hguard : ¬ Scalar.atMost 0 (Scalar.dot (direction s.gradient s.history) s.gradient) = true := by
    rw [Scalar.atMost_real, decide_eq_true_eq]
    exact hdown.not_ge
  refine ⟨?_, hdown⟩
  rw [descent]
  dsimp only
  rw [if_neg hguard, unguarded]

/-- A step joins the history only if the gradient grew steeper along it. -/
theorem accept (hs : s.Sound n) {params gradient : List ℝ} (hparams : params.length = n)
    (hgradient : gradient.length = n) (loss : ℝ) : (accept s s.history params loss gradient).Sound n := by
  refine ⟨hparams, hgradient, ?_⟩
  intro p hp
  rw [QuasiNewton.accept] at hp
  dsimp only at hp
  split at hp
  · next hsteeper =>
    rcases mem_remember hp with hp | rfl
    · exact hs.history p hp
    · have hless : (1 : ℕ) / (10 : ℝ) ^ 10 <
          Scalar.dot (List.zipWith (· - ·) params s.params) (List.zipWith (· - ·) gradient s.gradient) :=
        of_decide_eq_true hsteeper
      refine ⟨?_, ?_, lt_trans (by positivity) hless, rfl⟩
      · rw [List.length_zipWith, hparams, hs.length_params, Nat.min_self]
      · rw [List.length_zipWith, hgradient, hs.length_gradient, Nat.min_self]
  · exact hs.history p hp

/-- What a search holds at one place it holds at the next. -/
theorem next? (hs : s.Sound n) {objective : List ℝ → ℝ × List ℝ}
    (hobjective : ∀ params, params.length = n → (objective params).2.length = n)
    (hne : ∃ v ∈ s.gradient, v ≠ 0) {done : Nat} {next : State ℝ}
    (h : QuasiNewton.next? objective (descent s) done s = some next) : next.Sound n := by
  rw [(hs.descent_eq hne).1, QuasiNewton.next?, Option.map_eq_some_iff] at h
  obtain ⟨⟨params, loss, gradient⟩, hline, rfl⟩ := h
  obtain ⟨length, hparams, hlow, -⟩ := lineSearch_eq_some hline
  have hlength : params.length = n := by
    rw [hparams, addScaled, List.length_zipWith, hs.length_params]
    exact (congrArg (Min.min n) hs.length_direction).trans (Nat.min_self n)
  have hgradient := hobjective params hlength
  rw [hlow] at hgradient
  exact hs.accept hlength hgradient loss

end State.Sound

theorem exists_ne_zero_of_isFlat {gradient : List ℝ} (h : isFlat gradient = false) : ∃ v ∈ gradient, v ≠ 0 := by
  by_contra hzero
  push Not at hzero
  have hfold : gradient.foldl (fun m g => Scalar.max m (Scalar.abs g)) 0 = (0 : ℝ) := by
    clear h
    induction gradient with
    | nil => rfl
    | cons v gradient ih =>
      have hstart : Scalar.max 0 (Scalar.abs (0 : ℝ)) = 0 := by
        rw [Scalar.max_real]
        show max (0 : ℝ) |0| = 0
        rw [abs_zero, max_self]
      rw [List.foldl_cons, hzero v List.mem_cons_self, hstart]
      exact ih fun v' hv' => hzero v' (List.mem_cons_of_mem v hv')
  have hless : (0 : ℝ) < (1 : ℕ) / (10 : ℝ) ^ 5 := by positivity
  rw [isFlat, hfold] at h
  exact of_decide_eq_false h hless

section Training

variable {α : Type} [Scalar α] (t : Training α) (x targets : Matrix α) (layers : List (Layer α))

def first : State α where
  params := Network.pack layers
  loss := (objective t x targets layers (Network.pack layers)).1
  gradient := (objective t x targets layers (Network.pack layers)).2
  history := []

def trainBy (find : State α → List α × α × List (Pair α)) : List (Layer α) × Nat × α :=
  let (s, steps) := searchBy (objective t x targets layers) find t.tolerance t.limit 0 (first t x targets layers)
  (Network.unpack layers s.params, steps, s.loss)

variable {t x targets layers}

/-- Where layers join, a gradient is as long as the parameters it is taken in. -/
theorem length_objective (h : Network.Joins x.width layers targets.width) (params : List α) :
    (objective t x targets layers params).2.length = (Network.pack layers).length := by
  have hshapes := Network.shapes_unpack layers params
  refine Network.length_pack_eq ?_
  cases layers with
  | nil => rfl
  | cons l layers =>
    have hne : Network.unpack (l :: layers) params ≠ [] := by
      intro hnil
      rw [hnil] at hshapes
      cases hshapes
    have hjoins := Network.joins_of_shapes_eq hshapes.symm h
    exact (Network.shapes_lossAndGradient hne hjoins).trans hshapes

end Training

/-- Every direction found from sound steps leads down from a gradient that is not zero. Where a training
asks for a direction, whichever layers that join it trains, the gradient is not zero and all steps are sound; so
it never falls back on the steepest direction, and training without the look back ends alike. -/
theorem directions_lead_down :
    (∀ (gradient : List ℝ) (history : List (Pair ℝ)), (∃ v ∈ gradient, v ≠ 0) →
      (∀ p ∈ history, p.Sound gradient.length) → Scalar.dot (direction gradient history) gradient < 0) ∧
    ∀ (t : Training ℝ) (x targets : Matrix ℝ) (layers : List (Layer ℝ)),
      Network.Joins x.width layers targets.width →
        (∀ s ∈ asked (objective t x targets layers) t.tolerance t.limit 0 (first t x targets layers),
          (∃ v ∈ s.gradient, v ≠ 0) ∧ (∀ p ∈ s.history, p.Sound s.gradient.length) ∧
            descent s = unguarded s ∧ (unguarded s).2.1 < 0) ∧
        train t x targets layers = trainBy t x targets layers unguarded := by
  refine ⟨fun gradient history => dot_direction_neg, fun t x targets layers hjoins => ?_⟩
  have hobjective := length_objective (t := t) hjoins
  have hfirst : (first t x targets layers).Sound (Network.pack layers).length := ⟨rfl, hobjective _, nofun⟩
  have hasked : ∀ s ∈ asked (objective t x targets layers) t.tolerance t.limit 0 (first t x targets layers),
      s.Sound (Network.pack layers).length ∧ isFlat s.gradient = false := by
    apply asked_invariant _ hfirst
    intro done s next hs hsteep hnext
    exact hs.next? (fun params _ => hobjective params) (exists_ne_zero_of_isFlat hsteep) hnext
  have hall : ∀ s ∈ asked (objective t x targets layers) t.tolerance t.limit 0 (first t x targets layers),
      (∃ v ∈ s.gradient, v ≠ 0) ∧ (∀ p ∈ s.history, p.Sound s.gradient.length) ∧
        descent s = unguarded s ∧ (unguarded s).2.1 < 0 := by
    intro s hs
    obtain ⟨hsound, hsteep⟩ := hasked s hs
    have hne := exists_ne_zero_of_isFlat hsteep
    refine ⟨hne, ?_, hsound.descent_eq hne⟩
    rw [hsound.length_gradient]
    exact hsound.history
  refine ⟨hall, ?_⟩
  have hsearch := search_eq_searchBy (objective t x targets layers) fun s hs => (hall s hs).2.2.1
  show (Network.unpack layers _, _, _) = _
  rw [trainBy, ← hsearch]
  rfl

/-- Two steps, each with a gradient that grew along it. -/
def bends : List (Pair ℝ) := [⟨[1, 0], [1, 0], 1⟩, ⟨[0, 1], [1, 1], 1⟩]

theorem sound_bends : ∀ p ∈ bends, p.Sound 2 := by
  have hfirst : Scalar.dot [(1 : ℝ), 0] [1, 0] = 1 := by norm_num [dot_cons, dot_nil]
  have hsecond : Scalar.dot [(0 : ℝ), 1] [1, 1] = 1 := by norm_num [dot_cons, dot_nil]
  intro p hp
  rcases List.mem_cons.1 hp with rfl | hp
  · exact ⟨rfl, rfl, one_pos.trans_eq hfirst.symm, by rw [hfirst, div_one]⟩
  · obtain rfl := List.mem_singleton.1 hp
    exact ⟨rfl, rfl, one_pos.trans_eq hsecond.symm, by rw [hsecond, div_one]⟩

/-- One layer with one input and a unit for each of two classes, which knows nothing of them. -/
def coin : List (Layer ℝ) := [⟨⟨2, [[0, 0]], by simp⟩, [0, 0]⟩]

theorem softmax_coin : softmax [(0 : ℝ), 0] = [1 / 2, 1 / 2] := by
  have hexp : Scalar.exp (0 : ℝ) = 1 := Real.exp_zero
  have htop : Statistics.greatest [(0 : ℝ), 0] = 0 := by
    show Scalar.max (0 : ℝ) 0 = 0
    rw [Scalar.max_real, max_self]
  have htotal : Statistics.laneSum [(1 : ℝ), 1] = 2 := by
    show (0 : ℝ) + (0 + 0) + (0 + 0) + (0 + 0) + (0 + 0) + 1 + 1 = 2
    norm_num
  simp only [softmax, List.map_cons, List.map_nil, htop, sub_self, hexp, htotal]

/-- The gradient for a sample of the first class. -/
theorem gradient_coin :
    (first default (Matrix.ofRow [1]) (Matrix.ofRow [1, 0]) coin).gradient = [-1 / 2, 1 / 2, -1 / 2, 1 / 2] := by
  simp [first, objective, coin, Network.pack, Network.unpack, Network.refillWeights, Network.refillBiases,
    Network.refillMatrix, Network.refillRows, Network.refill, Network.lossAndGradient, Network.pass,
    Network.layerGradient, Layer.output, Layer.inputs, softmax_coin, addTo, Matrix.ofRow, Matrix.mul,
    Matrix.mapRows, Matrix.transposeMul, Matrix.combinations, Matrix.combine, Matrix.combineFrom, Matrix.zip,
    Matrix.map, Matrix.column, Matrix.columns, Matrix.columnSums, Matrix.entries, Matrix.height]
  norm_num

theorem not_isFlat_coin :
    isFlat (first default (Matrix.ofRow [1]) (Matrix.ofRow [1, 0]) coin).gradient = false := by
  have habs : ∀ x : ℝ, Scalar.abs x = |x| := fun _ => rfl
  have hdecimal : Scalar.decimal (α := ℝ) 1 5 = 1 / 10 ^ 5 := by
    show ((1 : ℕ) : ℝ) / 10 ^ 5 = _
    rw [Nat.cast_one]
  rw [gradient_coin]
  simp only [isFlat, List.foldl_cons, List.foldl_nil, Scalar.max_real, habs, hdecimal, Scalar.less_real,
    decide_eq_false_iff_not]
  norm_num

/-- The two steps turn a gradient downwards, and the training of the layer asks for a direction and follows it. -/
theorem directions_lead_down_coin :
    (∃ v ∈ [(1 : ℝ), 2], v ≠ 0) ∧ (∀ p ∈ bends, p.Sound 2) ∧ Scalar.dot (direction [1, 2] bends) [1, 2] < 0 ∧
      Network.Joins 1 coin 2 ∧
        (unguarded (first default (Matrix.ofRow [1]) (Matrix.ofRow [1, 0]) coin)).2.1 < 0 ∧
          train default (Matrix.ofRow [1]) (Matrix.ofRow [1, 0]) coin =
            trainBy default (Matrix.ofRow [1]) (Matrix.ofRow [1, 0]) coin unguarded := by
  have hne : ∃ v ∈ [(1 : ℝ), 2], v ≠ 0 := ⟨1, List.mem_cons_self, one_ne_zero⟩
  have hjoins : Network.Joins 1 coin 2 := ⟨rfl, rfl⟩
  have hasked : first default (Matrix.ofRow [1]) (Matrix.ofRow [1, 0]) coin ∈
      asked (objective default (Matrix.ofRow [1]) (Matrix.ofRow [1, 0]) coin) (default : Training ℝ).tolerance 200 0
        (first default (Matrix.ofRow [1]) (Matrix.ofRow [1, 0]) coin) := by
    rw [asked, if_neg (ne_true_of_eq_false not_isFlat_coin)]
    exact List.mem_cons_self
  obtain ⟨hdown, htrain⟩ := directions_lead_down
  obtain ⟨hall, heq⟩ := htrain default (Matrix.ofRow [1]) (Matrix.ofRow [1, 0]) coin hjoins
  exact ⟨hne, sound_bends, hdown _ _ hne sound_bends, hjoins, (hall _ hasked).2.2.2, heq⟩

end QuasiNewton

end PackageTriage
