import PackageTriage.Proofs.Network.Accepted
import PackageTriage.Proofs.Network.Packing

/-!
# Training in place

A search may write every point it tries into the layers themselves and take the loss there, as long as it puts the
last accepted parameters back: for layers that join, which values it writes over makes no difference. So however the
search ends, the layers hold the last accepted parameters, and the loss is that of these layers.
-/

namespace PackageTriage.QuasiNewton

section InPlace

variable {α : Type} [Scalar α] (t : Training α) (x targets : Matrix α)

/-- The points along a direction, each written into the layers, until the loss there is low enough. The layers are
left with the last point, accepted or not. -/
def tryPoints (s : State α) (dir : List α) (slope : α) :
    (trials : Nat) → (step : α) → (live : List (Layer α)) → List (Layer α) × Option (List α × α × List α)
  | 0, _, live => (live, none)
  | trials + 1, step, live =>
    let candidate := addScaled s.params step dir
    let live := Network.unpack live candidate
    let (loss, gradient) := Network.lossAndGradient t.activation t.alpha live x targets
    if Scalar.isFinite loss && Scalar.atMost loss (s.loss + Scalar.decimal 1 4 * step * slope) then
      (live, some (candidate, loss, Network.pack gradient))
    else tryPoints s dir slope trials (step * Scalar.half) live

/-- Up to `limit` steps. After a search along a direction that found nothing the layers get their parameters back. -/
def searchInPlace : (limit done : Nat) → State α → (live : List (Layer α)) → List (Layer α) × State α × Nat
  | 0, done, s, live => (live, s, done)
  | limit + 1, done, s, live =>
    if isFlat s.gradient then (live, s, done)
    else
      let (dir, slope, history) := descent s
      match tryPoints t x targets s dir slope 30 (firstLength (done = 0) s.gradient) live with
      | (live, none) => (Network.unpack live s.params, s, done)
      | (live, some (params, loss, gradient)) =>
        let next := accept s history params loss gradient
        if isConverged t.tolerance s.loss loss then (live, next, done + 1)
        else searchInPlace limit (done + 1) next live

def trainInPlace (layers : List (Layer α)) : List (Layer α) × Nat × α :=
  let (loss, gradient) := Network.lossAndGradient t.activation t.alpha layers x targets
  let (live, s, steps) := searchInPlace t x targets t.limit 0
    ⟨Network.pack layers, loss, Network.pack gradient, []⟩ layers
  (Network.unpack live s.params, steps, s.loss)

/-- Parameters, gradient and steps have one length. -/
structure State.Aligned (length : Nat) (s : State α) : Prop where
  params : s.params.length = length
  gradient : s.gradient.length = length
  history : ∀ p ∈ s.history, p.s.length = length ∧ p.y.length = length

namespace State.Aligned

variable {n : Nat} {s : State α}

theorem length_descent (hs : s.Aligned n) : (descent s).1.length = n := by
  rw [descent]
  dsimp only
  split
  · rw [List.length_map, hs.gradient]
  · exact length_direction hs.gradient hs.history

theorem history_descent (hs : s.Aligned n) : ∀ p ∈ (descent s).2.2, p.s.length = n ∧ p.y.length = n := by
  rw [descent]
  dsimp only
  split
  · exact fun p hp => absurd hp List.not_mem_nil
  · exact hs.history

theorem length_addScaled (hs : s.Aligned n) {dir : List α} (hdir : dir.length = n) (step : α) :
    (addScaled s.params step dir).length = n := by
  rw [addScaled, List.length_zipWith, hs.params, hdir, Nat.min_self]

/-- An accepted step keeps all vectors aligned. -/
theorem accept (hs : s.Aligned n) {history : List (Pair α)}
    (hhistory : ∀ p ∈ history, p.s.length = n ∧ p.y.length = n) {params gradient : List α}
    (hparams : params.length = n) (hgradient : gradient.length = n) (loss : α) :
    (accept s history params loss gradient).Aligned n := by
  refine ⟨hparams, hgradient, fun p hp => ?_⟩
  rw [QuasiNewton.accept] at hp
  dsimp only at hp
  split at hp
  · rcases mem_remember hp with hp | rfl
    · exact hhistory p hp
    · rw [List.length_zipWith, List.length_zipWith, hparams, hgradient, hs.params, hs.gradient, Nat.min_self]
      exact ⟨rfl, rfl⟩
  · exact hhistory p hp

end State.Aligned

variable {t x targets} {layers live : List (Layer α)} {s : State α}

/-- Tried in layers of the same shapes, the points of a line search are accepted or not as without them. -/
theorem tryPoints_eq (t : Training α) (x targets : Matrix α) (hs : s.Aligned (Network.pack layers).length)
    {dir : List α} (hdir : dir.length = (Network.pack layers).length) (slope : α) (trials : Nat) (step : α)
    (hlive : live.map Layer.shape = layers.map Layer.shape) :
    (tryPoints t x targets s dir slope trials step live).1.map Layer.shape = layers.map Layer.shape ∧
      (tryPoints t x targets s dir slope trials step live).2 =
        lineSearch (objective t x targets layers) s dir slope trials step := by
  induction trials generalizing step live with
  | zero => exact ⟨hlive, rfl⟩
  | succ trials ih =>
    have hunpack := Network.unpack_eq_unpack hlive.symm (hs.length_addScaled hdir step)
    have hshapes := Network.shapes_unpack layers (addScaled s.params step dir)
    rw [tryPoints, lineSearch, objective]
    dsimp only
    rw [hunpack]
    split
    · exact ⟨hshapes, rfl⟩
    · exact ih _ hshapes

/-- So the search that tries its points in the layers stands where the other one does. -/
theorem searchInPlace_eq (t : Training α) (hjoins : Network.Joins x.width layers targets.width) (limit done : Nat)
    (hs : s.Aligned (Network.pack layers).length) (hlive : live.map Layer.shape = layers.map Layer.shape) :
    (searchInPlace t x targets limit done s live).1.map Layer.shape = layers.map Layer.shape ∧
      (searchInPlace t x targets limit done s live).2 =
        search (objective t x targets layers) t.tolerance limit done s ∧
      (search (objective t x targets layers) t.tolerance limit done s).1.Aligned (Network.pack layers).length := by
  induction limit generalizing done s live with
  | zero => exact ⟨hlive, rfl, hs⟩
  | succ limit ih =>
    rw [searchInPlace, search]
    split
    · exact ⟨hlive, rfl, hs⟩
    · obtain ⟨htried, hfound⟩ := tryPoints_eq t x targets hs hs.length_descent (descent s).2.1 30
        (firstLength (done = 0) s.gradient) hlive
      dsimp only
      rw [← hfound]
      generalize htry : tryPoints t x targets s (descent s).1 (descent s).2.1 30
        (firstLength (done = 0) s.gradient) live = tried at htried hfound ⊢
      obtain ⟨live', found⟩ := tried
      cases found with
      | none => exact ⟨(Network.shapes_unpack live' s.params).trans htried, rfl, hs⟩
      | some accepted =>
        obtain ⟨params, loss, gradient⟩ := accepted
        obtain ⟨length, hparams, hobjective, -, -⟩ := lineSearch_eq_some hfound.symm
        have hlength : params.length = (Network.pack layers).length :=
          hparams ▸ hs.length_addScaled hs.length_descent length
        have hgradient : gradient.length = (Network.pack layers).length := by
          have hall := length_objective (t := t) hjoins params
          rwa [hobjective] at hall
        have hnext := hs.accept hs.history_descent hlength hgradient loss
        dsimp only
        split
        · exact ⟨htried, rfl, hnext⟩
        · exact ih _ hnext htried

theorem aligned_first (t : Training α) (hjoins : Network.Joins x.width layers targets.width) :
    (first t x targets layers).Aligned (Network.pack layers).length :=
  ⟨rfl, length_objective hjoins _, nofun⟩

theorem first_eq (t : Training α) (x targets : Matrix α) (layers : List (Layer α)) :
    first t x targets layers =
      ⟨Network.pack layers, (Network.lossAndGradient t.activation t.alpha layers x targets).1,
        Network.pack (Network.lossAndGradient t.activation t.alpha layers x targets).2, []⟩ := by
  rw [first, objective, Network.unpack_pack rfl]

/-- Training in place ends like training. -/
theorem trainInPlace_eq (hjoins : Network.Joins x.width layers targets.width) :
    trainInPlace t x targets layers = train t x targets layers := by
  obtain ⟨hlive, hsearch, haligned⟩ := searchInPlace_eq t hjoins t.limit 0 (aligned_first t hjoins) rfl
  have hplace : trainInPlace t x targets layers =
      let found := searchInPlace t x targets t.limit 0 (first t x targets layers) layers
      (Network.unpack found.1 found.2.1.params, found.2.2, found.2.1.loss) := by
    rw [first_eq]
    rfl
  rw [hplace]
  dsimp only
  rw [hsearch, Network.unpack_eq_unpack hlive.symm haligned.params]
  rfl

end InPlace

/-- Trained layers of floats hold the last accepted parameters, or those that they had before, also if every point was
written into them that was tried. Their loss is the one that was found last, and as many steps are counted as were
accepted. No accepted state has a higher loss than the one before, and the layers have none than they began with,
unless that was no number. -/
theorem train_ends_at_accepted (t : Training Float) {x targets : Matrix Float} {layers : List (Layer Float)}
    (hjoins : Network.Joins x.width layers targets.width) :
    let start := first t x targets layers
    let trace := accepted (objective t x targets layers) t.tolerance t.limit 0 start
    let trained := train t x targets layers
    let loss (layers : List (Layer Float)) := (Network.lossAndGradient t.activation t.alpha layers x targets).1
    trainInPlace t x targets layers = trained ∧
      trained.1.map Layer.shape = layers.map Layer.shape ∧
      Network.pack trained.1 = (trace.getLastD start).params ∧ (trace = [] → trained.1 = layers) ∧
      trained.2.2 = loss trained.1 ∧
      trained.2.1 = trace.length ∧ trace.length ≤ t.limit ∧
      (start :: trace).IsChain (fun s next =>
        Accepts (objective t x targets layers) s next ∧ Scalar.atMost next.loss s.loss = true) ∧
      (Scalar.isNumber (loss layers) = true → Scalar.atMost trained.2.2 (loss layers) = true) := by
  intro start trace trained loss
  have hchain : (start :: trace).IsChain (Accepts (objective t x targets layers)) := isChain_accepted _ _ _ _ _
  have htrained : trained = (Network.unpack layers (trace.getLastD start).params, trace.length,
      (trace.getLastD start).loss) := by
    have hsearch := search_eq_accepted (objective t x targets layers) t.tolerance t.limit 0 start
    show (Network.unpack layers (search _ _ _ _ start).1.params, (search _ _ _ _ start).2,
      (search _ _ _ _ start).1.loss) = _
    rw [hsearch, Nat.zero_add]
  have hlast : objective t x targets layers (trace.getLastD start).params =
      ((trace.getLastD start).loss, (trace.getLastD start).gradient) :=
    last_of_isChain (P := fun s => objective t x targets layers s.params = (s.loss, s.gradient))
      (fun s next hnext _ => hnext.loss.1) hchain rfl
  have hlength : (trace.getLastD start).params.length = (Network.pack layers).length := by
    obtain ⟨-, -, haligned⟩ := searchInPlace_eq t hjoins t.limit 0 (aligned_first t hjoins) rfl
    rw [search_eq_accepted] at haligned
    exact haligned.params
  have hstart : start.loss = loss layers := congrArg State.loss (first_eq t x targets layers)
  rw [htrained]
  refine ⟨(trainInPlace_eq hjoins).trans htrained, Network.shapes_unpack layers _, Network.pack_unpack hlength,
    ?_, ?_, rfl, length_accepted_le _ _ _ _ _, hchain.imp fun s next hnext => ⟨hnext, hnext.loss.2.2⟩, ?_⟩
  · intro hnone
    rw [hnone]
    exact Network.unpack_pack rfl
  · exact (congrArg Prod.fst hlast).symm
  · intro hnumber
    rw [← hstart] at hnumber ⊢
    exact Accepts.atMost_last hchain hnumber

/-- One layer with one input and a unit for each of two classes is trained on one sample. -/
theorem train_ends_at_accepted_coin :
    let layers : List (Layer Float) := [⟨⟨2, [[0, 0]], by simp⟩, [0, 0]⟩]
    let trained := train default (Matrix.ofRow [1]) (Matrix.ofRow [1, 0]) layers
    Network.Joins 1 layers 2 ∧ trainInPlace default (Matrix.ofRow [1]) (Matrix.ofRow [1, 0]) layers = trained ∧
      trained.1.map Layer.shape = [⟨1, 2, 2⟩] ∧ trained.2.1 ≤ 200 := by
  intro layers trained
  have hjoins : Network.Joins 1 layers 2 := ⟨rfl, rfl⟩
  have hjoins' : Network.Joins (Matrix.ofRow [(1 : Float)]).width layers (Matrix.ofRow [(1 : Float), 0]).width := hjoins
  obtain ⟨hplace, hshapes, -, -, -, hsteps, hlimit, -⟩ := train_ends_at_accepted default hjoins'
  exact ⟨hjoins, hplace, hshapes, hsteps.trans_le hlimit⟩

end PackageTriage.QuasiNewton
