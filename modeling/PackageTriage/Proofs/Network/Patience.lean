import PackageTriage.Proofs.Network.Shapes
import PackageTriage.Proofs.Random.Draws
import PackageTriage.Proofs.Scalar.Signs

/-!
# Patience

Training goes on until as many epochs in a row were stale as its patience, and ends right after the last of them, or
at its limit. An epoch of floats is stale if its loss is above the best one before it less the tolerance, which is
more than not to be at most that: where the loss is no number the epoch is not stale, and the count begins anew.
-/

namespace PackageTriage

section Epochs

variable {α σ : Type} [Scalar α] (epoch : σ → σ × α) (tolerance : α) (s : σ)

def stateAfter (epochs : Nat) : σ := (fun s => (epoch s).1)^[epochs] s

def lossOf (k : Nat) : α := (epoch (stateAfter epoch s k)).2

def lossesBefore (k : Nat) : List α := (List.range k).map (lossOf epoch s)

/-- The least loss of the epochs before, infinity for the first one. -/
def bestBefore (k : Nat) : α := (lossesBefore epoch s k).foldl Scalar.min Scalar.infinity

/-- The loss of an epoch lies above the best one before less the tolerance. -/
def IsStale (k : Nat) : Prop := Scalar.less (bestBefore epoch s k - tolerance) (lossOf epoch s k) = true

def observed (k : Nat) : Progress α := (lossesBefore epoch s k).foldl (Progress.observe tolerance) Progress.start

omit [Scalar α] in
theorem stateAfter_succ (k : Nat) : stateAfter epoch s (k + 1) = (epoch (stateAfter epoch s k)).1 :=
  Function.iterate_succ_apply' _ k s

theorem observed_succ (k : Nat) :
    observed epoch tolerance s (k + 1) = (observed epoch tolerance s k).observe tolerance (lossOf epoch s k) := by
  rw [observed, lossesBefore, List.range_succ, List.map_append, List.foldl_append]
  rfl

theorem bestBefore_succ (k : Nat) :
    bestBefore epoch s (k + 1) = Scalar.min (bestBefore epoch s k) (lossOf epoch s k) := by
  rw [bestBefore, lossesBefore, List.range_succ, List.map_append, List.foldl_append]
  rfl

/-- The best loss kept is the least loss so far. -/
theorem best_observed (k : Nat) : (observed epoch tolerance s k).best = bestBefore epoch s k := by
  induction k with
  | zero => rfl
  | succ k ih => rw [observed_succ, bestBefore_succ, Progress.observe, ih]

/-- The count of stale epochs has come to `m` if the last `m` epochs were stale. -/
theorem le_stale_iff (m k : Nat) : m ≤ (observed epoch tolerance s k).stale ↔
    m ≤ k ∧ ∀ j, k ≤ j + m → j < k → IsStale epoch tolerance s j := by
  induction k generalizing m with
  | zero => exact ⟨fun h => ⟨h, fun j _ hj => absurd hj (Nat.not_lt_zero j)⟩, fun h => h.1⟩
  | succ k ih =>
    rw [observed_succ, Progress.observe, best_observed]
    dsimp only
    cases m with
    | zero => exact ⟨fun _ => ⟨Nat.zero_le _, fun j hkj hj => absurd hkj (by omega)⟩, fun _ => Nat.zero_le _⟩
    | succ m =>
      split
      · next hstale =>
        rw [Nat.succ_le_succ_iff, ih, Nat.succ_le_succ_iff]
        refine and_congr_right fun _ => ⟨fun h j hkj hj => ?_, fun h j hkj hj => h j (by omega) (by omega)⟩
        rcases Nat.lt_succ_iff_lt_or_eq.1 hj with hlt | rfl
        · exact h j (by omega) hlt
        · exact hstale
      · next hfresh =>
        refine ⟨fun h => absurd h (Nat.not_succ_le_zero m), fun h => absurd (h.2 k (by omega) (by omega)) hfresh⟩

/-- Training goes on while the count stays below the patience, and ends at the limit or where it does not. -/
theorem runEpochs_observed (patience limit done : Nat) (loss : α) :
    ∃ n, done ≤ n ∧ n ≤ done + limit ∧
      runEpochs epoch tolerance patience limit done (observed epoch tolerance s done) (stateAfter epoch s done) loss =
        (stateAfter epoch s n, n, if n = done then loss else lossOf epoch s (n - 1)) ∧
      (∀ m, done < m → m < n → (observed epoch tolerance s m).stale < patience) ∧
      (n = done + limit ∨ patience ≤ (observed epoch tolerance s n).stale) := by
  induction limit generalizing done loss with
  | zero => exact ⟨done, le_rfl, le_rfl, by rw [runEpochs, if_pos rfl], fun m hm hm' => absurd hm (by omega), .inl rfl⟩
  | succ limit ih =>
    rw [runEpochs]
    dsimp only
    rw [← stateAfter_succ, show (epoch (stateAfter epoch s done)).2 = lossOf epoch s done from rfl, ← observed_succ]
    split
    · next hstale =>
      refine ⟨done + 1, by omega, by omega, ?_, fun m hm hm' => absurd hm' (by omega), .inr hstale⟩
      rw [if_neg (by omega), Nat.add_sub_cancel]
    · next hfresh =>
      obtain ⟨n, hlow, hhigh, hrun, hbefore, hend⟩ := ih (done + 1) (lossOf epoch s done)
      refine ⟨n, by omega, by omega, ?_, fun m hm hm' => ?_, hend.imp_left fun h => by omega⟩
      · rw [hrun, if_neg (show n ≠ done by omega)]
        split
        · next heq => rw [heq, Nat.add_sub_cancel]
        · rfl
      · rcases Nat.lt_or_ge (done + 1) m with hlt | hge
        · exact hbefore m hlt hm'
        · obtain rfl : m = done + 1 := by omega
          exact Nat.lt_of_not_le hfresh

/-- Training ends at its limit, or right after as many stale epochs in a row as its patience. -/
theorem runEpochs_stops {patience : Nat} (hpatience : 1 ≤ patience) (limit : Nat) :
    ∃ n, runEpochs epoch tolerance patience limit 0 Progress.start s Scalar.infinity =
        (stateAfter epoch s n, n, if n = 0 then Scalar.infinity else lossOf epoch s (n - 1)) ∧
      n ≤ limit ∧
      (∀ i, i + patience ≤ n → (∀ j, i ≤ j → j < i + patience → IsStale epoch tolerance s j) → i + patience = n) ∧
      (n = limit ∨ patience ≤ n ∧ ∀ j, n ≤ j + patience → j < n → IsStale epoch tolerance s j) := by
  obtain ⟨n, -, hlimit, hrun, hbefore, hend⟩ := runEpochs_observed epoch tolerance s patience limit 0 Scalar.infinity
  rw [Nat.zero_add] at hlimit hend
  refine ⟨n, hrun, hlimit, fun i hi hstale => ?_, hend.imp_right (le_stale_iff epoch tolerance s patience n).1⟩
  by_contra hne
  have hfew := hbefore (i + patience) (by omega) (by omega)
  have hmany := (le_stale_iff epoch tolerance s patience (i + patience)).2
    ⟨by omega, fun j hj hj' => hstale j (by omega) hj'⟩
  omega

end Epochs

section

variable {α : Type} [Scalar α] [OrderedScalar α]

/-- The least of some scalars passes over those that are no numbers. -/
theorem foldl_min_spec {start : α} (hstart : Scalar.isNumber start = true) (xs : List α) :
    Scalar.isNumber (xs.foldl Scalar.min start) = true ∧
      (xs.foldl Scalar.min start = start ∨ xs.foldl Scalar.min start ∈ xs) ∧
      Scalar.less start (xs.foldl Scalar.min start) = false ∧
      ∀ x ∈ xs, Scalar.less x (xs.foldl Scalar.min start) = false := by
  induction xs generalizing start with
  | nil => exact ⟨hstart, .inl rfl, OrderedScalar.less_irrefl start, nofun⟩
  | cons x xs ih =>
    rw [List.foldl_cons, Scalar.min]
    split
    · next hkeep =>
      obtain ⟨hnumber, hfound, hleast, hall⟩ := ih hstart
      refine ⟨hnumber, hfound.imp_right (List.mem_cons_of_mem x), hleast, List.forall_mem_cons.2 ⟨?_, hall⟩⟩
      by_contra hless
      have hless := eq_true_of_ne_false hless
      rcases (Bool.or_eq_true _ _).mp hkeep with habove | hnone
      · exact Bool.noConfusion (hleast.symm.trans (OrderedScalar.less_trans habove hless))
      · rw [(OrderedScalar.isNumber_of_less hless).1] at hnone
        cases hnone
    · next htake =>
      obtain ⟨habove, hx⟩ := (Bool.or_eq_false_iff).1 (eq_false_of_ne_true htake)
      have hx : Scalar.isNumber x = true := by simpa using hx
      obtain ⟨hnumber, hfound, hleast, hall⟩ := ih hx
      refine ⟨hnumber, .inr ?_, OrderedScalar.not_less_trans hx habove hleast, List.forall_mem_cons.2 ⟨hleast, hall⟩⟩
      rcases hfound with heq | hmem
      · rw [heq]
        exact List.mem_cons_self
      · exact List.mem_cons_of_mem x hmem

/-- What lies above a threshold is a number that is not at most it, and so is the threshold a number. -/
theorem less_iff_not_atMost (a b : α) : Scalar.less a b = true ↔
    Scalar.isNumber a = true ∧ Scalar.isNumber b = true ∧ Scalar.atMost b a = false := by
  constructor
  · intro h
    obtain ⟨ha, hb⟩ := OrderedScalar.isNumber_of_less h
    exact ⟨ha, hb, by rw [OrderedScalar.atMost_eq hb ha, h]; rfl⟩
  · rintro ⟨ha, hb, h⟩
    rw [OrderedScalar.atMost_eq hb ha] at h
    simpa using h

end

/-- There are at most as many batches as samples. -/
theorem length_batches_le {β : Type} (size : Nat) (xs : List β) : (batches size xs).length ≤ xs.length := by
  fun_induction batches size xs with
  | case1 => exact Nat.zero_le _
  | case2 xs hne ih =>
    have hpos := List.length_pos_iff.2 hne
    rw [List.length_drop] at ih
    rw [List.length_cons]
    omega

namespace Stochastic

section

variable {α σ : Type} [Scalar α]

/-- Batch after batch is counted, and the order of the samples stays. -/
theorem step_visits (t : Training α) (x targets : Matrix α) (batches : List (List Nat)) (acc : EpochState α σ × α) :
    (batches.foldl (visit t x targets) acc).1.step = acc.1.step + batches.length ∧
      (batches.foldl (visit t x targets) acc).1.order = acc.1.order := by
  induction batches generalizing acc with
  | nil => exact ⟨rfl, rfl⟩
  | cons places batches ih =>
    obtain ⟨hstep, horder⟩ := ih (visit t x targets acc places)
    refine ⟨hstep.trans ?_, horder⟩
    rw [List.length_cons, Nat.add_comm batches.length, ← Nat.add_assoc]
    rfl

variable [Generator σ]

/-- An epoch has at most as many batches as there are samples. -/
theorem step_epoch_le (t : Training α) (x targets : Matrix α) (s : EpochState α σ) :
    (epoch t x targets s).1.step ≤ s.step + s.order.length ∧
      (epoch t x targets s).1.order.length = s.order.length := by
  have hshuffle := (Generator.shuffle_perm s.order s.generator).length_eq
  obtain ⟨hstep, horder⟩ := step_visits t x targets
    (batches (batchSize t x.height - 1) (Generator.shuffle s.order s.generator).1)
    ({ s with order := (Generator.shuffle s.order s.generator).1,
              generator := (Generator.shuffle s.order s.generator).2 }, 0)
  have hbatches := length_batches_le (batchSize t x.height - 1) (Generator.shuffle s.order s.generator).1
  exact ⟨hstep.trans_le (Nat.add_le_add_left (hbatches.trans_eq hshuffle) _), horder ▸ hshuffle⟩

/-- The steps counted grow by at most the samples in every epoch. -/
theorem step_stateAfter_le (t : Training α) (x targets : Matrix α) (s : EpochState α σ) (k : Nat) :
    (stateAfter (epoch t x targets) s k).step ≤ s.step + k * s.order.length ∧
      (stateAfter (epoch t x targets) s k).order.length = s.order.length := by
  induction k with
  | zero => exact ⟨by rw [Nat.zero_mul]; rfl, rfl⟩
  | succ k ih =>
    obtain ⟨hstep, horder⟩ := step_epoch_le t x targets (stateAfter (epoch t x targets) s k)
    obtain ⟨hbefore, hsame⟩ := ih
    rw [stateAfter_succ, Nat.succ_mul]
    exact ⟨by omega, horder.trans hsame⟩

/-- If all epochs that are allowed go through fewer than `2 ^ 31` samples together, then 32 bits with a sign hold the
number of batches all along. -/
theorem step_lt (t : Training α) (x targets : Matrix α) (layers : List (Layer α)) (g : σ)
    (hfew : t.limit * x.height < 2 ^ 31) {k : Nat} (hk : k ≤ t.limit) :
    (stateAfter (epoch t x targets) ⟨layers.map Moving.start, 0, List.range x.height, g⟩ k).step < 2 ^ 31 := by
  have hstep := (step_stateAfter_le t x targets ⟨layers.map Moving.start, 0, List.range x.height, g⟩ k).1
  rw [List.length_range, Nat.zero_add] at hstep
  exact (hstep.trans (Nat.mul_le_mul_right _ hk)).trans_lt hfew

end

/-- A training with some patience runs at most as many epochs as its limit, and the count it gives is that of the
epochs. It ends right after as many stale epochs in a row as its patience, and else only at the limit. An epoch is
stale if its loss and the threshold are numbers and the loss is not at most the threshold, which is the least earlier
loss that is a number, or infinity, less the tolerance. -/
theorem train_stops {σ : Type} [Generator σ] (t : Training Float) (x targets : Matrix Float)
    (layers : List (Layer Float)) (g : σ) (hpatience : 1 ≤ t.patience) :
    let epoch : EpochState Float σ → EpochState Float σ × Float := epoch t x targets
    let start : EpochState Float σ := ⟨layers.map Moving.start, 0, List.range x.height, g⟩
    let loss := lossOf epoch start
    let best := bestBefore epoch start
    let stale := IsStale epoch t.tolerance start
    (∃ n, train t x targets layers g =
        ((stateAfter epoch start n).layers.map (·.layer), n, if n = 0 then Scalar.infinity else loss (n - 1)) ∧
      n ≤ t.limit ∧
      (∀ i, i + t.patience ≤ n → (∀ j, i ≤ j → j < i + t.patience → stale j) → i + t.patience = n) ∧
      (n = t.limit ∨ t.patience ≤ n ∧ ∀ j, n ≤ j + t.patience → j < n → stale j)) ∧
    ∀ k, (stale k ↔ Scalar.isNumber (best k - t.tolerance) = true ∧ Scalar.isNumber (loss k) = true ∧
        Scalar.atMost (loss k) (best k - t.tolerance) = false) ∧
      (best k = Scalar.infinity ∨ ∃ j < k, best k = loss j) ∧
      ∀ j < k, Scalar.less (loss j) (best k) = false := by
  intro epoch start loss best stale
  refine ⟨?_, fun k => ?_⟩
  · obtain ⟨n, hrun, hlimit, hright, hend⟩ := runEpochs_stops epoch t.tolerance start hpatience t.limit
    refine ⟨n, ?_, hlimit, hright, hend⟩
    rw [train]
    dsimp only
    rw [hrun]
  · have htop : Scalar.isNumber (Scalar.infinity : Float) = true := rfl
    obtain ⟨-, hfound, -, hleast⟩ := foldl_min_spec htop (lossesBefore epoch start k)
    refine ⟨less_iff_not_atMost _ _, hfound.imp_right fun hmem => ?_, fun j hj => ?_⟩
    · obtain ⟨j, hj, heq⟩ := List.mem_map.1 hmem
      exact ⟨j, List.mem_range.1 hj, heq.symm⟩
    · exact hleast _ (List.mem_map_of_mem (List.mem_range.2 hj))

/-- One sample of one feature and two classes, two hundred epochs at most and ten of patience. -/
theorem train_stops_default :
    let t : Training Float := default
    let layers : List (Layer Float) := [⟨⟨2, [[0, 0]], by simp⟩, [0, 0]⟩]
    let epoch : EpochState Float Xoshiro → EpochState Float Xoshiro × Float :=
      epoch t (Matrix.ofRow [1]) (Matrix.ofRow [1, 0])
    let start : EpochState Float Xoshiro := ⟨layers.map Moving.start, 0, [0], Xoshiro.ofSeed 21⟩
    1 ≤ t.patience ∧
      ∃ n ≤ 200, (train t (Matrix.ofRow [1]) (Matrix.ofRow [1, 0]) layers (Xoshiro.ofSeed 21)).2.1 = n ∧
        (n = 200 ∨ 10 ≤ n ∧ ∀ j, n ≤ j + 10 → j < n → IsStale epoch t.tolerance start j) := by
  intro t layers epoch start
  obtain ⟨⟨n, hrun, hlimit, -, hend⟩, -⟩ :=
    train_stops t (Matrix.ofRow [1]) (Matrix.ofRow [1, 0]) layers (Xoshiro.ofSeed 21) (by decide)
  exact ⟨by decide, n, hlimit, congrArg (fun r => r.2.1) hrun, hend⟩

section Restless

open Binary

def unitLayer (w b : Float) : Layer Float := ⟨⟨1, [[w]], by simp⟩, [b]⟩

/-- Two layers of one unit each are in motion, the first with the weight `w`. -/
def IsSmall (w : Float) (ms : List (Moving Float)) : Prop :=
  ∃ b f g v c h i e e', ms = [⟨unitLayer w b, unitLayer f g, e⟩, ⟨unitLayer v c, unitLayer h i, e'⟩]

def restless : Training Float :=
  { (default : Training Float) with hidden := [1], solver := .sgd, limit := 3, patience := 1 }

variable {σ : Type} {x : Float}

/-- A batch of one sample that is no number makes the weight none, and has no loss if the weight was none. -/
theorem visit_small (hx : Undefined x) {s : EpochState Float σ} {w : Float} (hs : IsSmall w s.layers)
    (total y : Float) :
    (∃ w', Undefined w' ∧ IsSmall w' (visit restless (Matrix.ofRow [x]) (Matrix.ofRow [y]) (s, total) [0]).1.layers) ∧
    (Undefined w → Undefined (visit restless (Matrix.ofRow [x]) (Matrix.ofRow [y]) (s, total) [0]).2) := by
  obtain ⟨b, f, g, v, c, h, i, e, e', hs⟩ := hs
  have hmoved : ∃ δ, IsSmall
      (w + (f * restless.momentum - (0 + x * δ + w * (restless.alpha / ((1 : Nat) : Float))) * restless.rate))
      (visit restless (Matrix.ofRow [x]) (Matrix.ofRow [y]) (s, total) [0]).1.layers := by
    rw [visit, hs]
    exact ⟨_, _, _, _, _, _, _, _, _, _, rfl⟩
  have hloss : ∃ entropy start squares,
      (visit restless (Matrix.ofRow [x]) (Matrix.ofRow [y]) (s, total) [0]).2 =
        total + (entropy + Scalar.half * restless.alpha * (0 + (start + w * w) + squares) / ((1 : Nat) : Float)) *
          ((1 : Nat) : Float) := by
    rw [visit, hs]
    exact ⟨_, _, _, rfl⟩
  obtain ⟨δ, hmoved⟩ := hmoved
  obtain ⟨entropy, start, squares, hloss⟩ := hloss
  refine ⟨⟨_, ?_, hmoved⟩, fun hw => ?_⟩
  · have hslope : Undefined (0 + x * δ + w * (restless.alpha / ((1 : Nat) : Float))) :=
      Undefined.add (.inl (Undefined.add (.inr (Undefined.mul (.inl hx)))))
    exact Undefined.add (.inr (Undefined.sub (.inr (Undefined.mul (.inl hslope)))))
  · have hsquares : Undefined (0 + (start + w * w) + squares) :=
      Undefined.add (.inl (Undefined.add (.inr (Undefined.add (.inr (Undefined.mul (.inl hw)))))))
    rw [hloss]
    have hpenalty : Undefined (Scalar.half * restless.alpha * (0 + (start + w * w) + squares) / ((1 : Nat) : Float)) :=
      (Undefined.mul (.inr hsquares)).div _
    exact Undefined.add (.inr (Undefined.mul (.inl (Undefined.add (.inr hpenalty)))))

variable [Generator σ]

/-- An epoch on data that are no numbers leaves the small network small. -/
theorem epoch_small (hx : Undefined x) {s : EpochState Float σ} {w : Float} (hs : IsSmall w s.layers)
    (horder : s.order = [0]) (y : Float) :
    ((epoch restless (Matrix.ofRow [x]) (Matrix.ofRow [y]) s).1.order = [0] ∧
      ∃ w', Undefined w' ∧ IsSmall w' (epoch restless (Matrix.ofRow [x]) (Matrix.ofRow [y]) s).1.layers) ∧
    (Undefined w → Undefined (epoch restless (Matrix.ofRow [x]) (Matrix.ofRow [y]) s).2) := by
  have hbatches : batches (batchSize restless (Matrix.ofRow [x]).height - 1) [0] = [[0]] := by
    have hsize : batchSize restless (Matrix.ofRow [x]).height = 1 := rfl
    rw [hsize, batches, dif_neg (by simp), batches]
    rfl
  have hepoch : epoch restless (Matrix.ofRow [x]) (Matrix.ofRow [y]) s =
      ((visit restless (Matrix.ofRow [x]) (Matrix.ofRow [y]) ({ s with order := [0] }, 0) [0]).1,
        (visit restless (Matrix.ofRow [x]) (Matrix.ofRow [y]) ({ s with order := [0] }, 0) [0]).2 /
          ((1 : Nat) : Float)) := by
    rw [epoch, horder, show Generator.shuffle [0] s.generator = ([0], s.generator) from rfl]
    dsimp only
    rw [hbatches]
    rfl
  obtain ⟨hmoved, hloss⟩ := visit_small (s := { s with order := [0] }) hx hs 0 y
  rw [hepoch]
  exact ⟨⟨rfl, hmoved⟩, fun hw => (hloss hw).div _⟩

theorem small_after (hx : Undefined x) (y : Float) {start : EpochState Float σ} {w : Float}
    (hsmall : IsSmall w start.layers) (horder : start.order = [0]) (k : Nat) :
    (stateAfter (epoch restless (Matrix.ofRow [x]) (Matrix.ofRow [y])) start k).order = [0] ∧
      ∃ w', (1 ≤ k → Undefined w') ∧
        IsSmall w' (stateAfter (epoch restless (Matrix.ofRow [x]) (Matrix.ofRow [y])) start k).layers := by
  induction k with
  | zero => exact ⟨horder, w, fun h => absurd h (Nat.not_succ_le_zero 0), hsmall⟩
  | succ k ih =>
    obtain ⟨horder, w, -, hw⟩ := ih
    obtain ⟨⟨horder', w', hundefined, hw'⟩, -⟩ := epoch_small hx hw horder y
    rw [stateAfter_succ]
    exact ⟨horder', w', fun _ => hundefined, hw'⟩

/-- From the second epoch on there is no loss. -/
theorem undefined_lossOf (hx : Undefined x) (y : Float) {start : EpochState Float σ} {w : Float}
    (hsmall : IsSmall w start.layers) (horder : start.order = [0]) {k : Nat} (hk : 1 ≤ k) :
    Undefined (lossOf (epoch restless (Matrix.ofRow [x]) (Matrix.ofRow [y])) start k) := by
  obtain ⟨horder', w', hundefined, hw'⟩ := small_after hx y hsmall horder k
  exact (epoch_small hx hw' horder' y).2 (hundefined hk)

theorem not_isStale (hx : Undefined x) (y : Float) {start : EpochState Float σ} {w : Float}
    (hsmall : IsSmall w start.layers) (horder : start.order = [0]) (k : Nat) :
    ¬IsStale (epoch restless (Matrix.ofRow [x]) (Matrix.ofRow [y])) restless.tolerance start k := by
  intro hstale
  rcases Nat.eq_zero_or_pos k with rfl | hk
  · -- Before the first epoch the threshold is infinity, and no loss lies above it.
    have hthreshold : bestBefore (epoch restless (Matrix.ofRow [x]) (Matrix.ofRow [y])) start 0 - restless.tolerance =
        Scalar.infinity - restless.tolerance := rfl
    have htop : standing (Scalar.infinity - restless.tolerance) = ((⊤ : WithTop ℚ) : WithBot (WithTop ℚ)) :=
      standing_of_top rfl
    rw [IsStale, hthreshold] at hstale
    obtain ⟨-, -, habove⟩ := less_iff_standing.1 hstale
    exact absurd habove (not_lt_of_ge (htop.symm ▸ le_top))
  · have hnone := (undefined_lossOf hx y hsmall horder hk).not_isNumber
    obtain ⟨-, hnumber, -⟩ := less_iff_standing.1 hstale
    exact Bool.noConfusion (hnone.symm.trans hnumber)

/-- As no epoch is stale, all three are run. -/
theorem epochs_small (hx : Undefined x) (y : Float) {layers : List (Layer Float)} {w : Float}
    (hsmall : IsSmall w (layers.map Moving.start)) (g : σ) :
    (train restless (Matrix.ofRow [x]) (Matrix.ofRow [y]) layers g).2.1 = 3 := by
  have hpatience : 1 ≤ restless.patience := le_rfl
  obtain ⟨n, hrun, -, -, hend⟩ :=
    runEpochs_stops (epoch restless (Matrix.ofRow [x]) (Matrix.ofRow [y])) restless.tolerance
      ⟨layers.map Moving.start, 0, List.range 1, g⟩ hpatience restless.limit
  have htrain : (train restless (Matrix.ofRow [x]) (Matrix.ofRow [y]) layers g).2.1 = n := by
    rw [train]
    dsimp only
    exact congrArg (fun r => r.2.1) hrun
  rw [htrain]
  obtain hlimit | ⟨hsome, hlast⟩ := hend
  · exact hlimit
  · exact absurd (hlast (n - 1) (by omega) (by omega)) (not_isStale hx y hsmall rfl (n - 1))

theorem exists_unitLayer {l : Layer Float} (h : l.shape = ⟨1, 1, 1⟩) : ∃ w b, l = unitLayer w b := by
  obtain ⟨⟨width, rows, hrows⟩, bias⟩ := l
  obtain ⟨hinputs, hunits, hbias⟩ := LayerShape.mk.inj h
  obtain rfl : width = 1 := hunits
  obtain ⟨row, rfl⟩ := List.length_eq_one_iff.1 hinputs
  obtain ⟨w, rfl⟩ := List.length_eq_one_iff.1 (hrows row List.mem_cons_self)
  obtain ⟨b, rfl⟩ := List.length_eq_one_iff.1 hbias
  exact ⟨w, b, rfl⟩

theorem isSmall_drawn (x : Float) :
    ∃ w, IsSmall w (((Perceptron.unfitted restless).drawn (Matrix.ofRow [x]) [0]).1.map Moving.start) := by
  have hclasses : (Classes.distinct [(0 : Float)]).length = 1 := by
    simp [Classes.distinct, Classes.dropRepeats, Classes.dropRepeats.dropAfter]
  have hshapes := Perceptron.shapes_drawn (Perceptron.unfitted restless) (Matrix.ofRow [x]) [0]
  rw [hclasses] at hshapes
  obtain ⟨l, ls, hlayers, hl, hls⟩ := List.map_eq_cons_iff.1 hshapes
  obtain ⟨l', ls', rfl, hl', hls'⟩ := List.map_eq_cons_iff.1 hls
  obtain rfl := List.map_eq_nil_iff.1 hls'
  obtain ⟨w, b, rfl⟩ := exists_unitLayer hl
  obtain ⟨v, c, rfl⟩ := exists_unitLayer hl'
  rw [hlayers]
  exact ⟨w, b, _, _, v, c, _, _, _, _, rfl⟩

/-- A perceptron that is to stop after one epoch without progress is fitted to a sample that is no number. The losses
of its second and third epoch are not at most any threshold, yet it stops only at its limit. -/
theorem restless_goes_on :
    let p := Perceptron.unfitted restless
    let x : Matrix Float := Matrix.ofRow [0 / 0]
    let epoch : EpochState Float Xoshiro → EpochState Float Xoshiro × Float :=
      epoch restless x (Network.targets [0] [0])
    let start : EpochState Float Xoshiro :=
      ⟨(p.drawn x [0]).1.map Moving.start, 0, List.range x.height, (p.drawn x [0]).2⟩
    restless.patience = 1 ∧ (∃ q, p.fit x [0] = .ok q ∧ q.iterations = 3) ∧
      ∀ k, k = 1 ∨ k = 2 →
        Scalar.atMost (lossOf epoch start k) (bestBefore epoch start k - restless.tolerance) = false := by
  intro p x epoch start
  have hx : Undefined (0 / 0) := rfl
  have hclasses : Classes.distinct [(0 : Float)] = [0] := by
    simp [Classes.distinct, Classes.dropRepeats, Classes.dropRepeats.dropAfter]
  have htargets : Network.targets [(0 : Float)] [0] =
      Matrix.ofRow [if 0 = (Classes.index? [(0 : Float)] 0).getD 0 then 1 else 0] := rfl
  have hepoch : epoch = Stochastic.epoch restless x
      (Matrix.ofRow [if 0 = (Classes.index? [(0 : Float)] 0).getD 0 then 1 else 0]) := by
    rw [← htargets]
  obtain ⟨w, hsmall⟩ := isSmall_drawn (0 / 0)
  refine ⟨rfl, ?_, fun k hk => ?_⟩
  · refine ⟨⟨restless, (p.trained x [0]).1.map (·.weights), (p.trained x [0]).1.map (·.bias), x.width,
      Classes.distinct [0], (p.trained x [0]).2.1, (p.trained x [0]).2.2⟩, ?_, ?_⟩
    · have hcheck : Perceptron.check restless = .ok () := by decide +kernel
      rw [Perceptron.fit, Perceptron.refit, show p.training = restless from rfl]
      dsimp only
      rw [hcheck]
      rfl
    · show (p.trained x [0]).2.1 = 3
      rw [Perceptron.trained, hclasses, htargets]
      exact epochs_small hx _ hsmall _
  · rw [hepoch]
    exact (undefined_lossOf hx _ hsmall rfl (by omega)).not_atMost _

end Restless

end Stochastic

end PackageTriage
