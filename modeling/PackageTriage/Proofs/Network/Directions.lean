import PackageTriage.Network.QuasiNewton
import PackageTriage.Proofs.Scalar.Reals

/-!
# Directions lead down

In exact arithmetic the way back through the steps and the way forth are one recursion over the steps, latest
first: each takes its share out of the gradient, has the earlier steps turn the rest, and puts in its part of
what it took. What a turn adds to the product of the gradient with its turn is the square of the share times
the product of the step with its change of gradient. So the product is positive as long as these are, and the
direction, which is the turned gradient the other way round, leads down.
-/

namespace PackageTriage.QuasiNewton

section Products

variable {n : Nat} {a b v : List ℝ}

theorem dot_cons (x y : ℝ) (a b : List ℝ) : Scalar.dot (x :: a) (y :: b) = x * y + Scalar.dot a b := by
  rw [Scalar.dot, Scalar.dot, Scalar.sum_real, Scalar.sum_real, List.zipWith_cons_cons, List.sum_cons]

theorem dot_nil (b : List ℝ) : Scalar.dot [] b = 0 := rfl

theorem dot_comm (a b : List ℝ) : Scalar.dot a b = Scalar.dot b a := by
  rw [Scalar.dot, Scalar.dot, List.zipWith_comm_of_comm mul_comm]

theorem dot_addScaled (h : a.length = b.length) (c : ℝ) (v : List ℝ) :
    Scalar.dot (addScaled a c b) v = Scalar.dot a v + c * Scalar.dot b v := by
  induction a generalizing b v with
  | nil =>
    obtain rfl := List.length_eq_zero_iff.1 h.symm
    rw [addScaled, List.zipWith_nil_left, dot_nil, mul_zero, add_zero]
  | cons x a ih =>
    cases b with
    | nil => cases h
    | cons y b =>
      cases v with
      | nil => simp [Scalar.dot, Scalar.sum]
      | cons z v =>
        have hrest := ih (Nat.succ.inj h) v
        rw [addScaled] at hrest
        rw [addScaled, List.zipWith_cons_cons, dot_cons, dot_cons, dot_cons, hrest]
        ring

theorem dot_map_mul (a : List ℝ) (c : ℝ) (v : List ℝ) : Scalar.dot (a.map (· * c)) v = c * Scalar.dot a v := by
  induction a generalizing v with
  | nil => rw [List.map_nil, dot_nil, mul_zero]
  | cons x a ih =>
    cases v with
    | nil => simp [Scalar.dot, Scalar.sum]
    | cons y v =>
      rw [List.map_cons, dot_cons, dot_cons, ih]
      ring

theorem dot_map_neg (a v : List ℝ) : Scalar.dot (a.map (- ·)) v = - Scalar.dot a v := by
  have hneg : a.map (- ·) = a.map (· * (-1 : ℝ)) := List.map_congr_left fun x _ => (mul_neg_one x).symm
  rw [hneg, dot_map_mul, neg_one_mul]

theorem subScaled_eq (a : List ℝ) (c : ℝ) (b : List ℝ) : subScaled a c b = addScaled a (-c) b := by
  have hentry : (fun u v : ℝ => u - c * v) = fun u v => u + -c * v := by
    funext u v
    rw [neg_mul, sub_eq_add_neg]
  rw [subScaled, addScaled, hentry]

theorem dot_of_zero (h : ∀ x ∈ a, x = 0) (v : List ℝ) : Scalar.dot a v = 0 := by
  induction a generalizing v with
  | nil => exact dot_nil v
  | cons x a ih =>
    cases v with
    | nil => rw [dot_comm, dot_nil]
    | cons y v =>
      rw [dot_cons, h x List.mem_cons_self, ih fun x' hx' => h x' (List.mem_cons_of_mem x hx'), zero_mul, add_zero]

theorem dot_self_nonneg (a : List ℝ) : 0 ≤ Scalar.dot a a := by
  induction a with
  | nil => exact le_of_eq (dot_nil []).symm
  | cons x a ih =>
    rw [dot_cons]
    exact add_nonneg (mul_self_nonneg x) ih

theorem dot_self_pos (h : ∃ x ∈ a, x ≠ 0) : 0 < Scalar.dot a a := by
  induction a with
  | nil =>
    obtain ⟨x, hx, -⟩ := h
    cases hx
  | cons x a ih =>
    rw [dot_cons]
    by_cases hx : x = 0
    · obtain ⟨z, hz, hz0⟩ := h
      have hrest : ∃ z ∈ a, z ≠ 0 := ⟨z, (List.mem_cons.1 hz).resolve_left fun he => hz0 (he.trans hx), hz0⟩
      exact add_pos_of_nonneg_of_pos (mul_self_nonneg x) (ih hrest)
    · exact add_pos_of_pos_of_nonneg (mul_self_pos.2 hx) (dot_self_nonneg a)

theorem addScaled_zero (h : a.length = b.length) : addScaled a 0 b = a := by
  induction a generalizing b with
  | nil => rfl
  | cons x a ih =>
    cases b with
    | nil => cases h
    | cons y b =>
      have hrest := ih (Nat.succ.inj h)
      rw [addScaled] at hrest
      rw [addScaled, List.zipWith_cons_cons, hrest, zero_mul, add_zero]

end Products

section Turning

variable {α : Type} [Scalar α]

/-- A list turned by steps, latest first: one recursion for the way back and the way forth. -/
def turn (scale : α) : (latestFirst : List (Pair α)) → (q : List α) → List α
  | [], q => q.map (· * scale)
  | p :: ps, q =>
    let turned := turn scale ps (subScaled q (p.rho * Scalar.dot p.s q) p.y)
    addScaled turned (p.rho * Scalar.dot p.s q - p.rho * Scalar.dot p.y turned) p.s

theorem length_shares (ps : List (Pair α)) (q : List α) : (backward ps q).2.length = ps.length := by
  induction ps generalizing q with
  | nil => rfl
  | cons p ps ih => simp [backward, ih]

/-- The second loop runs through a cut list part by part. -/
theorem forward_append (front back : List (Pair α × α)) (q : List α) :
    forward (front ++ back) q = forward back (forward front q) := by
  induction front generalizing q with
  | nil => rfl
  | cons p front ih => exact ih _

/-- The way forth after the way back. -/
theorem forward_backward (scale : α) (ps : List (Pair α)) (q : List α) :
    forward (ps.zip (backward ps q).2).reverse ((backward ps q).1.map (· * scale)) = turn scale ps q := by
  induction ps generalizing q with
  | nil => rfl
  | cons p ps ih =>
    rw [backward, turn]
    dsimp only
    rw [List.zip_cons_cons, List.reverse_cons, forward_append, ih]
    rfl

/-- The two loops as one recursion over the reversed history. -/
theorem direction_eq (g : List α) (h : List (Pair α)) :
    direction g h = (turn (scaling h) h.reverse g).map (- ·) := by
  have hlength : h.reverse.length = (backward h.reverse g).2.length := (length_shares _ g).symm
  have hpairs : h.zip (backward h.reverse g).2.reverse = (h.reverse.zip (backward h.reverse g).2).reverse := by
    rw [List.zip_eq_zipWith, List.zip_eq_zipWith, List.reverse_zipWith hlength, List.reverse_reverse]
  rw [direction]
  dsimp only
  rw [hpairs, forward_backward]

/-- Steps of one length keep it. -/
theorem length_turn_of {n : Nat} {scale : α} {ps : List (Pair α)} (hps : ∀ p ∈ ps, p.s.length = n ∧ p.y.length = n)
    {q : List α} (hq : q.length = n) : (turn scale ps q).length = n := by
  induction ps generalizing q with
  | nil => exact (List.length_map _).trans hq
  | cons p ps ih =>
    obtain ⟨hs, hy⟩ := hps p List.mem_cons_self
    have hsub (share : α) : (subScaled q share p.y).length = n := by
      rw [subScaled, List.length_zipWith, hq, hy, Nat.min_self]
    have hrest := ih (fun p' hp' => hps p' (List.mem_cons_of_mem p hp')) (hsub (p.rho * Scalar.dot p.s q))
    rw [turn, addScaled, List.length_zipWith, hrest, hs, Nat.min_self]

theorem length_direction {n : Nat} {g : List α} {h : List (Pair α)} (hg : g.length = n)
    (hh : ∀ p ∈ h, p.s.length = n ∧ p.y.length = n) : (direction g h).length = n := by
  rw [direction_eq, List.length_map, length_turn_of (fun p hp => hh p (List.mem_reverse.1 hp)) hg]

end Turning

/-- A step that leads to a steeper gradient, of the length of the parameters. -/
structure Pair.Sound (length : Nat) (p : Pair ℝ) : Prop where
  length_s : p.s.length = length
  length_y : p.y.length = length
  dot_pos : 0 < Scalar.dot p.s p.y
  rho_eq : p.rho = 1 / Scalar.dot p.s p.y

variable {n : Nat} {scale : ℝ}

theorem Pair.Sound.length_rest {p : Pair ℝ} (hp : p.Sound n) {q : List ℝ} (hq : q.length = n) (share : ℝ) :
    (subScaled q share p.y).length = n := by
  rw [subScaled, List.length_zipWith, hq, hp.length_y, Nat.min_self]

theorem length_turn {ps : List (Pair ℝ)} (hps : ∀ p ∈ ps, p.Sound n) {q : List ℝ} (hq : q.length = n) :
    (turn scale ps q).length = n :=
  length_turn_of (fun p hp => ⟨(hps p hp).length_s, (hps p hp).length_y⟩) hq

/-- What one step adds to the product of a list with its turn. -/
theorem Pair.Sound.dot_turn {p : Pair ℝ} (hp : p.Sound n) {ps : List (Pair ℝ)} (hps : ∀ p' ∈ ps, p'.Sound n)
    {q : List ℝ} (hq : q.length = n) :
    Scalar.dot (turn scale (p :: ps) q) q =
      Scalar.dot (turn scale ps (subScaled q (p.rho * Scalar.dot p.s q) p.y))
          (subScaled q (p.rho * Scalar.dot p.s q) p.y) +
        (p.rho * Scalar.dot p.s q) ^ 2 * Scalar.dot p.s p.y := by
  have hrho : p.rho * Scalar.dot p.s p.y = 1 := by
    rw [hp.rho_eq, one_div, inv_mul_cancel₀ hp.dot_pos.ne']
  have hturned : ∀ share, (turn scale ps (subScaled q share p.y)).length = p.s.length := by
    intro share
    exact (length_turn hps (hp.length_rest hq share)).trans hp.length_s.symm
  rw [turn, dot_addScaled (hturned _), dot_comm _ (subScaled _ _ _), subScaled_eq,
    dot_addScaled (hq.trans hp.length_y.symm), dot_comm _ q]
  linear_combination -(p.rho * Scalar.dot p.s q ^ 2) * hrho

/-- Sound steps turn a list by less than a right angle. -/
theorem dot_turn_pos (hscale : 0 < scale) {ps : List (Pair ℝ)} (hps : ∀ p ∈ ps, p.Sound n) {q : List ℝ}
    (hq : q.length = n) (hne : ∃ x ∈ q, x ≠ 0) : 0 < Scalar.dot (turn scale ps q) q := by
  induction ps generalizing q with
  | nil =>
    rw [turn, dot_map_mul]
    exact mul_pos hscale (dot_self_pos hne)
  | cons p ps ih =>
    have hp := hps p List.mem_cons_self
    have hps' : ∀ p' ∈ ps, p'.Sound n := fun p' hp' => hps p' (List.mem_cons_of_mem p hp')
    rw [hp.dot_turn hps' hq]
    by_cases hrest : ∃ x ∈ subScaled q (p.rho * Scalar.dot p.s q) p.y, x ≠ 0
    · exact add_pos_of_pos_of_nonneg (ih hps' (hp.length_rest hq _) hrest)
        (mul_nonneg (sq_nonneg _) hp.dot_pos.le)
    · -- Nothing is left: then the step took its share, since there was something to take it from.
      have hshare : p.rho * Scalar.dot p.s q ≠ 0 := by
        intro hzero
        rw [hzero, subScaled_eq, neg_zero, addScaled_zero (hq.trans hp.length_y.symm)] at hrest
        exact hrest hne
      push Not at hrest
      rw [dot_comm, dot_of_zero hrest, zero_add]
      exact mul_pos (sq_pos_of_ne_zero hshare) hp.dot_pos

/-- The scaling of a sound history is positive. -/
theorem scaling_pos {h : List (Pair ℝ)} (hh : ∀ p ∈ h, p.Sound n) : 0 < scaling h := by
  rw [scaling]
  split
  · next p hp =>
    have hsound := hh p (List.mem_of_getLast? hp)
    have hne : ∃ x ∈ p.y, x ≠ 0 := by
      by_contra hzero
      push Not at hzero
      exact hsound.dot_pos.ne' ((dot_comm _ _).trans (dot_of_zero hzero _))
    exact div_pos hsound.dot_pos (dot_self_pos hne)
  · exact one_pos

/-- A direction found from sound steps leads down. -/
theorem dot_direction_neg {g : List ℝ} {h : List (Pair ℝ)} (hg : ∃ x ∈ g, x ≠ 0)
    (hh : ∀ p ∈ h, p.Sound g.length) : Scalar.dot (direction g h) g < 0 := by
  have hreverse : ∀ p ∈ h.reverse, p.Sound g.length := fun p hp => hh p (List.mem_reverse.1 hp)
  rw [direction_eq, dot_map_neg]
  exact neg_lt_zero.2 (dot_turn_pos (scaling_pos hh) hreverse rfl hg)

end PackageTriage.QuasiNewton
