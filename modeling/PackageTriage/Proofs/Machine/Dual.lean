import PackageTriage.Proofs.Machine.Balance
import PackageTriage.Proofs.Machine.Box

/-!
# The dual and the moves that count

Along the segment of two samples the dual is a parabola in the multiplier of the partner: its slope is made of
the difference of the two errors, in which the bias cancels, and it bends with the curvature of the segment.
The partner goes to the top, or towards it as far as the segment reaches; since it sets out from the segment
the clamp never takes it further than the top. So the dual gains at least half of what the parabola bends over
the distance, and a move that counts is a long one.
-/

namespace PackageTriage.Smo.Problem

variable {n : Nat} {σ : Type} (p : Problem ℝ n)

/-- What the multipliers are to make large. -/
noncomputable def dual (alpha : Vector ℝ n) : ℝ :=
  ∑ k : Fin n, alpha.get k -
    (∑ k : Fin n, ∑ l : Fin n,
      alpha.get k * alpha.get l * p.y.get k * p.y.get l * (p.kernel.get k).get l) / Scalar.two

/-- The decision function at a sample, but for the bias. -/
noncomputable def pull (alpha : Vector ℝ n) (k : Fin n) : ℝ :=
  ∑ l : Fin n, alpha.get l * (p.y.get l * (p.kernel.get l).get k)

theorem foldl_add (n : Nat) (f : Fin n → ℝ) (start : ℝ) :
    Fin.foldl n (fun sum i => sum + f i) start = start + ∑ i : Fin n, f i := by
  induction n with
  | zero => rw [Fin.foldl_zero, Fin.sum_univ_zero, add_zero]
  | succ n ih => rw [Fin.foldl_succ_last, ih, Fin.sum_univ_castSucc, add_assoc]

theorem decision_eq (s : State ℝ n) (k : Fin n) : p.decision s k = s.bias + p.pull s.alpha k := by
  have hterms : ∑ l : Fin n, s.alpha[l] * p.y[l] * p.kernel[l][k] = p.pull s.alpha k :=
    Finset.sum_congr rfl fun l _ => mul_assoc _ _ _
  rw [decision, foldl_add, hterms]

/-- The bias cancels in the difference of two errors. -/
theorem error_sub_error (s : State ℝ n) (i j : Fin n) :
    p.error s i - p.error s j = p.pull s.alpha i - p.pull s.alpha j - (p.y.get i - p.y.get j) := by
  rw [error, error, decision_eq, decision_eq]
  show s.bias + p.pull s.alpha i - p.y.get i - (s.bias + p.pull s.alpha j - p.y.get j) = _
  ring

/-- The dual as a linear part less half a quadratic one. -/
theorem dual_eq (alpha : Vector ℝ n) :
    p.dual alpha =
      ∑ k : Fin n, alpha.get k * 1 - (∑ k : Fin n, alpha.get k * (p.y.get k * p.pull alpha k)) / 2 := by
  have hquadratic : ∑ k : Fin n, ∑ l : Fin n,
      alpha.get k * alpha.get l * p.y.get k * p.y.get l * (p.kernel.get k).get l =
        ∑ l : Fin n, alpha.get l * (p.y.get l * p.pull alpha l) := by
    rw [Finset.sum_comm]
    apply Finset.sum_congr rfl
    intro l _
    rw [pull, Finset.mul_sum, Finset.mul_sum]
    apply Finset.sum_congr rfl
    intro k _
    ring
  rw [dual, hquadratic, Scalar.two_real]
  simp only [mul_one]

variable {p} {s : State ℝ n} {i j : Fin n}

/-- One changed multiplier changes the pull by its share alone. -/
theorem pull_set (alpha : Vector ℝ n) (j : Fin n) (x : ℝ) (k : Fin n) :
    p.pull (alpha.set j x j.isLt) k =
      p.pull alpha k + (x - alpha.get j) * (p.y.get j * (p.kernel.get j).get k) :=
  sum_set alpha _ j x

variable (hsymm : ∀ k l : Fin n, (p.kernel.get k).get l = (p.kernel.get l).get k)
  (hy : ∀ k : Fin n, p.y.get k = 1 ∨ p.y.get k = -1)
include hsymm hy

/-- One multiplier that is changed. -/
theorem dual_set (alpha : Vector ℝ n) (j : Fin n) (x : ℝ) :
    p.dual (alpha.set j x j.isLt) = p.dual alpha + (x - alpha.get j) * (1 - p.y.get j * p.pull alpha j) -
      (x - alpha.get j) ^ 2 * (p.kernel.get j).get j / 2 := by
  have hsquare := sign_mul_self hy j
  have hrow : ∑ k : Fin n, alpha.get k * (p.y.get k * (p.kernel.get j).get k) = p.pull alpha j := by
    simp only [pull, hsymm j]
  have hquadratic : ∑ k : Fin n, (alpha.set j x j.isLt).get k * (p.y.get k * p.pull (alpha.set j x j.isLt) k) =
      ∑ k : Fin n, alpha.get k * (p.y.get k * p.pull alpha k) +
        (x - alpha.get j) * (p.y.get j * p.pull alpha j) +
          (x - alpha.get j) * p.y.get j *
            (p.pull alpha j + (x - alpha.get j) * (p.y.get j * (p.kernel.get j).get j)) := by
    rw [← hrow, ← sum_set alpha (fun k => p.y.get k * (p.kernel.get j).get k), hrow,
      ← sum_set alpha (fun k => p.y.get k * p.pull alpha k), Finset.mul_sum, ← Finset.sum_add_distrib]
    apply Finset.sum_congr rfl
    intro k _
    rw [pull_set]
    ring
  rw [dual_eq, dual_eq, hquadratic, sum_set]
  linear_combination -((x - alpha.get j) ^ 2 * (p.kernel.get j).get j / 2) * hsquare

/-- Two multipliers that are moved together: a parabola in the distance. -/
theorem dual_both (hij : i ≠ j) (x : ℝ) :
    p.dual ((s.alpha.set j x j.isLt).set i (p.movedOther s i j x) i.isLt) =
      p.dual s.alpha + (x - s.alpha.get j) * (p.y.get j * (p.error s i - p.error s j)) +
        p.curvature i j / 2 * (x - s.alpha.get j) ^ 2 := by
  have hi := sign_mul_self hy i
  have hj := sign_mul_self hy j
  have hother : p.movedOther s i j x = s.alpha.get i + p.y.get i * p.y.get j * (s.alpha.get j - x) := rfl
  have hcurvature : p.curvature i j =
      2 * (p.kernel.get i).get j - (p.kernel.get i).get i - (p.kernel.get j).get j := by
    rw [curvature, Scalar.two_real]
    rfl
  rw [dual_set hsymm hy, dual_set hsymm hy, pull_set, get_set_of_ne _ hij.symm, hother, hcurvature,
    error_sub_error, hsymm j i]
  have hcross : p.y.get i * p.y.get i * (p.y.get j * p.y.get j) = 1 := by rw [hi, hj, one_mul]
  linear_combination (x - s.alpha.get j) * p.y.get j * p.pull s.alpha i * hi - (x - s.alpha.get j) * hj +
    (x - s.alpha.get j) ^ 2 * ((p.kernel.get i).get j - (p.kernel.get i).get i / 2) * hcross

omit hsymm hy

/-- A clamp from a place between its ends goes no further than it is told to. -/
theorem clamp_toward {low high a : ℝ} (hlow : low ≤ a) (hhigh : a ≤ high) (x : ℝ) :
    (Scalar.clamp x low high - a) ^ 2 ≤ (Scalar.clamp x low high - a) * (x - a) := by
  rw [Scalar.clamp_real (hlow.trans hhigh)]
  rcases le_total low x with hx | hx
  · rcases le_total high x with hx' | hx'
    · rw [min_eq_left hx', max_eq_right (hlow.trans hhigh)]
      nlinarith
    · rw [min_eq_right hx', max_eq_right hx, sq]
  · rw [min_eq_right (hx.trans (hlow.trans hhigh)), max_eq_left hx]
    nlinarith

/-- The partner sets out towards the top of the parabola, and stops there at the latest. -/
theorem InBox.sq_target_le (h : p.InBox s) (hcurvature : p.curvature i j < 0) :
    -p.curvature i j * (p.target s i j - s.alpha.get j) ^ 2 ≤
      (p.target s i j - s.alpha.get j) * (p.y.get j * (p.error s i - p.error s j)) := by
  obtain ⟨hlow, hhigh⟩ := h.mem_segment i j
  have htoward := clamp_toward hlow hhigh
    (s.alpha.get j - p.y.get j * (p.error s i - p.error s j) / p.curvature i j)
  have htarget : p.target s i j = Scalar.clamp
    (s.alpha.get j - p.y.get j * (p.error s i - p.error s j) / p.curvature i j) (p.segment s i j).1
      (p.segment s i j).2 := rfl
  rw [← htarget] at htoward
  calc -p.curvature i j * (p.target s i j - s.alpha.get j) ^ 2
      ≤ -p.curvature i j * ((p.target s i j - s.alpha.get j) *
          (s.alpha.get j - p.y.get j * (p.error s i - p.error s j) / p.curvature i j - s.alpha.get j)) :=
        mul_le_mul_of_nonneg_left htoward (neg_pos.2 hcurvature).le
    _ = (p.target s i j - s.alpha.get j) * (p.y.get j * (p.error s i - p.error s j)) := by
        field_simp [hcurvature.ne]
        ring

include hsymm hy

/-- A move that counts raises the dual by half of what the parabola bends over the shortest such move. -/
theorem MovesBoth.dual_le (hboth : p.MovesBoth s i j) (h : p.InBox s) :
    p.dual s.alpha + -p.curvature i j / 2 * (1 / 10 ^ 5) ^ 2 ≤ p.dual (p.step s i j).1.alpha := by
  have hlong : (1 / 10 ^ 5) ^ 2 ≤ (p.target s i j - s.alpha.get j) ^ 2 := by
    rw [← sq_abs (p.target s i j - s.alpha.get j)]
    exact pow_le_pow_left₀ (by positivity) hboth.long 2
  have hbend := mul_le_mul_of_nonneg_left hlong (neg_pos.2 hboth.concave).le
  have htop := h.sq_target_le hboth.concave
  rcases step_cases (j := j) hboth.missed with ⟨hnone, -⟩ | ⟨halone, -⟩ | ⟨-, hstep⟩
  · exact absurd hboth.toMoves hnone
  · exact absurd halone hboth.not_movesAlone
  · rw [hstep, dual_both hsymm hy hboth.ne]
    linarith

/-- From whatever multipliers in the box, whatever the bias and whoever the partner: a visit that counts raises
the dual, by more the further the segment bends. -/
theorem dual_visit (h : p.InBox s) (choose : Fin n → σ → Fin n × σ) (i : Fin n) (g : σ)
    (hcounts : (p.visit choose s i g).2.1 = true) :
    p.dual s.alpha < p.dual (p.visit choose s i g).1.alpha ∧
      p.dual s.alpha + -p.curvature i (choose i g).1 / 2 * (1 / 10 ^ 5) ^ 2 ≤
        p.dual (p.visit choose s i g).1.alpha := by
  have hboth := (counts_iff_movesBoth choose s i g).1 hcounts
  have hgain := hboth.dual_le hsymm hy h
  have hpositive : 0 < -p.curvature i (choose i g).1 / 2 * (1 / 10 ^ 5) ^ 2 :=
    mul_pos (half_pos (neg_pos.2 hboth.concave)) (by positivity)
  rw [visit_fst, if_pos hboth.missed]
  exact ⟨(lt_add_of_pos_right _ hpositive).trans_le hgain, hgain⟩

omit hsymm in
/-- A visit by which no partner slips leaves the multipliers or counts. -/
theorem visit_of_slip_eq_zero (choose : Fin n → σ → Fin n × σ) (s : State ℝ n) (i : Fin n) (g : σ)
    (hslip : p.slip s i (choose i g).1 = 0) :
    (p.visit choose s i g).1 = s ∨ (p.visit choose s i g).2.1 = true := by
  by_cases hboth : p.MovesBoth s i (choose i g).1
  · exact .inr ((counts_iff_movesBoth choose s i g).2 hboth)
  · left
    rw [visit_fst]
    split
    · next hmissed =>
      rcases step_cases (j := (choose i g).1) hmissed with ⟨-, hstep⟩ | ⟨halone, hstep⟩ | ⟨hboth', -⟩
      · rw [hstep]
      · have hsign : p.y.get (choose i g).1 ≠ 0 := by
          intro hzero
          have hsquare := sign_mul_self hy (choose i g).1
          rw [hzero, mul_zero] at hsquare
          exact zero_ne_one hsquare
        rw [slip_of_movesAlone halone] at hslip
        have hstays := sub_eq_zero.1 ((mul_eq_zero.1 hslip).resolve_right hsign)
        have hset : s.alpha.set (choose i g).1 (s.alpha.get (choose i g).1) (choose i g).1.isLt = s.alpha :=
          Vector.set_getElem_self (choose i g).1.isLt
        rw [hstep, hstays, hset]
      · exact absurd hboth' hboth
    · rfl

/-- As long as no partner slips the dual does not fall. -/
theorem dual_le_visits (h : p.InBox s) (choose : Fin n → σ → Fin n × σ) (places : List (Fin n)) (g : σ)
    (hslips : ∀ d ∈ p.slips choose places s g, d = 0) :
    p.dual s.alpha ≤ p.dual (p.visits choose places s g).1.alpha := by
  induction places generalizing s g with
  | nil => exact le_rfl
  | cons i places ih =>
    have hfirst : p.dual s.alpha ≤ p.dual (p.visit choose s i g).1.alpha := by
      rcases visit_of_slip_eq_zero hy choose s i g (hslips _ List.mem_cons_self) with hsame | hcounts
      · rw [hsame]
      · exact (dual_visit hsymm hy h choose i g hcounts).1.le
    exact hfirst.trans (ih (h.visit hy choose i g) _ fun d hd => hslips d (List.mem_cons_of_mem _ hd))

omit hsymm hy

theorem opposites_curvature : opposites.curvature 0 1 = -2 := by
  rw [curvature, Scalar.two_real]
  show (2 : ℝ) * 0 - 1 - 1 = -2
  norm_num

theorem opposites_error (k : Fin 2) : opposites.error .initial k = - opposites.y.get k := by
  simp [error, decision, State.initial, Fin.foldl_succ, Fin.foldl_zero, Vector.get_eq_getElem]

theorem opposites_segment : opposites.segment .initial 0 1 = (0, 1) := by
  have hother : opposites.y.get 0 ≠ opposites.y.get 1 := by
    show (-1 : ℝ) ≠ 1
    norm_num
  rw [segment_of_other hother, alpha_initial, alpha_initial]
  show (max ((0 : ℝ) - 0) 0, min ((1 : ℝ) + 0 - 0) 1) = (0, 1)
  norm_num

theorem opposites_target : opposites.target .initial 0 1 = 1 := by
  rw [target, movedPartner, opposites_segment, Scalar.clamp_real zero_le_one, opposites_error, opposites_error,
    opposites_curvature]
  show max (0 : ℝ) (min 1 (0 - 1 * (-(-1) - -1) / -2)) = 1
  norm_num

theorem opposites_movesBoth : opposites.MovesBoth .initial 0 1 where
  missed := by
    rw [violates, opposites_error]
    apply (Bool.or_eq_true _ _).mpr
    left
    show (Scalar.less ((-1 : ℝ) * -(-1)) (-(((1 : ℕ) : ℝ) / 10 ^ 3)) && Scalar.less (0 : ℝ) 1) = true
    norm_num
  room := by
    rw [opposites_segment]
    norm_num
  concave := by
    rw [opposites_curvature]
    norm_num
  long := by
    rw [opposites_target, alpha_initial]
    norm_num

/-- The first visit raises the dual of the two. -/
theorem dual_visit_opposites :
    (∀ k l : Fin 2, (opposites.kernel.get k).get l = (opposites.kernel.get l).get k) ∧
      (∀ k : Fin 2, opposites.y.get k = 1 ∨ opposites.y.get k = -1) ∧ opposites.InBox .initial ∧
        (opposites.visit partner .initial 0 ()).2.1 = true ∧
          opposites.dual (State.initial : State ℝ 2).alpha <
            opposites.dual (opposites.visit partner .initial 0 ()).1.alpha := by
  have hsymm : ∀ k l : Fin 2, (opposites.kernel.get k).get l = (opposites.kernel.get l).get k := by
    simp [Fin.forall_fin_two, opposites, Vector.get_eq_getElem]
  have hbox : opposites.InBox .initial := inBox_initial zero_le_one
  have hcounts := (counts_iff_movesBoth partner .initial 0 ()).2 opposites_movesBoth
  exact ⟨hsymm, opposites_sign, hbox, hcounts, (dual_visit hsymm opposites_sign hbox partner 0 () hcounts).1⟩

end PackageTriage.Smo.Problem
