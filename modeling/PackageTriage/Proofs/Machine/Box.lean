import PackageTriage.Proofs.Machine.Visits

/-!
# Multipliers in the box

In exact arithmetic no multiplier leaves the interval from zero to the bound. The segment on which a partner
moves is made of both multipliers: while these lie in the box, so does the segment, its ends stand in their
order with the partner's multiplier between them, and wherever on it the partner goes, the sample that makes up
for the move stays in the box. A partner that moves alone stays on its segment as well, so a move that is left
half done does no harm here.
-/

namespace PackageTriage.Smo.Problem

variable {n : Nat} {σ : Type} (p : Problem ℝ n)

/-- All multipliers lie between zero and the bound. -/
def InBox (s : State ℝ n) : Prop := ∀ k : Fin n, 0 ≤ s.alpha.get k ∧ s.alpha.get k ≤ p.c

variable {p} {s : State ℝ n} {i j : Fin n}

theorem inBox_initial (hc : 0 ≤ p.c) : p.InBox .initial := by
  intro k
  rw [alpha_initial]
  exact ⟨le_rfl, hc⟩

/-- Two samples of one class may only trade weight: their sum stays. -/
theorem segment_of_same (h : p.y.get i = p.y.get j) :
    p.segment s i j = (max (s.alpha.get i + s.alpha.get j - p.c) 0, min (s.alpha.get i + s.alpha.get j) p.c) := by
  have hsame : Scalar.same p.y[i] p.y[j] = true := decide_eq_true h
  rw [segment, if_pos hsame, Scalar.max_real, Scalar.min_real]
  rfl

/-- Two samples of different classes keep the difference of their weights. -/
theorem segment_of_other (h : p.y.get i ≠ p.y.get j) :
    p.segment s i j = (max (s.alpha.get j - s.alpha.get i) 0, min (p.c + s.alpha.get j - s.alpha.get i) p.c) := by
  have hother : ¬ Scalar.same p.y[i] p.y[j] = true := fun hsame => h (of_decide_eq_true hsame)
  rw [segment, if_neg hother, Scalar.max_real, Scalar.min_real]
  rfl

/-- The partner's multiplier lies on the segment. -/
theorem InBox.mem_segment (h : p.InBox s) (i j : Fin n) :
    (p.segment s i j).1 ≤ s.alpha.get j ∧ s.alpha.get j ≤ (p.segment s i j).2 := by
  obtain ⟨hi, hi'⟩ := h i
  obtain ⟨hj, hj'⟩ := h j
  by_cases hsame : p.y.get i = p.y.get j
  · rw [segment_of_same hsame]
    constructor
    · apply max_le _ hj
      linarith
    · apply le_min _ hj'
      linarith
  · rw [segment_of_other hsame]
    constructor
    · apply max_le _ hj
      linarith
    · apply le_min _ hj'
      linarith

/-- Within the box the segment of a pair has its ends in order. -/
theorem InBox.segment_le (h : p.InBox s) (i j : Fin n) : (p.segment s i j).1 ≤ (p.segment s i j).2 :=
  (h.mem_segment i j).1.trans (h.mem_segment i j).2

/-- Where the partner goes lies on the segment. -/
theorem InBox.target_mem_segment (h : p.InBox s) (i j : Fin n) :
    (p.segment s i j).1 ≤ p.target s i j ∧ p.target s i j ≤ (p.segment s i j).2 := by
  have hends := h.segment_le i j
  rw [target, movedPartner, Scalar.clamp_real hends]
  exact ⟨le_max_left _ _, max_le hends (min_le_left _ _)⟩

variable {x : ℝ} (hlow : (p.segment s i j).1 ≤ x) (hhigh : x ≤ (p.segment s i j).2)
include hlow hhigh

/-- The segment lies in the box. -/
theorem mem_box_of_mem_segment : 0 ≤ x ∧ x ≤ p.c := by
  by_cases hsame : p.y.get i = p.y.get j
  · rw [segment_of_same hsame] at hlow hhigh
    exact ⟨(le_max_right _ _).trans hlow, hhigh.trans (min_le_right _ _)⟩
  · rw [segment_of_other hsame] at hlow hhigh
    exact ⟨(le_max_right _ _).trans hlow, hhigh.trans (min_le_right _ _)⟩

/-- The sample that makes up for a move along the segment stays in the box. -/
theorem movedOther_mem_box (hy : ∀ k : Fin n, p.y.get k = 1 ∨ p.y.get k = -1) :
    0 ≤ p.movedOther s i j x ∧ p.movedOther s i j x ≤ p.c := by
  have hother : p.movedOther s i j x = s.alpha.get i + p.y.get i * p.y.get j * (s.alpha.get j - x) := rfl
  by_cases hsame : p.y.get i = p.y.get j
  · have hsign : p.y.get i * p.y.get j = 1 := by
      rw [hsame]
      exact sign_mul_self hy j
    rw [segment_of_same hsame] at hlow hhigh
    have hfar := (le_max_left _ _).trans hlow
    have hnear := hhigh.trans (min_le_left _ _)
    rw [hother, hsign]
    constructor <;> linarith
  · have hsign : p.y.get i * p.y.get j = -1 := sign_mul_of_ne hy hsame
    rw [segment_of_other hsame] at hlow hhigh
    have hnear := (le_max_left _ _).trans hlow
    have hfar := hhigh.trans (min_le_left _ _)
    rw [hother, hsign]
    constructor <;> linarith

omit hlow hhigh

theorem InBox.set (h : p.InBox s) (j : Fin n) (hx : 0 ≤ x ∧ x ≤ p.c) (bias : ℝ) :
    p.InBox ⟨s.alpha.set j x j.isLt, bias⟩ := by
  intro k
  by_cases hk : j = k
  · subst hk
    rw [get_set_self]
    exact hx
  · rw [get_set_of_ne _ hk]
    exact h k

variable (hy : ∀ k : Fin n, p.y.get k = 1 ∨ p.y.get k = -1)
include hy

/-- A visit leaves the multipliers in the box, however it ends. -/
theorem InBox.visit (h : p.InBox s) (choose : Fin n → σ → Fin n × σ) (i : Fin n) (g : σ) :
    p.InBox (p.visit choose s i g).1 := by
  obtain ⟨hlow, hhigh⟩ := h.target_mem_segment i (choose i g).1
  have hpartner := h.set (choose i g).1 (mem_box_of_mem_segment hlow hhigh)
  rw [visit_fst]
  split
  · next hmissed =>
    rcases step_cases (j := (choose i g).1) hmissed with ⟨-, hstep⟩ | ⟨-, hstep⟩ | ⟨-, hstep⟩
    · rw [hstep]
      exact h
    · rw [hstep]
      exact hpartner s.bias
    · rw [hstep]
      exact (hpartner s.bias).set i (movedOther_mem_box hlow hhigh hy) _
  · exact h

/-- The box is kept by any run of visits. -/
theorem InBox.visits (h : p.InBox s) (choose : Fin n → σ → Fin n × σ) (places : List (Fin n)) (g : σ) :
    p.InBox (p.visits choose places s g).1 := by
  induction places generalizing s g with
  | nil => exact h
  | cons i places ih => exact ih (h.visit hy choose i g) _

/-- Whoever the partners are: after every visit of a search all multipliers lie between zero and the bound, and
the ends of every segment to which the next visit can confine a multiplier stand in their order. -/
theorem inBox_search (hc : 0 < p.c) (choose : Fin n → σ → Fin n × σ) (g : σ) :
    (∀ sweeps quiet, ∃ times ≤ sweeps,
      p.run choose sweeps quiet .initial g = (p.visits choose (rounds n times) .initial g).1) ∧
    ∀ places, p.InBox (p.visits choose places .initial g).1 ∧
      ∀ i j, (p.segment (p.visits choose places .initial g).1 i j).1 ≤
        (p.segment (p.visits choose places .initial g).1 i j).2 := by
  constructor
  · intro sweeps quiet
    exact p.exists_rounds_of_run choose sweeps quiet _ g
  · intro places
    have hbox := (inBox_initial hc.le).visits hy choose places g
    exact ⟨hbox, hbox.segment_le⟩

omit hy

/-- Three sweeps over two samples of different classes leave both multipliers between zero and one. -/
theorem inBox_search_opposites :
    (∀ k : Fin 2, opposites.y.get k = 1 ∨ opposites.y.get k = -1) ∧ 0 < opposites.c ∧
      ∀ k : Fin 2, 0 ≤ (opposites.visits partner (rounds 2 3) .initial ()).1.alpha.get k ∧
        (opposites.visits partner (rounds 2 3) .initial ()).1.alpha.get k ≤ 1 := by
  have hc : 0 < opposites.c := one_pos
  exact ⟨opposites_sign, hc, ((inBox_search opposites_sign hc partner ()).2 (rounds 2 3)).1⟩

end PackageTriage.Smo.Problem
