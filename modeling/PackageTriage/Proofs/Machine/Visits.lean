import PackageTriage.Machine.Optimization
import PackageTriage.Proofs.Scalar.Reals

/-!
# Visits of a search

A run of the search visits all samples in turn, some number of times. In exact arithmetic a visit leaves the
state, or moves the multiplier of the partner alone, or moves those of both.
-/

namespace PackageTriage.Smo.Problem

variable {n : Nat} {σ : Type}

section Visits

variable {α : Type} [Scalar α] (p : Problem α n) (choose : Fin n → σ → Fin n × σ)

def visits : List (Fin n) → State α n → σ → State α n × σ
  | [], s, g => (s, g)
  | i :: places, s, g =>
    let (s, _, g) := p.visit choose s i g
    visits places s g

def rounds (n times : Nat) : List (Fin n) := (List.replicate times (List.finRange n)).flatten

/-- A run cut in two is a run of its parts. -/
theorem visits_append (front back : List (Fin n)) (s : State α n) (g : σ) :
    p.visits choose (front ++ back) s g =
      p.visits choose back (p.visits choose front s g).1 (p.visits choose front s g).2 := by
  induction front generalizing s g with
  | nil => rfl
  | cons i front ih => exact ih _ _

/-- A sweep visits its places, whatever it counts. -/
theorem sweep_eq_visits (places : List (Fin n)) (s : State α n) (moves : Nat) (g : σ) :
    ((p.sweep choose places s moves g).1, (p.sweep choose places s moves g).2.2) =
      p.visits choose places s g := by
  induction places generalizing s moves g with
  | nil => rfl
  | cons i places ih => exact ih _ _ _

/-- A run visits all places some number of times, and then it is over. -/
theorem exists_rounds_of_run (sweeps quiet : Nat) (s : State α n) (g : σ) :
    ∃ times ≤ sweeps, p.run choose sweeps quiet s g = (p.visits choose (rounds n times) s g).1 := by
  induction sweeps generalizing quiet s g with
  | zero => exact ⟨0, le_rfl, by cases quiet <;> rfl⟩
  | succ sweeps ih =>
    cases quiet with
    | zero => exact ⟨0, Nat.zero_le _, rfl⟩
    | succ quiet =>
      -- The first sweep, then the rounds of the run that is left.
      have hsweep := p.sweep_eq_visits choose (List.finRange n) s 0 g
      obtain ⟨times, htimes, hrun⟩ := ih
        (if (p.sweep choose (List.finRange n) s 0 g).2.1 = 0 then quiet else run.quietSweeps)
        (p.sweep choose (List.finRange n) s 0 g).1 (p.sweep choose (List.finRange n) s 0 g).2.2
      refine ⟨times + 1, Nat.succ_le_succ htimes, ?_⟩
      have hrounds : rounds n (times + 1) = List.finRange n ++ rounds n times := by
        simp [rounds, List.replicate_succ]
      rw [hrounds, visits_append, ← hsweep]
      exact hrun

end Visits

theorem alpha_initial (k : Fin n) : (State.initial : State ℝ n).alpha.get k = 0 :=
  Vector.getElem_replicate k.isLt

theorem get_set_self (v : Vector ℝ n) (j : Fin n) (x : ℝ) : (v.set j x j.isLt).get j = x :=
  Vector.getElem_set_self j.isLt

theorem get_set_of_ne (v : Vector ℝ n) {j k : Fin n} (h : j ≠ k) (x : ℝ) :
    (v.set j x j.isLt).get k = v.get k :=
  Vector.getElem_set_ne j.isLt k.isLt fun h' => h (Fin.ext h')

/-- A weighted sum of entries of which one is changed. -/
theorem sum_set (v : Vector ℝ n) (w : Fin n → ℝ) (j : Fin n) (x : ℝ) :
    ∑ k : Fin n, (v.set j x j.isLt).get k * w k = ∑ k : Fin n, v.get k * w k + (x - v.get j) * w j := by
  have hentry : ∀ k : Fin n, (v.set j x j.isLt).get k * w k =
      v.get k * w k + if k = j then (x - v.get j) * w j else 0 := by
    intro k
    by_cases hk : k = j
    · subst hk
      rw [get_set_self, if_pos rfl]
      ring
    · rw [get_set_of_ne v (Ne.symm hk), if_neg hk, add_zero]
  simp only [hentry, Finset.sum_add_distrib, Finset.sum_ite_eq', Finset.mem_univ, if_true]

variable (p : Problem ℝ n)

/-- Where the multiplier of the partner goes if it goes anywhere. -/
noncomputable def target (s : State ℝ n) (i j : Fin n) : ℝ :=
  p.movedPartner s i j (p.error s i) (p.error s j) (p.segment s i j).1 (p.segment s i j).2

/-- A visit moves multipliers: the sample misses its condition, and there is a segment with a maximum on it. -/
structure Moves (s : State ℝ n) (i j : Fin n) : Prop where
  missed : p.violates s i = true
  room : 1 / 10 ^ 10 ≤ |(p.segment s i j).1 - (p.segment s i j).2|
  concave : p.curvature i j < 0

/-- A visit moves the multiplier of the partner, not far enough to count, and leaves that of the sample. -/
structure MovesAlone (s : State ℝ n) (i j : Fin n) : Prop extends p.Moves s i j where
  short : |p.target s i j - s.alpha.get j| < 1 / 10 ^ 5

/-- A visit moves the multipliers of the partner and of the sample. -/
structure MovesBoth (s : State ℝ n) (i j : Fin n) : Prop extends p.Moves s i j where
  long : 1 / 10 ^ 5 ≤ |p.target s i j - s.alpha.get j|

variable {p} {s : State ℝ n} {i j : Fin n}

/-- A visit either moves both multipliers or stops halfway, never both. -/
theorem MovesBoth.not_movesAlone (h : p.MovesBoth s i j) : ¬ p.MovesAlone s i j :=
  fun h' => h.long.not_gt h'.short

/-- There is no maximum on the segment between a sample and itself. -/
theorem Moves.ne (h : p.Moves s i j) : i ≠ j := by
  rintro rfl
  have hcurvature : p.curvature i i = 0 := by
    rw [curvature, Scalar.two_real]
    ring
  exact h.concave.ne hcurvature

/-- A step at a sample that misses its condition leaves the state, or moves the partner alone, or both. -/
theorem step_cases (hmissed : p.violates s i = true) :
    (¬ p.Moves s i j ∧ p.step s i j = (s, false)) ∨
      (p.MovesAlone s i j ∧ p.step s i j = ({ s with alpha := s.alpha.set j (p.target s i j) j.isLt }, false)) ∨
        (p.MovesBoth s i j ∧ p.step s i j =
          (⟨(s.alpha.set j (p.target s i j) j.isLt).set i (p.movedOther s i j (p.target s i j)) i.isLt,
            p.movedBias s i j (p.error s i) (p.error s j) (p.movedOther s i j (p.target s i j))
              (p.target s i j)⟩, true)) := by
  rw [step]
  dsimp only
  split
  · next hroom =>
    have hroom : |(p.segment s i j).1 - (p.segment s i j).2| < 1 / 10 ^ 10 := by
      simpa [Scalar.abs, Scalar.decimal] using hroom
    exact .inl ⟨fun h => h.room.not_gt hroom, rfl⟩
  · next hroom =>
    have hroom : 1 / 10 ^ 10 ≤ |(p.segment s i j).1 - (p.segment s i j).2| := by
      simpa [Scalar.abs, Scalar.decimal] using hroom
    split
    · next hconcave =>
      have hconcave : 0 ≤ p.curvature i j := by simpa using hconcave
      exact .inl ⟨fun h => hconcave.not_gt h.concave, rfl⟩
    · next hconcave =>
      have hmoves : p.Moves s i j := ⟨hmissed, hroom, by simpa using hconcave⟩
      split
      · next hshort =>
        have hshort : |p.target s i j - s.alpha.get j| < 1 / 10 ^ 5 := by
          simpa [Scalar.abs, Scalar.decimal, target, Vector.get_eq_getElem] using hshort
        exact .inr (.inl ⟨⟨hmoves, hshort⟩, rfl⟩)
      · next hlong =>
        have hlong : 1 / 10 ^ 5 ≤ |p.target s i j - s.alpha.get j| := by
          simpa [Scalar.abs, Scalar.decimal, target, Vector.get_eq_getElem] using hlong
        exact .inr (.inr ⟨⟨hmoves, hlong⟩, rfl⟩)

/-- The classes of samples are told by signs. -/
theorem sign_mul_self (hy : ∀ k : Fin n, p.y.get k = 1 ∨ p.y.get k = -1) (k : Fin n) :
    p.y.get k * p.y.get k = 1 := by
  rcases hy k with h | h <;> rw [h] <;> norm_num

/-- The signs of different classes multiply to minus one. -/
theorem sign_mul_of_ne (hy : ∀ k : Fin n, p.y.get k = 1 ∨ p.y.get k = -1) (h : p.y.get i ≠ p.y.get j) :
    p.y.get i * p.y.get j = -1 := by
  rcases hy i with hi | hi <;> rcases hy j with hj | hj
  · exact absurd (hi.trans hj.symm) h
  · rw [hi, hj, one_mul]
  · rw [hi, hj, mul_one]
  · exact absurd (hi.trans hj.symm) h

/-- Visiting a sample is a step with its partner, or nothing. -/
theorem visit_fst (choose : Fin n → σ → Fin n × σ) (s : State ℝ n) (i : Fin n) (g : σ) :
    (p.visit choose s i g).1 = if p.violates s i then (p.step s i (choose i g).1).1 else s := by
  rw [visit]
  split <;> rfl

/-- The visits that count are those that move both multipliers. -/
theorem counts_iff_movesBoth (choose : Fin n → σ → Fin n × σ) (s : State ℝ n) (i : Fin n) (g : σ) :
    (p.visit choose s i g).2.1 = true ↔ p.MovesBoth s i (choose i g).1 := by
  rw [visit]
  split
  · next hmissed =>
    have hcount : ((p.step s i (choose i g).1).2 = true ↔ p.MovesBoth s i (choose i g).1) := by
      rcases step_cases (j := (choose i g).1) hmissed with
        ⟨hnone, hstep⟩ | ⟨halone, hstep⟩ | ⟨hboth, hstep⟩
      · rw [hstep]
        exact iff_of_false Bool.false_ne_true fun h => hnone h.toMoves
      · rw [hstep]
        exact iff_of_false Bool.false_ne_true fun h => h.not_movesAlone halone
      · rw [hstep]
        exact iff_of_true rfl hboth
    exact hcount
  · next hmissed => exact iff_of_false Bool.false_ne_true fun h => hmissed h.missed

def partner (i : Fin 2) (u : Unit) : Fin 2 × Unit := (i.rev, u)

/-- Two samples of different classes that have nothing in common. -/
noncomputable def opposites : Problem ℝ 2 where
  kernel := #v[#v[1, 0], #v[0, 1]]
  y := #v[-1, 1]
  c := 1
  tolerance := Scalar.decimal 1 3

theorem opposites_sign (k : Fin 2) : opposites.y.get k = 1 ∨ opposites.y.get k = -1 := by
  revert k
  simp [Fin.forall_fin_two, opposites, Vector.get_eq_getElem]

end PackageTriage.Smo.Problem
