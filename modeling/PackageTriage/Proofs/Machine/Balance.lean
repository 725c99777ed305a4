import PackageTriage.Machine.VectorMachine
import PackageTriage.Proofs.Machine.Visits

/-!
# The balance of the multipliers

The multipliers, each signed by the class of its sample, start with a sum of zero. In exact arithmetic a
move that counts keeps the sum: the sample moves against its partner. A move that is too short to count does
not: the partner has moved by then, and the sample does not follow. So after any number of visits the sum is
what the partners moved alone, less than `10⁻⁵` each time, and it stays zero throughout exactly if none of
them moved alone.
-/

namespace PackageTriage.Smo.Problem

variable {n : Nat} {σ : Type} (p : Problem ℝ n)

/-- The signed multipliers taken together. -/
noncomputable def balance (s : State ℝ n) : ℝ := ∑ k : Fin n, s.alpha.get k * p.y.get k

open Classical in
/-- What a visit adds to the balance. -/
noncomputable def slip (s : State ℝ n) (i j : Fin n) : ℝ :=
  if p.MovesAlone s i j then (p.target s i j - s.alpha.get j) * p.y.get j else 0

noncomputable def slips (choose : Fin n → σ → Fin n × σ) : List (Fin n) → State ℝ n → σ → List ℝ
  | [], _, _ => []
  | i :: places, s, g =>
    p.slip s i (choose i g).1 ::
      slips choose places (p.visit choose s i g).1 (p.visit choose s i g).2.2

variable {p} {s : State ℝ n} {i j : Fin n}

theorem slip_of_movesAlone (h : p.MovesAlone s i j) :
    p.slip s i j = (p.target s i j - s.alpha.get j) * p.y.get j := if_pos h

theorem slip_of_not_movesAlone (h : ¬ p.MovesAlone s i j) : p.slip s i j = 0 := if_neg h

theorem balance_initial : p.balance .initial = 0 := by
  simp [balance, State.initial]

variable (hy : ∀ k : Fin n, p.y.get k = 1 ∨ p.y.get k = -1)
include hy

/-- Two multipliers that are moved together keep the balance. -/
theorem balance_of_both (hij : i ≠ j) (x bias : ℝ) :
    p.balance ⟨(s.alpha.set j x j.isLt).set i (p.movedOther s i j x) i.isLt, bias⟩ = p.balance s := by
  have hsquare := sign_mul_self hy i
  have hother : p.movedOther s i j x = s.alpha.get i + p.y.get i * p.y.get j * (s.alpha.get j - x) := rfl
  rw [balance, balance, sum_set, sum_set, get_set_of_ne _ hij.symm, hother]
  linear_combination (s.alpha.get j - x) * p.y.get j * hsquare

/-- A visit adds to the balance what the partner moves alone. -/
theorem balance_visit (choose : Fin n → σ → Fin n × σ) (s : State ℝ n) (i : Fin n) (g : σ) :
    p.balance (p.visit choose s i g).1 = p.balance s + p.slip s i (choose i g).1 := by
  rw [visit_fst]
  split
  · next hmissed =>
    rcases step_cases (j := (choose i g).1) hmissed with
      ⟨hnone, hstep⟩ | ⟨halone, hstep⟩ | ⟨hboth, hstep⟩
    · rw [hstep, slip_of_not_movesAlone fun h => hnone h.toMoves, add_zero]
    · rw [hstep, slip_of_movesAlone halone, balance, sum_set, balance]
    · rw [hstep, balance_of_both hy hboth.ne, slip_of_not_movesAlone hboth.not_movesAlone, add_zero]
  · next hmissed =>
    rw [slip_of_not_movesAlone fun h => hmissed h.missed, add_zero]

/-- What one visit leaves unbalanced is below the threshold of the early exit. -/
theorem abs_slip_lt (s : State ℝ n) (i j : Fin n) : |p.slip s i j| < 1 / 10 ^ 5 := by
  by_cases h : p.MovesAlone s i j
  · have hsign : |p.y.get j| = 1 := by rcases hy j with h | h <;> rw [h] <;> norm_num
    rw [slip_of_movesAlone h, abs_mul, hsign, mul_one]
    exact h.short
  · rw [slip_of_not_movesAlone h, abs_zero]
    positivity

/-- The balance after any visits is what it was and the sum of what each of them left behind. -/
theorem balance_visits (choose : Fin n → σ → Fin n × σ) (places : List (Fin n)) (s : State ℝ n) (g : σ) :
    p.balance (p.visits choose places s g).1 = p.balance s + (p.slips choose places s g).sum := by
  induction places generalizing s g with
  | nil => simp [visits, slips]
  | cons i places ih =>
    show p.balance (p.visits choose places (p.visit choose s i g).1 (p.visit choose s i g).2.2).1 = _
    rw [ih, balance_visit hy, slips, List.sum_cons, add_assoc]

theorem abs_lt_of_mem_slips {choose : Fin n → σ → Fin n × σ} {places : List (Fin n)} {s : State ℝ n} {g : σ}
    {d : ℝ} (hd : d ∈ p.slips choose places s g) : |d| < 1 / 10 ^ 5 := by
  induction places generalizing s g with
  | nil => cases hd
  | cons i places ih =>
    rcases List.mem_cons.1 hd with rfl | hd
    · exact abs_slip_lt hy s i _
    · exact ih hd

omit hy in
/-- Sums of what are no more than small terms count the terms that are not zero. -/
theorem abs_sum_le_countP {ds : List ℝ} {ε : ℝ} (h : ∀ d ∈ ds, |d| ≤ ε) :
    |ds.sum| ≤ ds.countP (· ≠ 0) * ε := by
  induction ds with
  | nil => simp
  | cons d ds ih =>
    have hrest := ih fun d' hd' => h d' (List.mem_cons_of_mem d hd')
    by_cases hd : d = 0
    · simpa [hd] using hrest
    · have hcount : (d :: ds).countP (· ≠ 0) = ds.countP (· ≠ 0) + 1 :=
        List.countP_cons_of_pos (by simpa using hd)
      calc |(d :: ds).sum| ≤ |d| + |ds.sum| := by rw [List.sum_cons]; exact abs_add_le d ds.sum
        _ ≤ ε + ds.countP (· ≠ 0) * ε := add_le_add (h d List.mem_cons_self) hrest
        _ = (d :: ds).countP (· ≠ 0) * ε := by rw [hcount]; push_cast; ring

omit hy in
/-- The slips cancel after every visit only if there are none. -/
theorem sum_slips_eq_zero_iff (choose : Fin n → σ → Fin n × σ) (places : List (Fin n)) (s : State ℝ n) (g : σ) :
    (∀ front, front <+: places → (p.slips choose front s g).sum = 0) ↔
      ∀ d ∈ p.slips choose places s g, d = 0 := by
  induction places generalizing s g with
  | nil => simp [slips]
  | cons i places ih =>
    constructor
    · intro h
      have hfirst : p.slip s i (choose i g).1 = 0 := by
        simpa [slips] using h [i] ⟨places, rfl⟩
      have hrest := (ih _ _).1 fun front hfront => by
        simpa [slips, hfirst] using h (i :: front) (List.cons_prefix_cons.2 ⟨rfl, hfront⟩)
      intro d hd
      rcases List.mem_cons.1 hd with rfl | hd
      · exact hfirst
      · exact hrest d hd
    · intro h front hfront
      have hrest := (ih _ _).2 fun d hd => h d (List.mem_cons_of_mem _ hd)
      rcases List.prefix_cons_iff.1 hfront with rfl | ⟨rest, rfl, hprefix⟩
      · rfl
      · rw [slips, List.sum_cons, h _ List.mem_cons_self, hrest rest hprefix, add_zero]

/-- Whoever the partners are: after every visit of a search the balance is what the partners moved alone so
far, less than `10⁻⁵` for each of them that did, and it stays zero throughout exactly if none did. -/
theorem balance_search (choose : Fin n → σ → Fin n × σ) (g : σ) :
    (∀ sweeps quiet, ∃ times ≤ sweeps,
      p.run choose sweeps quiet .initial g = (p.visits choose (rounds n times) .initial g).1) ∧
    ∀ places,
      p.balance (p.visits choose places .initial g).1 = (p.slips choose places .initial g).sum ∧
      |p.balance (p.visits choose places .initial g).1| ≤
        (p.slips choose places .initial g).countP (· ≠ 0) * (1 / 10 ^ 5) ∧
      ((∀ front, front <+: places → p.balance (p.visits choose front .initial g).1 = 0) ↔
        ∀ d ∈ p.slips choose places .initial g, d = 0) := by
  have hsum : ∀ places, p.balance (p.visits choose places .initial g).1 =
      (p.slips choose places .initial g).sum := by
    intro places
    rw [balance_visits hy, balance_initial, zero_add]
  refine ⟨fun sweeps quiet => p.exists_rounds_of_run choose sweeps quiet _ g, fun places => ⟨hsum places, ?_, ?_⟩⟩
  · rw [hsum]
    exact abs_sum_le_countP fun d hd => (abs_lt_of_mem_slips hy hd).le
  · simp only [hsum]
    exact sum_slips_eq_zero_iff choose places _ g

omit hy

/-- Two samples at a distance of one, of different classes, under a bound lower than the shortest move that
counts. -/
noncomputable def neighbours : Problem ℝ 2 where
  kernel := VectorMachine.kernelMatrix 1 (Vector.ofFn ![[0], [1]])
  y := Vector.ofFn ![-1, 1]
  c := Scalar.decimal 1 6
  tolerance := Scalar.decimal 1 3

theorem neighbours_kernel : neighbours.kernel = #v[#v[1, Real.exp (-1)], #v[Real.exp (-1), 1]] := by
  have hself : ∀ x : ℝ, VectorMachine.kernel 1 [x] [x] = 1 := by
    intro x
    show Real.exp (-1 * (0 + (x - x) * (x - x))) = 1
    simp
  have hother : VectorMachine.kernel 1 [0] [1] = Real.exp (-1) := by
    show Real.exp (-1 * (0 + (0 - 1) * (0 - 1))) = Real.exp (-1)
    norm_num
  ext i hi j hj
  interval_cases i <;> interval_cases j <;>
    simp [neighbours, VectorMachine.kernelMatrix, hself, hother]

theorem neighbours_c : neighbours.c = 1 / 10 ^ 6 := by
  show ((1 : ℕ) : ℝ) / 10 ^ 6 = _
  rw [Nat.cast_one]

theorem neighbours_sign (k : Fin 2) : neighbours.y.get k = 1 ∨ neighbours.y.get k = -1 := by
  revert k
  simp [Fin.forall_fin_two, neighbours]

theorem neighbours_segment : neighbours.segment .initial 0 1 = (0, 1 / 10 ^ 6) := by
  have hsegment : neighbours.segment .initial 0 1 =
      (Scalar.max ((0 : ℝ) - 0) 0, Scalar.min (neighbours.c + 0 - 0 : ℝ) neighbours.c) := by
    rw [segment, if_neg]
    · rfl
    · norm_num [neighbours]
  rw [hsegment, Scalar.max_real, Scalar.min_real, neighbours_c]
  norm_num

theorem neighbours_curvature : neighbours.curvature 0 1 = 2 * (Real.exp (-1) - 1) := by
  rw [curvature, neighbours_kernel, Scalar.two_real]
  show 2 * Real.exp (-1) - 1 - 1 = _
  ring

theorem neighbours_error (k : Fin 2) : neighbours.error .initial k = - neighbours.y.get k := by
  simp [error, decision, State.initial, Fin.foldl_succ, Fin.foldl_zero, Vector.get_eq_getElem]

/-- The partner is drawn past the bound, and so to it. -/
theorem neighbours_target : neighbours.target .initial 0 1 = 1 / 10 ^ 6 := by
  have hkernel : 0 < Real.exp (-1) := Real.exp_pos _
  have hless : Real.exp (-1) < 1 := Real.exp_lt_one_iff.2 (by norm_num)
  have hmaximum : (1 : ℝ) < 1 / (1 - Real.exp (-1)) := by
    rw [lt_div_iff₀ (by linarith)]
    linarith
  have hunbounded : neighbours.movedPartner .initial 0 1 (neighbours.error .initial 0)
      (neighbours.error .initial 1) 0 (1 / 10 ^ 6) = Scalar.clamp (1 / (1 - Real.exp (-1))) 0 (1 / 10 ^ 6) := by
    have hne : Real.exp (-1) - 1 ≠ 0 := by linarith
    have hne' : 1 - Real.exp (-1) ≠ 0 := by linarith
    rw [movedPartner, neighbours_error, neighbours_error, neighbours_curvature]
    congr 1
    show 0 - 1 * (-(-1) - -1) / (2 * (Real.exp (-1) - 1)) = _
    field_simp
    ring
  rw [target, neighbours_segment, hunbounded, Scalar.clamp]
  simp only [Scalar.less_real, decide_eq_true_eq]
  rw [if_neg (by linarith), if_pos (by linarith)]

theorem neighbours_movesAlone : neighbours.MovesAlone .initial 0 1 where
  missed := by
    rw [violates, neighbours_error]
    refine (Bool.or_eq_true _ _).mpr (.inl ?_)
    show (Scalar.less ((-1 : ℝ) * -(-1)) (-(((1 : ℕ) : ℝ) / 10 ^ 3)) && Scalar.less 0 neighbours.c) = true
    rw [neighbours_c]
    norm_num
  room := by
    rw [neighbours_segment]
    norm_num
  concave := by
    have hless : Real.exp (-1) < 1 := Real.exp_lt_one_iff.2 (by norm_num)
    rw [neighbours_curvature]
    linarith
  short := by
    rw [neighbours_target, alpha_initial]
    norm_num

theorem neighbours_slip : neighbours.slip .initial 0 1 = 1 / 10 ^ 6 := by
  rw [slip_of_movesAlone neighbours_movesAlone, neighbours_target, alpha_initial, sub_zero]
  exact mul_one _

/-- What three sweeps over the two leave of the balance. -/
theorem balance_search_neighbours :
    (∀ k : Fin 2, neighbours.y.get k = 1 ∨ neighbours.y.get k = -1) ∧
      |neighbours.balance (neighbours.visits partner (rounds 2 3) .initial ()).1| ≤
        (neighbours.slips partner (rounds 2 3) .initial ()).countP (· ≠ 0) * (1 / 10 ^ 5) ∧
      ¬ ∀ front, front <+: rounds 2 3 → neighbours.balance (neighbours.visits partner front .initial ()).1 = 0 := by
  obtain ⟨-, hbound, hiff⟩ := (balance_search neighbours_sign partner ()).2 (rounds 2 3)
  refine ⟨neighbours_sign, hbound, hiff.not.2 fun hnone => ?_⟩
  have hfirst := hnone _ List.mem_cons_self
  change neighbours.slip .initial 0 1 = 0 at hfirst
  rw [neighbours_slip] at hfirst
  norm_num at hfirst

/-- The first visit already leaves the two without balance. -/
theorem neighbours_unbalanced :
    (∀ i j : Fin 2, (neighbours.kernel.get i).get j = (neighbours.kernel.get j).get i) ∧ 0 < neighbours.c ∧
      (∀ k : Fin 2, neighbours.y.get k = 1 ∨ neighbours.y.get k = -1) ∧ (∀ i u, (partner i u).1 ≠ i) ∧
        neighbours.balance (neighbours.visits partner [0] .initial ()).1 = 1 / 10 ^ 6 := by
  refine ⟨?_, ?_, neighbours_sign, ?_, ?_⟩
  · rw [neighbours_kernel]
    simp [Fin.forall_fin_two]
  · rw [neighbours_c]
    positivity
  · decide
  · rw [balance_visits neighbours_sign, balance_initial, zero_add]
    show neighbours.slip .initial 0 1 + 0 = _
    rw [add_zero, neighbours_slip]

end PackageTriage.Smo.Problem
