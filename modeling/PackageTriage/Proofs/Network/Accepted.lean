import PackageTriage.Proofs.Network.Descent
import PackageTriage.Proofs.Scalar.Signs

/-!
# Accepted steps

A search stands at the last state that it accepted, or where it began, and has counted what it accepted. Of floats, a
state is accepted only if its loss is finite and no higher than the one before: the slope along a direction is not
above zero, a step has no negative length, and the loss to which their product is added does not grow by it. That
holds for slopes, gradients and losses that are infinite or no numbers as well.
-/

namespace PackageTriage.QuasiNewton

section Searches

variable {α : Type} [Scalar α] (objective : List α → α × List α)

/-- The second state is one that a search at the first one accepts. -/
def Accepts (s next : State α) : Prop := ∃ done, next? objective (descent s) done s = some next

/-- The states that a search accepts, one after the other. -/
def accepted (tolerance : α) : (limit done : Nat) → State α → List (State α)
  | 0, _, _ => []
  | limit + 1, done, s =>
    if isFlat s.gradient then []
    else
      match next? objective (descent s) done s with
      | none => []
      | some next =>
        next :: if isConverged tolerance s.loss next.loss then [] else accepted tolerance limit (done + 1) next

variable (tolerance : α) (limit done : Nat) (s : State α)

/-- However a search ends, it stands at the last state that it accepted. -/
theorem search_eq_accepted :
    search objective tolerance limit done s =
      ((accepted objective tolerance limit done s).getLastD s,
        done + (accepted objective tolerance limit done s).length) := by
  induction limit generalizing done s with
  | zero => rfl
  | succ limit ih =>
    rw [search_succ, accepted]
    split
    · rfl
    · cases hnext : next? objective (descent s) done s with
      | none => rfl
      | some next =>
        dsimp only
        split
        · rfl
        · rw [ih, List.getLastD_cons, List.length_cons]
          congr 1
          omega

theorem length_accepted_le : (accepted objective tolerance limit done s).length ≤ limit := by
  induction limit generalizing done s with
  | zero => exact le_rfl
  | succ limit ih =>
    rw [accepted]
    split
    · exact Nat.zero_le _
    · cases hnext : next? objective (descent s) done s with
      | none => exact Nat.zero_le _
      | some next =>
        dsimp only
        rw [List.length_cons]
        split
        · exact Nat.succ_le_succ (Nat.zero_le limit)
        · exact Nat.succ_le_succ (ih (done + 1) next)

/-- Every accepted state was accepted from the one before it. -/
theorem isChain_accepted : (s :: accepted objective tolerance limit done s).IsChain (Accepts objective) := by
  induction limit generalizing done s with
  | zero => exact .singleton s
  | succ limit ih =>
    rw [accepted]
    split
    · exact .singleton s
    · cases hnext : next? objective (descent s) done s with
      | none => exact .singleton s
      | some next =>
        dsimp only
        split
        · exact .cons_cons ⟨done, hnext⟩ (.singleton next)
        · exact .cons_cons ⟨done, hnext⟩ (ih (done + 1) next)

omit [Scalar α] in
/-- What every accepted state takes over from the one before, the last one has from the first. -/
theorem last_of_isChain {R : State α → State α → Prop} {P : State α → Prop} (hstep : ∀ s next, R s next → P s → P next)
    {s : State α} {trace : List (State α)} (h : (s :: trace).IsChain R) (hs : P s) : P (trace.getLastD s) := by
  induction trace generalizing s with
  | nil => exact hs
  | cons next trace ih =>
    obtain ⟨hnext, hrest⟩ := List.isChain_cons_cons.1 h
    rw [List.getLastD_cons]
    exact ih hrest (hstep s next hnext hs)

end Searches

open Binary Float.Model UnpackedFloat

/-- The steepest direction leads down, or nowhere. -/
theorem nonPositive_steepest (gradient : List Float) : NonPositive (Scalar.dot (gradient.map (- ·)) gradient) := by
  refine nonPositive_sum fun v hv => .inl ?_
  have hproducts : List.zipWith (· * ·) (gradient.map (- ·)) gradient = gradient.map fun g => -g * g := by
    rw [List.zipWith_map_left, List.zipWith_self]
  rw [hproducts] at hv
  obtain ⟨g, -, rfl⟩ := List.mem_map.1 hv
  obtain ⟨s, hs⟩ := exists_carries g
  have hmul := hs.neg.mul hs
  cases s with
  | positive => exact hmul
  | negative => exact hmul

/-- The slope taken is never positive, over floats as well. -/
theorem nonPositive_slope (s : State Float) : NonPositive (descent s).2.1 := by
  rw [descent]
  dsimp only
  split
  · exact nonPositive_steepest s.gradient
  · next hdown => exact .inl (carries_negative_of_not_atMost (eq_false_of_ne_true hdown))

theorem carries_firstLength (isFirst : Bool) (gradient : List Float) :
    Carries .positive (unpacked (firstLength isFirst gradient)) := by
  have hone : Carries .positive (unpacked 1) := rfl
  rw [firstLength]
  split
  · have hsum : Carries .positive (unpacked (Scalar.sum (gradient.map Scalar.abs))) :=
      carries_sum fun v hv => by
        obtain ⟨g, -, rfl⟩ := List.mem_map.1 hv
        exact carries_abs g
    rw [Scalar.min]
    split
    · exact hone.div hsum
    · exact hone
  · exact hone

/-- An accepted state has a finite loss that is no higher than the one before. -/
theorem Accepts.loss {objective : List Float → Float × List Float} {s next : State Float}
    (h : Accepts objective s next) :
    objective next.params = (next.loss, next.gradient) ∧ next.loss.isFinite = true ∧
      Scalar.atMost next.loss s.loss = true := by
  obtain ⟨done, h⟩ := h
  rw [next?, Option.map_eq_some_iff] at h
  obtain ⟨⟨params, loss, gradient⟩, hline, rfl⟩ := h
  have hconstants : Carries .positive (unpacked Scalar.half) ∧ Carries .positive (unpacked (Scalar.decimal 1 4)) :=
    ⟨rfl, rfl⟩
  have hhalf (length : Float) (hlength : Carries .positive (unpacked length)) :
      Carries .positive (unpacked (length * Scalar.half)) := hlength.mul hconstants.1
  obtain ⟨length, hlength, -, hobjective, hfinite, hlow⟩ :=
    lineSearch_eq_some_of (P := fun length : Float => Carries .positive (unpacked length)) hhalf
      (carries_firstLength _ _) hline
  have hfactor : Carries .positive (unpacked (Scalar.decimal 1 4 * length)) := hconstants.2.mul hlength
  exact ⟨hobjective, hfinite, atMost_of_atMost_add hfinite ((nonPositive_slope s).mul_of_positive hfactor) hlow⟩

/-- Along accepted states the loss does not rise. -/
theorem Accepts.atMost_last {objective : List Float → Float × List Float} {s : State Float}
    {trace : List (State Float)} (h : (s :: trace).IsChain (Accepts objective))
    (hnumber : Scalar.isNumber s.loss = true) : Scalar.atMost (trace.getLastD s).loss s.loss = true := by
  have hstep (a b : State Float) (hab : Accepts objective a b)
      (ha : Scalar.isNumber a.loss = true ∧ standing a.loss ≤ standing s.loss) :
      Scalar.isNumber b.loss = true ∧ standing b.loss ≤ standing s.loss := by
    obtain ⟨-, hfinite, hle⟩ := hab.loss
    have hb := isNumber_of_isFinite hfinite
    exact ⟨hb, ((atMost_iff_standing hb ha.1).1 hle).trans ha.2⟩
  obtain ⟨hlast, hle⟩ := last_of_isChain hstep h ⟨hnumber, le_rfl⟩
  exact (atMost_iff_standing hlast hnumber).2 hle

end PackageTriage.QuasiNewton
