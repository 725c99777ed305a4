import PackageTriage.Proofs.Classifier.Fitting
import PackageTriage.Proofs.Selection

/-!
# Support vectors

The support vectors of a machine are rows of its training matrix, each with one coefficient. There may be
none: multipliers that start at zero stay there if the bound leaves them no room to move, and then the
machine knows nothing of its samples but the classes.
-/

namespace PackageTriage

variable {α : Type} [Scalar α]

namespace Smo.Problem

variable {n : Nat} {σ : Type} (p : Problem α n)

def Still (s : State α n) : Prop := ∀ i j, p.step s i j = (s, false)

variable {p} {s : State α n}

theorem still_of_short
    (h : ∀ i j, Scalar.less (Scalar.abs ((p.segment s i j).1 - (p.segment s i j).2))
      (Scalar.decimal 1 10) = true) : p.Still s :=
  fun i j => by simp [step, h i j]

theorem Still.visit (h : p.Still s) (choose : Fin n → σ → Fin n × σ) (i : Fin n) (g : σ) :
    (p.visit choose s i g).1 = s := by
  rw [Problem.visit]
  split
  · simp [h i]
  · rfl

theorem Still.sweep (h : p.Still s) (choose : Fin n → σ → Fin n × σ) (places : List (Fin n)) (moves : Nat)
    (g : σ) : (p.sweep choose places s moves g).1 = s := by
  induction places generalizing moves g with
  | nil => rfl
  | cons i places ih =>
    show (p.sweep choose places (p.visit choose s i g).1 _ _).1 = s
    rw [h.visit]
    exact ih _ _

/-- Nothing moves in a whole run if nothing moves at its start. -/
theorem Still.run (h : p.Still s) (choose : Fin n → σ → Fin n × σ) (sweeps quiet : Nat) (g : σ) :
    p.run choose sweeps quiet s g = s := by
  induction sweeps generalizing quiet g with
  -- How long the search stays quiet changes from sweep to sweep, the state does not.
  | zero => cases quiet <;> rfl
  | succ sweeps ih =>
    cases quiet with
    | zero => rfl
    | succ quiet =>
      show p.run choose sweeps _ (p.sweep choose (List.finRange n) s 0 g).1 _ = s
      rw [h.sweep]
      exact ih _ _

end Smo.Problem

/-- The coefficient can be found for every training matrix: a positive number, or the name of a rule. -/
def Gamma.Usable : Gamma α → Prop
  | .value v => Scalar.less 0 v = true ∧ Scalar.isFinite v = true
  | .named name => name = "scale" ∨ name = "auto"

instance (gamma : Gamma α) : Decidable gamma.Usable :=
  match gamma with
  | .value _ => inferInstanceAs (Decidable (_ ∧ _))
  | .named _ => inferInstanceAs (Decidable (_ ∨ _))

/-- A usable coefficient resolves for every matrix. -/
theorem Gamma.Usable.exists_resolve {gamma : Gamma α} (h : gamma.Usable) (x : Matrix α) :
    ∃ v, gamma.resolve x = .ok v := by
  cases gamma with
  | value v => exact ⟨v, by simp [resolve, h.1, h.2]⟩
  | named name =>
    rcases h with rfl | rfl
    · exact ⟨_, rfl⟩
    · exact ⟨_, rfl⟩

namespace VectorMachine

theorem lt_of_mem_supportIndices {alphas : List α} {i : Nat} (h : i ∈ supportIndices alphas) :
    i < alphas.length :=
  List.mem_range.1 (List.mem_of_mem_filter h)

theorem length_le_of_supportIndices (alphas : List α) : (supportIndices alphas).length ≤ alphas.length := by
  simpa [supportIndices] using List.length_filter_le _ (List.range alphas.length)

/-- There is a multiplier for every row. -/
theorem length_of_optimize {settings : MachineSettings α} {gamma bias : α} {rows : List (List α)}
    {signs alphas : List α} (h : optimize settings gamma rows signs = .ok (alphas, bias)) :
    alphas.length = rows.length ∧ rows.length ≤ sampleLimit := by
  rw [optimize] at h
  dsimp only at h
  split at h
  · cases h
  · next hlimit =>
    obtain ⟨rfl, -⟩ := Prod.mk.inj (Except.ok.inj h)
    exact ⟨by simp, Nat.le_of_not_lt hlimit⟩

/-- The support of a fitted machine is taken from its training rows. -/
theorem exists_support_of_fit {m n : VectorMachine α} {x : Matrix α} {y : List α}
    (h : (m.fit x y).result = .ok n) :
    ∃ places : List Nat, (∀ i ∈ places, i < x.height) ∧ places.length ≤ x.height ∧
      n.support = x.select places ∧ n.coefficients.length = places.length := by
  obtain ⟨classes, gamma, alphas, bias, -, -, hfound, rfl⟩ := fit_eq_ok h
  have hlength : alphas.length = x.height := (length_of_optimize hfound).1
  exact ⟨supportIndices alphas, fun i hi => hlength ▸ lt_of_mem_supportIndices hi,
    hlength ▸ length_le_of_supportIndices alphas, rfl, by simp⟩

/-- What a machine needs in order to be fitted. -/
theorem exists_fit {m : VectorMachine α} {x : Matrix α} {y : List α} {gamma : α}
    (hheight : x.height = y.length) (hc : Scalar.less 0 m.settings.c = true)
    (hclasses : (Classes.distinct y).length = 2) (hgamma : m.settings.gamma.resolve x = .ok gamma)
    (hlimit : x.height ≤ sampleLimit) : ∃ n, (m.fit x y).result = .ok n := by
  have hcheck : check m.settings x y = .ok (Classes.distinct y) := by
    simp [check, hheight, hc, hclasses]
  have hrows : ¬ sampleLimit < x.rows.length := Nat.not_lt.2 hlimit
  simp [fit, hcheck, hgamma, optimize, hrows, Attempt.fitted, Attempt.result]

/-- Other than two classes cannot be parted. -/
theorem fit_of_classes {m : VectorMachine α} {x : Matrix α} {y : List α} (hheight : x.height = y.length)
    (hc : Scalar.less 0 m.settings.c = true) (hclasses : (Classes.distinct y).length ≠ 2) :
    (m.fit x y).result = .error (.data (.classes (Classes.distinct y).length)) := by
  have hcheck : check m.settings x y = .error (.data (.classes (Classes.distinct y).length)) := by
    simp [check, hheight, hc, hclasses]
  simp [fit, hcheck]

/-- The bound leaves the first two multipliers no room, whether their classes are the same or not. -/
def Narrow (c : α) : Prop :=
  Scalar.less (Scalar.abs (Scalar.max (0 + 0 - c) 0 - Scalar.min (0 + 0) c)) (Scalar.decimal 1 10) = true ∧
    Scalar.less (Scalar.abs (Scalar.max (0 - 0) 0 - Scalar.min (c + 0 - 0) c)) (Scalar.decimal 1 10) = true

theorem still_of_narrow {n : Nat} {p : Smo.Problem α n} (h : Narrow p.c) : p.Still .initial := by
  refine Smo.Problem.still_of_short fun i j => ?_
  simp only [Smo.Problem.segment, Smo.State.initial, Fin.getElem_fin, Vector.getElem_replicate]
  split
  · exact h.1
  · exact h.2

/-- Under a bound that is too narrow all multipliers and the bias stay zero. -/
theorem optimize_of_narrow {settings : MachineSettings α} {gamma bias : α} {rows : List (List α)}
    {signs alphas : List α} (hnarrow : Narrow settings.c)
    (h : optimize settings gamma rows signs = .ok (alphas, bias)) :
    alphas = List.replicate rows.length 0 ∧ bias = 0 := by
  rw [optimize] at h
  dsimp only at h
  split at h
  · cases h
  · rw [(still_of_narrow hnarrow).run] at h
    obtain ⟨rfl, rfl⟩ := Prod.mk.inj (Except.ok.inj h)
    exact ⟨Vector.toList_replicate, rfl⟩

theorem supportIndices_replicate_zero (hzero : Scalar.less (Scalar.decimal 1 8) (0 : α) = false) (n : Nat) :
    supportIndices (List.replicate n (0 : α)) = [] := by
  rw [supportIndices, List.filter_eq_nil_iff]
  intro i hi
  have hlt : i < n := by simpa using hi
  simp [hlt, hzero]

/-- A fit under a bound that is too narrow finds no support vectors. -/
theorem support_of_narrow {m n : VectorMachine α} {x : Matrix α} {y : List α}
    (hzero : Scalar.less (Scalar.decimal 1 8) (0 : α) = false) (hnarrow : Narrow m.settings.c)
    (h : (m.fit x y).result = .ok n) : n.support.rows = [] ∧ n.bias = 0 := by
  obtain ⟨classes, gamma, alphas, bias, -, -, hfound, rfl⟩ := fit_eq_ok h
  obtain ⟨rfl, rfl⟩ := optimize_of_narrow hnarrow hfound
  simp [supportIndices_replicate_zero hzero, Matrix.select]

end VectorMachine

end PackageTriage
