import PackageTriage.Grids.Choices
import PackageTriage.Proofs.Sequences

/-!
# What a grid allows

A selection that is complete for a family passes the check of a grid exactly when the hyperparameters it
resolves to are among the combinations that a sweep tries. Check and combinations are written apart: the
one looks at each choice by itself, the other nests the lists. They part only over the depth of a forest's
trees, which may be left open whether the grid lists that or not.
-/

namespace PackageTriage

section

variable {β : Type} {name : String} {shown : β → String} {offered : List β} {b : β}

theorem ensureOffered_eq_ok {same : β → β → Bool} :
    ensureOffered name same shown offered (some b) = .ok () ↔ ∃ o ∈ offered, same o b = true := by
  rw [ensureOffered, ← List.any_eq_true]
  split <;> simp_all

theorem ensureListed_eq_ok [DecidableEq β] :
    ensureListed name shown offered (some b) = .ok () ↔ b ∈ offered := by
  simp [ensureListed, ensureOffered_eq_ok]

theorem ensureNamed_eq_ok [DecidableEq β] [Choice β] :
    ensureNamed name offered (some b) = .ok () ↔ b ∈ offered := ensureListed_eq_ok

/-- What was not chosen is not looked at. -/
theorem ensureListed_none [DecidableEq β] : ensureListed name shown offered none = .ok () := rfl

/-- Checks in a row pass if each of them does. -/
theorem ensure_bind_eq_ok {first : Except Error Unit} {rest : Except Error Unit} :
    (do first; rest) = .ok () ↔ first = .ok () ∧ rest = .ok () := by
  rw [bind_eq_ok]
  exact ⟨fun ⟨_, hfirst, hrest⟩ => ⟨hfirst, hrest⟩, fun h => ⟨(), h⟩⟩

end

variable {α : Type} [Scalar α]

/-- Whether two choices of hyperparameters are equal part by part; a number is the same as its equals. -/
def Hyperparameters.same : Hyperparameters α → Hyperparameters α → Bool
  | .randomForest trees maxDepth, .randomForest trees' maxDepth' => trees = trees' && maxDepth = maxDepth'
  | .perceptron rate hidden iterations solver activation,
      .perceptron rate' hidden' iterations' solver' activation' =>
    Scalar.same rate rate' && hidden = hidden' && iterations = iterations' && solver = solver' &&
      activation = activation'
  | .naiveBayes smoothing, .naiveBayes smoothing' => Scalar.same smoothing smoothing'
  | .vectorMachine gamma c, .vectorMachine gamma' c' => gamma.same gamma' && Scalar.same c c'
  | _, _ => false

def Grids.Offers (g : Grids α) (f : Family) (p : Hyperparameters α) : Prop :=
  ∃ q ∈ g.combinations f, q.same p = true

namespace Grids

variable {g : Grids α}

/-- A forest is offered by its number of trees and its depth, the open one included. -/
theorem offers_randomForest {trees : Nat} {maxDepth : Option Nat} :
    g.Offers .randomForest (.randomForest trees maxDepth) ↔
      trees ∈ g.forest.trees ∧ maxDepth ∈ g.forest.maxDepths := by
  simp [Offers, combinations, ForestGrid.combinations, Hyperparameters.same]

theorem offers_perceptron {rate : α} {hidden : List Nat} {iterations : Nat} {solver : Solver}
    {activation : Activation} :
    g.Offers .perceptron (.perceptron rate hidden iterations solver activation) ↔
      hidden ∈ g.perceptron.hidden.map (·.sizes) ∧ activation ∈ g.perceptron.activations ∧
        solver ∈ g.perceptron.solvers ∧ (∃ r ∈ g.perceptron.rates, Scalar.same r rate = true) ∧
        iterations ∈ g.perceptron.iterations := by
  simp only [Offers, combinations, PerceptronGrid.combinations, List.mem_flatMap, List.mem_map]
  constructor
  · rintro ⟨_, ⟨layers, hlayers, _, ha, _, hs, r, hr, _, hi, rfl⟩, hsame⟩
    simp only [Hyperparameters.same, Bool.and_eq_true, decide_eq_true_eq] at hsame
    obtain ⟨⟨⟨⟨hrate, rfl⟩, rfl⟩, rfl⟩, rfl⟩ := hsame
    exact ⟨⟨layers, hlayers, rfl⟩, ha, hs, ⟨r, hr, hrate⟩, hi⟩
  · rintro ⟨⟨layers, hlayers, rfl⟩, ha, hs, ⟨r, hr, hrate⟩, hi⟩
    exact ⟨_, ⟨layers, hlayers, _, ha, _, hs, r, hr, _, hi, rfl⟩, by simp [Hyperparameters.same, hrate]⟩

theorem offers_naiveBayes {smoothing : α} :
    g.Offers .naiveBayes (.naiveBayes smoothing) ↔
      ∃ v ∈ g.naiveBayes.smoothings, Scalar.same v smoothing = true := by
  simp [Offers, combinations, NaiveBayesGrid.combinations, Hyperparameters.same]

theorem offers_vectorMachine {gamma : Gamma α} {c : α} :
    g.Offers .vectorMachine (.vectorMachine gamma c) ↔
      (∃ o ∈ g.machine.gammas, o.same gamma = true) ∧ ∃ v ∈ g.machine.c, Scalar.same v c = true := by
  simp only [Offers, combinations, MachineGrid.combinations, List.mem_flatMap, List.mem_map]
  constructor
  · rintro ⟨_, ⟨v, hv, o, ho, rfl⟩, hsame⟩
    obtain ⟨hgamma, hc⟩ := Bool.and_eq_true_iff.1 hsame
    exact ⟨⟨o, ho, hgamma⟩, v, hv, hc⟩
  · rintro ⟨⟨o, ho, hgamma⟩, v, hv, hc⟩
    exact ⟨_, ⟨v, hv, o, ho, rfl⟩, Bool.and_eq_true_iff.2 ⟨hgamma, hc⟩⟩

variable {s : Selection α}

/-- A forest's depth is looked at only if it is chosen. -/
theorem ensureChoices_randomForest {trees : Nat} (htrees : s.trees = some trees) :
    g.ensureChoices s .randomForest = .ok () ↔
      trees ∈ g.forest.trees ∧ (s.maxDepth = none ∨ s.maxDepth ∈ g.forest.maxDepths) := by
  rw [ensureChoices, ensure_bind_eq_ok, htrees, ensureListed_eq_ok]
  cases s.maxDepth with
  | none => simp [ensureListed_none]
  | some depth => simp [ensureListed_eq_ok]

/-- With every choice made, the check of a network passes exactly for what the grid offers. -/
theorem ensureChoices_perceptron {rate : α} {hidden : List Nat} {iterations : Nat} {solver : Solver}
    {activation : Activation} (hrate : s.rate = some rate) (hhidden : s.hidden = some hidden)
    (hiterations : s.iterations = some iterations) (hsolver : s.solver = some solver)
    (hactivation : s.activation = some activation) :
    g.ensureChoices s .perceptron = .ok () ↔
      g.Offers .perceptron (.perceptron rate hidden iterations solver activation) := by
  rw [offers_perceptron, ensureChoices, ensure_bind_eq_ok, ensure_bind_eq_ok, ensure_bind_eq_ok,
    ensure_bind_eq_ok, hrate, hhidden, hiterations, hsolver, hactivation, ensureListed_eq_ok,
    ensureNamed_eq_ok, ensureNamed_eq_ok, ensureOffered_eq_ok, ensureListed_eq_ok]

theorem ensureChoices_naiveBayes {smoothing : α} (hsmoothing : s.smoothing = some smoothing) :
    g.ensureChoices s .naiveBayes = .ok () ↔ g.Offers .naiveBayes (.naiveBayes smoothing) := by
  rw [offers_naiveBayes, ensureChoices, hsmoothing, ensureOffered_eq_ok]

theorem ensureChoices_vectorMachine {gamma : Gamma α} {c : α} (hgamma : s.gamma = some gamma)
    (hc : s.c = some c) :
    g.ensureChoices s .vectorMachine = .ok () ↔ g.Offers .vectorMachine (.vectorMachine gamma c) := by
  rw [offers_vectorMachine, ensureChoices, ensure_bind_eq_ok, hgamma, hc, ensureOffered_eq_ok,
    ensureOffered_eq_ok]

end Grids

namespace Selection

variable {s : Selection α} {f : Family}

omit [Scalar α] in
theorem require_eq_ok {β : Type} {name : String} {choice : Option β} {b : β} :
    require f name choice = .ok b ↔ choice = some b := by
  cases choice <;> simp [require]

/-- What the hyperparameters of a family hold is what was chosen. -/
inductive Resolved (s : Selection α) : Family → Hyperparameters α → Prop where
  | randomForest {trees : Nat} (htrees : s.trees = some trees) :
      Resolved s .randomForest (.randomForest trees s.maxDepth)
  | perceptron {rate : α} {hidden : List Nat} {iterations : Nat} {solver : Solver} {activation : Activation}
      (hrate : s.rate = some rate) (hhidden : s.hidden = some hidden)
      (hiterations : s.iterations = some iterations) (hsolver : s.solver = some solver)
      (hactivation : s.activation = some activation) :
      Resolved s .perceptron (.perceptron rate hidden iterations solver activation)
  | naiveBayes {smoothing : α} (hsmoothing : s.smoothing = some smoothing) :
      Resolved s .naiveBayes (.naiveBayes smoothing)
  | vectorMachine {gamma : Gamma α} {c : α} (hgamma : s.gamma = some gamma) (hc : s.c = some c) :
      Resolved s .vectorMachine (.vectorMachine gamma c)

omit [Scalar α] in
/-- What a selection resolves to has the choices it named. -/
theorem resolved_of_resolve {p : Hyperparameters α} (h : s.resolve f = .ok p) : s.Resolved f p := by
  cases f with
  | randomForest =>
    obtain ⟨trees, htrees, hlast⟩ := bind_eq_ok.1 h
    obtain rfl := Except.ok.inj hlast
    exact .randomForest (require_eq_ok.1 htrees)
  | perceptron =>
    obtain ⟨rate, hrate, h⟩ := bind_eq_ok.1 h
    obtain ⟨hidden, hhidden, h⟩ := bind_eq_ok.1 h
    obtain ⟨iterations, hiterations, h⟩ := bind_eq_ok.1 h
    obtain ⟨solver, hsolver, h⟩ := bind_eq_ok.1 h
    obtain ⟨activation, hactivation, hlast⟩ := bind_eq_ok.1 h
    obtain rfl := Except.ok.inj hlast
    exact .perceptron (require_eq_ok.1 hrate) (require_eq_ok.1 hhidden) (require_eq_ok.1 hiterations)
      (require_eq_ok.1 hsolver) (require_eq_ok.1 hactivation)
  | naiveBayes =>
    obtain ⟨smoothing, hsmoothing, hlast⟩ := bind_eq_ok.1 h
    obtain rfl := Except.ok.inj hlast
    exact .naiveBayes (require_eq_ok.1 hsmoothing)
  | vectorMachine =>
    obtain ⟨gamma, hgamma, h⟩ := bind_eq_ok.1 h
    obtain ⟨c, hc, hlast⟩ := bind_eq_ok.1 h
    obtain rfl := Except.ok.inj hlast
    exact .vectorMachine (require_eq_ok.1 hgamma) (require_eq_ok.1 hc)

omit [Scalar α] in
/-- A selection is resolved to hyperparameters of the family that is asked for. -/
theorem family_of_resolve {p : Hyperparameters α} (h : s.resolve f = .ok p) : p.family = f := by
  cases resolved_of_resolve h <;> rfl

end Selection

/-- A complete selection passes the check of a grid exactly if its hyperparameters are among the
combinations of the grid, or are those of a forest with an open depth and a number of trees that the grid
lists. -/
theorem Grids.ensureChoices_iff (g : Grids α) (s : Selection α) (f : Family) (p : Hyperparameters α) :
    g.ensureChoices s f = .ok () ∧ s.resolve f = .ok p ↔
      s.resolve f = .ok p ∧ (g.Offers f p ∨ f = .randomForest ∧ s.maxDepth = none ∧
        ∃ trees maxDepth, p = .randomForest trees maxDepth ∧ trees ∈ g.forest.trees) := by
  rw [and_comm]
  refine and_congr_right fun hresolve => ?_
  cases s.resolved_of_resolve hresolve with
  | randomForest htrees =>
    rw [ensureChoices_randomForest htrees, offers_randomForest]
    -- Only here the two sides differ: an open depth is in the bag of choices, but perhaps in no combination.
    simp only [Hyperparameters.randomForest.injEq, true_and, ↓existsAndEq, and_true]
    tauto
  | perceptron hrate hhidden hiterations hsolver hactivation =>
    rw [ensureChoices_perceptron hrate hhidden hiterations hsolver hactivation]
    simp
  | naiveBayes hsmoothing =>
    rw [ensureChoices_naiveBayes hsmoothing]
    simp
  | vectorMachine hgamma hc =>
    rw [ensureChoices_vectorMachine hgamma hc]
    simp

end PackageTriage
