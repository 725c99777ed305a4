import PackageTriage.Grids.Basic
import Mathlib.Algebra.BigOperators.Group.List.Basic
import Mathlib.Data.List.Forall2

/-!
# The order of the combinations

A family's values are nested lists, and the combinations go through them like a counter whose last digit runs
fastest: the digits of a place, each digit in the base of its list, say which value of every list stands there. So
every choice of values stands at exactly one place.
-/

namespace PackageTriage

namespace MixedRadix

/-- The number that digits stand for, the first one counting most. -/
def number : (bases digits : List Nat) → Nat
  | _ :: bases, d :: digits => d * bases.prod + number bases digits
  | _, _ => 0

def digits : (bases : List Nat) → (k : Nat) → List Nat
  | [], _ => []
  | _ :: bases, k => k / bases.prod :: digits bases (k % bases.prod)

/-- Each digit is below its base, and together they stand for the number. -/
structure IsWritten (bases digits : List Nat) (k : Nat) : Prop where
  below : List.Forall₂ (· < ·) digits bases
  number_eq : number bases digits = k

/-- All numbers below the product of the bases have digits. -/
theorem isWritten_digits {bases : List Nat} {k : Nat} (hk : k < bases.prod) : IsWritten bases (digits bases k) k := by
  induction bases generalizing k with
  | nil =>
    rw [List.prod_nil, Nat.lt_one_iff] at hk
    exact ⟨.nil, hk.symm⟩
  | cons base bases ih =>
    rw [List.prod_cons] at hk
    have hpos : 0 < bases.prod := Nat.pos_of_ne_zero fun hzero => by simp [hzero] at hk
    obtain ⟨hbelow, hnumber⟩ := ih (Nat.mod_lt k hpos)
    refine ⟨.cons ((Nat.div_lt_iff_lt_mul hpos).2 hk) hbelow, ?_⟩
    rw [digits, number, hnumber]
    exact Nat.div_add_mod' k bases.prod

namespace IsWritten

variable {bases ds : List Nat} {k : Nat}

/-- Digits below their bases make a number below the product of the bases. -/
theorem lt (h : IsWritten bases ds k) : k < bases.prod := by
  obtain ⟨hbelow, rfl⟩ := h
  induction hbelow with
  | nil => exact Nat.one_pos
  | @cons d base ds bases hd _ ih =>
    rw [number, List.prod_cons]
    calc d * bases.prod + number bases ds < d * bases.prod + bases.prod := Nat.add_lt_add_left ih _
      _ = (d + 1) * bases.prod := (Nat.succ_mul d _).symm
      _ ≤ base * bases.prod := Nat.mul_le_mul_right _ hd

/-- There are no other digits. -/
theorem eq_digits (h : IsWritten bases ds k) : ds = digits bases k := by
  obtain ⟨hbelow, rfl⟩ := h
  induction hbelow with
  | nil => rfl
  | @cons d base ds bases hd htail ih =>
    have hlt : number bases ds < bases.prod := lt ⟨htail, rfl⟩
    have hpos : 0 < bases.prod := Nat.zero_lt_of_lt hlt
    have hdiv : (d * bases.prod + number bases ds) / bases.prod = d := by
      rw [Nat.mul_comm, Nat.mul_add_div hpos, Nat.div_eq_of_lt hlt, Nat.add_zero]
    have hmod : (d * bases.prod + number bases ds) % bases.prod = number bases ds := by
      rw [Nat.mul_add_mod', Nat.mod_eq_of_lt hlt]
    rw [number, digits, hdiv, hmod, ← ih]

end IsWritten

end MixedRadix

section

variable {β γ : Type} {bs : List β} {f : β → List γ} {n : Nat}

/-- If every element of the outer list contributes `n` elements, quotient and remainder say which one it is. -/
theorem getElem?_flatMap_of_length (h : ∀ b ∈ bs, (f b).length = n) (k : Nat) :
    (bs.flatMap f)[k]? = bs[k / n]?.bind fun b => (f b)[k % n]? := by
  induction bs generalizing k with
  | nil => rfl
  | cons b bs ih =>
    have hb : (f b).length = n := h b List.mem_cons_self
    have hbs : ∀ b' ∈ bs, (f b').length = n := fun b' hb' => h b' (List.mem_cons_of_mem b hb')
    rw [List.flatMap_cons, List.getElem?_append, hb]
    split
    · next hk =>
      rw [Nat.div_eq_of_lt hk, Nat.mod_eq_of_lt hk]
      rfl
    · next hk =>
      rw [Nat.not_lt] at hk
      rcases Nat.eq_zero_or_pos n with rfl | hn
      · -- nothing is contributed at all
        have hnil (b' : β) (hb' : b' ∈ b :: bs) : f b' = [] := List.length_eq_zero_iff.1 (h b' hb')
        rw [ih hbs, Nat.div_zero, Nat.div_zero, Nat.mod_zero, Nat.mod_zero]
        cases bs with
        | nil => simp [hnil b]
        | cons b' bs => simp [hnil b, hnil b']
      · obtain ⟨j, rfl⟩ := Nat.exists_eq_add_of_le hk
        rw [ih hbs, Nat.add_sub_cancel_left, Nat.add_div_left j hn, Nat.add_mod_left]
        rfl

end

namespace MixedRadix

variable {β γ : Type}

/-- A list holds at every place what stands at the digits of the place. -/
structure Lists (bases : List Nat) (l : List γ) (at? : List Nat → Option γ) : Prop where
  length_eq : l.length = bases.prod
  getElem?_eq : ∀ k, l[k]? = at? (digits bases k)

/-- One list is gone through by one digit. -/
theorem lists_map (bs : List β) (f : β → γ) : Lists [bs.length] (bs.map f) fun
    | [i] => bs[i]?.bind fun b => some (f b)
    | _ => none where
  length_eq := by simp
  getElem?_eq k := by
    rw [digits, digits, List.prod_nil, Nat.div_one, List.getElem?_map, Option.map_eq_bind]
    rfl

/-- A list around lists of one kind is gone through by one more digit, which runs slower than theirs. -/
theorem lists_flatMap {bases : List Nat} {f : β → List γ} {at? : β → List Nat → Option γ} (bs : List β)
    (h : ∀ b, Lists bases (f b) (at? b)) : Lists (bs.length :: bases) (bs.flatMap f) fun
    | i :: places => bs[i]?.bind fun b => at? b places
    | [] => none where
  length_eq := by
    rw [List.length_flatMap, List.map_congr_left fun b _ => (h b).length_eq, List.map_const', List.sum_replicate_nat,
      List.prod_cons]
  getElem?_eq k := by
    rw [getElem?_flatMap_of_length fun b _ => (h b).length_eq]
    exact congrArg (bs[k / bases.prod]?.bind ·) (funext fun b => (h b).getElem?_eq _)

end MixedRadix

namespace Grids

variable {α : Type} (g : Grids α)

/-- How many values the lists of a family hold, in the order in which the combinations go through them. -/
def bases : Family → List Nat
  | .randomForest => [g.forest.trees.length, g.forest.maxDepths.length]
  | .perceptron => [g.perceptron.hidden.length, g.perceptron.activations.length, g.perceptron.solvers.length,
      g.perceptron.rates.length, g.perceptron.iterations.length]
  | .naiveBayes => [g.naiveBayes.smoothings.length]
  | .vectorMachine => [g.machine.c.length, g.machine.gammas.length]

/-- The hyperparameters with the values at these places of the lists. -/
def at? : Family → (places : List Nat) → Option (Hyperparameters α)
  | .randomForest, [i, j] => do
    let trees ← g.forest.trees[i]?
    let maxDepth ← g.forest.maxDepths[j]?
    return .randomForest trees maxDepth
  | .perceptron, [i, j, k, l, m] => do
    let hidden ← g.perceptron.hidden[i]?
    let activation ← g.perceptron.activations[j]?
    let solver ← g.perceptron.solvers[k]?
    let rate ← g.perceptron.rates[l]?
    let iterations ← g.perceptron.iterations[m]?
    return .perceptron rate hidden.sizes iterations solver activation
  | .naiveBayes, [i] => do
    let smoothing ← g.naiveBayes.smoothings[i]?
    return .naiveBayes smoothing
  | .vectorMachine, [i, j] => do
    let c ← g.machine.c[i]?
    let gamma ← g.machine.gammas[j]?
    return .vectorMachine gamma c
  | _, _ => none

/-- The combinations go through the lists of a family like a counter. -/
theorem lists_combinations (f : Family) : MixedRadix.Lists (g.bases f) (g.combinations f) (g.at? f) := by
  cases f with
  | randomForest =>
    have h := MixedRadix.lists_flatMap g.forest.trees fun trees =>
      MixedRadix.lists_map g.forest.maxDepths fun depth => Hyperparameters.randomForest (α := α) trees depth
    exact ⟨h.length_eq, h.getElem?_eq⟩
  | perceptron =>
    have h := MixedRadix.lists_flatMap g.perceptron.hidden fun hidden =>
      MixedRadix.lists_flatMap g.perceptron.activations fun activation =>
        MixedRadix.lists_flatMap g.perceptron.solvers fun solver =>
          MixedRadix.lists_flatMap g.perceptron.rates fun rate =>
            MixedRadix.lists_map g.perceptron.iterations fun iterations =>
              Hyperparameters.perceptron rate hidden.sizes iterations solver activation
    exact ⟨h.length_eq, h.getElem?_eq⟩
  | naiveBayes =>
    have h := MixedRadix.lists_map g.naiveBayes.smoothings Hyperparameters.naiveBayes
    exact ⟨h.length_eq, h.getElem?_eq⟩
  | vectorMachine =>
    have h := MixedRadix.lists_flatMap g.machine.c fun c =>
      MixedRadix.lists_map g.machine.gammas fun gamma => Hyperparameters.vectorMachine gamma c
    exact ⟨h.length_eq, h.getElem?_eq⟩

end Grids

end PackageTriage
