import PackageTriage.Tree.Split
import Mathlib.Data.List.Basic

/-!
# Class counts

Counts that grow and shrink by one sample at a time are those that come out when every class is counted anew, and so
do not depend on the order of the samples. The majority is the first place with the greatest count.
-/

namespace PackageTriage.ClassCounts

def recount (classes : Nat) (labels : List Nat) : ClassCounts := (List.range classes).map fun c => labels.count c

@[simp] theorem length_recount (classes : Nat) (labels : List Nat) : (recount classes labels).length = classes := by
  simp [recount]

theorem getD_recount {classes c : Nat} (labels : List Nat) (hc : c < classes) :
    (recount classes labels).getD c 0 = labels.count c := by
  simp [recount, hc]

theorem recount_perm {labels others : List Nat} (h : labels.Perm others) (classes : Nat) :
    recount classes labels = recount classes others := by
  simp only [recount, h.count_eq]

theorem recount_nil (classes : Nat) : recount classes [] = zero classes := by
  simp [recount, zero, List.map_const']

/-- A label that is no class is not counted, here as there. -/
theorem add_recount (classes label : Nat) (labels : List Nat) :
    (recount classes labels).add label = recount classes (label :: labels) := by
  refine List.ext_getElem (by simp [add]) fun c hc hc' => ?_
  by_cases h : label = c <;> simp [add, recount, List.count_cons, h]

theorem remove_recount (classes label : Nat) (labels : List Nat) :
    (recount classes (label :: labels)).remove label = recount classes labels := by
  refine List.ext_getElem (by simp [remove]) fun c hc hc' => ?_
  by_cases h : label = c <;> simp [remove, recount, List.count_cons, h]

theorem ofLabels_eq_recount (classes : Nat) (labels : List Nat) : ofLabels classes labels = recount classes labels := by
  have hfold (before : List Nat) : labels.foldl add (recount classes before) =
      recount classes (labels.reverse ++ before) := by
    induction labels generalizing before with
    | nil => rfl
    | cons label labels ih =>
      rw [List.foldl_cons, add_recount, ih, List.reverse_cons, List.append_assoc]
      rfl
  rw [ofLabels, ← recount_nil, hfold, List.append_nil]
  exact recount_perm labels.reverse_perm classes

theorem length_ofLabels (classes : Nat) (labels : List Nat) : (ofLabels classes labels).length = classes := by
  rw [ofLabels_eq_recount, length_recount]

/-- Of the places before `place` the first with the greatest count is `best`, and `count` is its count. -/
structure Leads (counts : ClassCounts) (count best place : Nat) : Prop where
  lt : best < place
  count_eq : counts.getD best 0 = count
  le : ∀ i < place, counts.getD i 0 ≤ count
  less : ∀ i < best, counts.getD i 0 < count

/-- The scan for the majority keeps the lead. -/
theorem leads_majorityFrom {counts : ClassCounts} {count best place : Nat} {rest : List Nat}
    (h : counts.Leads count best place) (hrest : counts.drop place = rest) :
    counts.Leads (counts.getD (majorityFrom count best place rest) 0) (majorityFrom count best place rest)
      (place + rest.length) := by
  induction rest generalizing count best place with
  | nil => exact h.count_eq.symm ▸ h
  | cons c cs ih =>
    have hplace : counts.getD place 0 = c := by
      rw [List.getD_eq_getElem?_getD, ← List.head?_drop, hrest]
      rfl
    have hcs : counts.drop (place + 1) = cs := by
      rw [← List.tail_drop, hrest]
      rfl
    rw [majorityFrom, List.length_cons, Nat.add_comm cs.length, ← Nat.add_assoc]
    split
    · next hc =>
      refine ih ⟨Nat.lt_succ_self place, hplace, fun i hi => ?_, fun i hi => Nat.lt_of_le_of_lt (h.le i hi) hc⟩ hcs
      rcases Nat.lt_succ_iff_lt_or_eq.1 hi with hlt | rfl
      · exact Nat.le_of_lt (Nat.lt_of_le_of_lt (h.le i hlt) hc)
      · exact Nat.le_of_eq hplace
    · next hc =>
      refine ih ⟨Nat.lt_succ_of_lt h.lt, h.count_eq, fun i hi => ?_, h.less⟩ hcs
      rcases Nat.lt_succ_iff_lt_or_eq.1 hi with hlt | rfl
      · exact h.le i hlt
      · exact hplace.symm ▸ Nat.not_lt.1 hc

/-- No class outnumbers the majority, and none of the classes before it reaches its count. -/
theorem leads_majority {counts : ClassCounts} (h : counts ≠ []) :
    counts.Leads (counts.getD counts.majority 0) counts.majority counts.length := by
  cases counts with
  | nil => exact absurd rfl h
  | cons c cs =>
    have hfirst : Leads (c :: cs) c 0 1 := ⟨Nat.one_pos, rfl, fun i hi => by simp [Nat.lt_one_iff.1 hi], nofun⟩
    rw [List.length_cons, Nat.add_comm]
    exact leads_majorityFrom hfirst rfl

/-- Even where no sample is left to count, the majority is a place among the classes. -/
theorem majority_ofLabels_lt {classes : Nat} (h : 0 < classes) (labels : List Nat) :
    (ofLabels classes labels).majority < classes := by
  have hlength := length_ofLabels classes labels
  have hne : ofLabels classes labels ≠ [] := List.ne_nil_of_length_pos (by rwa [hlength])
  exact Nat.lt_of_lt_of_eq (leads_majority hne).lt hlength

end PackageTriage.ClassCounts
