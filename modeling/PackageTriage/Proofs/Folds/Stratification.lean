import PackageTriage.Proofs.Folds.Partition
import Mathlib.Data.Int.CardIntervalMod

/-!
# Folds are stratified

The samples are dealt one class after the other, and the deal goes on across classes. So a class owns a run of
places in the deal, and a fold gets as many of its samples as there are places in that run at which the fold's
turn comes. The order of the samples within a class does not matter to that.
-/

namespace PackageTriage

def Split.tested (keys : List Int) (k : Int) (s : Split) : Nat := s.test.countP (keys[·]? = some k)

namespace Folds

/-- At how many of `size` places from `first` on it is the turn of the fold `f`. -/
def share (n first size f : Nat) : Nat := (List.range' first size).countP (· % n = f)

/-- The share of a fold is the number of places in an interval with its residue. -/
theorem count_add_share (n first size f : Nat) :
    Nat.count (· % n = f) first + share n first size f = Nat.count (· % n = f) (first + size) := by
  induction size with
  | zero => simp [share]
  | succ size ih =>
    rw [← Nat.add_assoc, Nat.count_succ, ← ih, share, share, List.range'_concat, List.countP_append, one_mul,
      List.countP_singleton]
    simp only [decide_eq_true_eq]
    omega

/-- Up to any place every fold had its turn once for each full round, and the first folds once more. -/
theorem count_turns {n f : Nat} (hf : f < n) (b : Nat) :
    Nat.count (· % n = f) b = b / n + if f < b % n then 1 else 0 := by
  have hturn := Nat.count_modEq_card b (Nat.zero_lt_of_lt hf) f
  simp only [Nat.ModEq, Nat.mod_eq_of_lt hf] at hturn
  exact hturn

/-- However long a run of places is, two folds have their turns in it equally often or once more. -/
theorem share_le_share {n f g : Nat} (hf : f < n) (hg : g < n) (first size : Nat) :
    share n first size f ≤ share n first size g + 1 := by
  have hfirst := count_add_share n first size f
  have hsecond := count_add_share n first size g
  simp only [count_turns hf, count_turns hg] at hfirst hsecond
  split_ifs at hfirst hsecond <;> omega

/-- In as many places as there are folds each fold has its turn. -/
theorem share_pos {n f : Nat} (hf : f < n) {first size : Nat} (hsize : n ≤ size) :
    0 < share n first size f := by
  have hround : Nat.count (· % n = f) (first + n) = Nat.count (· % n = f) first + 1 := by
    rw [count_turns hf, count_turns hf, Nat.add_div_right _ (by omega), Nat.add_mod_right]
    omega
  have hmono := Nat.count_monotone (· % n = f) (by omega : first + n ≤ first + size)
  have hshare := count_add_share n first size f
  omega

section

variable (n f : Nat) (p : Nat → Bool) (samples : List Nat)

/-- What a fold gets of a class is counted by places of the deal. -/
theorem countP_deal :
    (deal n samples f).countP p = samples.zipIdx.countP fun x => p x.1 && decide (x.2 % n = f) := by
  rw [deal, List.countP_map, List.countP_filter]
  rfl

variable {p samples}

/-- Samples that all count are counted by their places. -/
theorem countP_zipIdx_of_all (h : ∀ i ∈ samples, p i = true) (first : Nat) :
    (samples.zipIdx first).countP (fun x => p x.1 && decide (x.2 % n = f)) =
      share n first samples.length f := by
  rw [share, ← List.zipIdx_map_snd, List.countP_map]
  refine List.countP_congr fun x hx => ?_
  have hcounts : p x.1 = true := h _ (List.fst_mem_of_mem_zipIdx hx)
  simp [hcounts]

theorem countP_zipIdx_of_none (h : ∀ i ∈ samples, p i = false) (first : Nat) :
    (samples.zipIdx first).countP (fun x => p x.1 && decide (x.2 % n = f)) = 0 := by
  rw [List.countP_eq_zero]
  intro x hx
  have hcounts : p x.1 = false := h _ (List.fst_mem_of_mem_zipIdx hx)
  simp [hcounts]

end

/-- How many samples are dealt before those of the class at a place. -/
def offset (keys : List Int) (j : Nat) : Nat := (((classesOf keys).take j).map keys.count).sum

theorem sum_length_strata (keys : List Int) (j : Nat) :
    (((strata keys).take j).map List.length).sum = offset keys j := by
  have hlengths : (strata keys).map List.length = (classesOf keys).map keys.count := by
    rw [strata, List.map_map]
    exact List.map_congr_left fun k _ => length_membersOf keys k
  rw [offset, List.map_take, hlengths, List.map_take]

section

variable {n f j : Nat} {keys : List Int} {k : Int} {samples : List Nat} {groups : List (List Nat)}

theorem tested_splitOf : (splitOf n samples f).tested keys k =
    (deal n samples f).countP (keys[·]? = some k) :=
  (List.mergeSort_perm _ _).countP_eq _

theorem tested_of_not_mem (h : k ∉ keys) : (splitOf n samples f).tested keys k = 0 := by
  rw [Split.tested, List.countP_eq_zero]
  intro i _ hi
  exact h (List.mem_of_getElem? (of_decide_eq_true hi))

variable (h : List.Forall₂ List.Perm groups (strata keys))

include h

/-- A fold tests as many samples of a class as it has turns while that class is dealt. -/
theorem tested_eq_share (hj : (classesOf keys)[j]? = some k) :
    (splitOf n groups.flatten f).tested keys k = share n (offset keys j) (keys.count k) f := by
  obtain ⟨before, group, behind, heq, hperm, hlength⟩ := exists_group h (getElem?_strata hj)
  have hnodup : groups.flatten.Nodup :=
    ((List.Perm.flatten_congr h).trans (strata_perm keys)).nodup_iff.2 List.nodup_range
  rw [heq, List.nodup_append, List.nodup_append] at hnodup
  obtain ⟨-, ⟨-, -, hbehind⟩, hbefore⟩ := hnodup
  -- All members of the class are in its group, so there are none on either side of it.
  have hin : ∀ i, keys[i]? = some k → i ∈ group := fun i hi => hperm.mem_iff.2 (mem_membersOf.2 hi)
  have hall : ∀ i ∈ group, decide (keys[i]? = some k) = true := fun i hi =>
    decide_eq_true (mem_membersOf.1 (hperm.mem_iff.1 hi))
  have hnone : ∀ i ∈ before, decide (keys[i]? = some k) = false := fun i hi =>
    decide_eq_false fun hk => hbefore i hi i (List.mem_append_left _ (hin i hk)) rfl
  have hnone' : ∀ i ∈ behind, decide (keys[i]? = some k) = false := fun i hi =>
    decide_eq_false fun hk => hbehind i (hin i hk) i hi rfl
  rw [tested_splitOf, countP_deal, heq, List.zipIdx_append, List.zipIdx_append, List.countP_append,
    List.countP_append, countP_zipIdx_of_none n f hnone, countP_zipIdx_of_all n f hall,
    countP_zipIdx_of_none n f hnone', hlength, sum_length_strata, hperm.length_eq, length_membersOf, zero_add,
    zero_add, add_zero]

/-- A fold tests as many samples as it has turns in the whole deal. -/
theorem length_test_eq_share : (splitOf n groups.flatten f).test.length = share n 0 keys.length f := by
  have hperm : groups.flatten.Perm (List.range keys.length) :=
    (List.Perm.flatten_congr h).trans (strata_perm keys)
  have hlength : (splitOf n groups.flatten f).test.length = (deal n groups.flatten f).length :=
    (List.mergeSort_perm _ _).length_eq
  rw [hlength, ← List.countP_true, countP_deal, countP_zipIdx_of_all n f fun _ _ => rfl, hperm.length_eq,
    List.length_range]

/-- Folds test any class equally often or one of them once more. -/
theorem tested_le_tested {g : Nat} (hf : f < n) (hg : g < n) :
    (splitOf n groups.flatten f).tested keys k ≤ (splitOf n groups.flatten g).tested keys k + 1 := by
  by_cases hk : k ∈ keys
  · obtain ⟨j, hj⟩ := List.mem_iff_getElem?.1 (mem_classesOf.2 hk)
    rw [tested_eq_share h hj, tested_eq_share h hj]
    exact share_le_share hf hg _ _
  · rw [tested_of_not_mem hk]
    exact Nat.zero_le _

/-- A class with at least one sample a fold is tested in every fold. -/
theorem tested_pos (hf : f < n) (hk : n ≤ keys.count k) :
    0 < (splitOf n groups.flatten f).tested keys k := by
  obtain ⟨j, hj⟩ := List.mem_iff_getElem?.1 (mem_classesOf.2 (List.count_pos_iff.1 (by omega : 0 < keys.count k)))
  rw [tested_eq_share h hj]
  exact share_pos hf hk

/-- Another order within the classes changes no count. -/
theorem tested_congr {others : List (List Nat)} (ho : List.Forall₂ List.Perm others (strata keys)) :
    (splitOf n groups.flatten f).tested keys k = (splitOf n others.flatten f).tested keys k := by
  by_cases hk : k ∈ keys
  · obtain ⟨j, hj⟩ := List.mem_iff_getElem?.1 (mem_classesOf.2 hk)
    rw [tested_eq_share h hj, tested_eq_share ho hj]
  · rw [tested_of_not_mem hk, tested_of_not_mem hk]

end

/-- The splits share out every class: the fold `f` tests the samples of the class at the place `j` that are
dealt in its turns. So folds differ by at most one, in every class and in all, and a class with a sample for
each fold is tested by every fold. -/
structure IsStratified (n : Nat) (keys : List Int) (splits : List Split) : Prop where
  length_eq : splits.length = n
  tested_eq : ∀ (f : Nat) (s : Split), splits[f]? = some s → ∀ (j : Nat) (k : Int),
    (classesOf keys)[j]? = some k → s.tested keys k = share n (offset keys j) (keys.count k) f
  tested_le : ∀ s ∈ splits, ∀ t ∈ splits, ∀ k, s.tested keys k ≤ t.tested keys k + 1
  length_le : ∀ s ∈ splits, ∀ t ∈ splits, s.test.length ≤ t.test.length + 1
  tested_pos : ∀ k, n ≤ keys.count k → ∀ s ∈ splits, 0 < s.tested keys k

/-- Groups that hold the samples of each class, in any order, give stratified splits. -/
theorem ofStrata_isStratified {n : Nat} {keys : List Int} {groups : List (List Nat)}
    (h : List.Forall₂ List.Perm groups (strata keys)) : IsStratified n keys (ofStrata n groups) := by
  constructor
  case length_eq => simp [ofStrata]
  case tested_eq =>
    intro f s hs j k hj
    obtain ⟨-, rfl⟩ := getElem?_ofStrata.1 hs
    exact tested_eq_share h hj
  case tested_pos =>
    intro k hk s hs
    obtain ⟨f, hf, rfl⟩ := mem_ofStrata.1 hs
    exact Folds.tested_pos h hf hk
  all_goals
    intro s hs t ht
    obtain ⟨f, hf, rfl⟩ := mem_ofStrata.1 hs
    obtain ⟨g, hg, rfl⟩ := mem_ofStrata.1 ht
  case tested_le => exact fun k => tested_le_tested h hf hg
  case length_le =>
    rw [length_test_eq_share h, length_test_eq_share h]
    exact share_le_share hf hg _ _

variable {α : Type} [Scalar α]

/-- Splitting gives stratified splits, for every seed and for every other order within the classes, and the
seed changes no count of any class in any fold. -/
theorem split_stratified (n : Nat) (y : List α) (hn : 2 ≤ n) (hy : n ≤ y.length) :
    ((classesOf (y.map Scalar.round)).Pairwise (· < ·) ∧
      ∀ k, k ∈ classesOf (y.map Scalar.round) ↔ k ∈ y.map Scalar.round) ∧
    (∀ seed, ∃ splits, split n seed y = .ok splits ∧ IsStratified n (y.map Scalar.round) splits) ∧
    (∀ groups, List.Forall₂ List.Perm groups (strata (y.map Scalar.round)) →
      IsStratified n (y.map Scalar.round) (ofStrata n groups)) ∧
    ∀ seed₁ seed₂ splits₁ splits₂, split n seed₁ y = .ok splits₁ → split n seed₂ y = .ok splits₂ →
      ∀ (f : Nat) (s t : Split), splits₁[f]? = some s → splits₂[f]? = some t →
        ∀ k, s.tested (y.map Scalar.round) k = t.tested (y.map Scalar.round) k := by
  refine ⟨⟨classesOf_increasing _, fun k => mem_classesOf⟩, fun seed => ?_, fun groups => ofStrata_isStratified, ?_⟩
  · obtain ⟨groups, hgroups, hsplit⟩ := split_eq_ok seed hn hy
    exact ⟨_, hsplit, ofStrata_isStratified hgroups⟩
  · intro seed₁ seed₂ splits₁ splits₂ h₁ h₂ f s t hs ht k
    obtain ⟨groups, hgroups, hsplit₁⟩ := split_eq_ok seed₁ hn hy
    obtain ⟨others, hothers, hsplit₂⟩ := split_eq_ok seed₂ hn hy
    obtain rfl := Except.ok.inj (hsplit₁.symm.trans h₁)
    obtain rfl := Except.ok.inj (hsplit₂.symm.trans h₂)
    obtain ⟨-, rfl⟩ := getElem?_ofStrata.1 hs
    obtain ⟨-, rfl⟩ := getElem?_ofStrata.1 ht
    exact tested_congr hgroups hothers

/-- Three samples of one class and four of another in three folds: the second class is dealt from the place 3 on,
so it is the first fold's turn twice. -/
theorem split_stratified_seven :
    let y : List Float := [1.0, 0.0, 1.0, 1.0, 0.0, 1.0, 0.0]
    (2 ≤ 3 ∧ 3 ≤ y.length) ∧ ∃ splits, split 3 (some 10) y = .ok splits ∧
      IsStratified 3 (y.map Scalar.round) splits ∧
      ∀ s, splits[0]? = some s →
        s.tested (y.map Scalar.round) 0 = 1 ∧ s.tested (y.map Scalar.round) 1 = 2 := by
  intro y
  have hkeys : y.map Scalar.round = [1, 0, 1, 1, 0, 1, 0] := by decide +kernel
  have hclasses : classesOf (y.map Scalar.round) = [0, 1] := by
    rw [hkeys]
    cbv
  obtain ⟨-, hsplits, -⟩ := split_stratified 3 y (by decide) (by decide)
  obtain ⟨splits, hsplit, hstratified⟩ := hsplits (some 10)
  refine ⟨⟨by decide, by decide⟩, splits, hsplit, hstratified, fun s hs => ⟨?_, ?_⟩⟩
  · rw [hstratified.tested_eq 0 s hs 0 0 (by rw [hclasses]; rfl), offset, hclasses, hkeys]
    decide
  · rw [hstratified.tested_eq 0 s hs 1 1 (by rw [hclasses]; rfl), offset, hclasses, hkeys]
    decide

end Folds

end PackageTriage
