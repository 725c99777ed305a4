import PackageTriage.Folds
import PackageTriage.Proofs.Random.Draws

/-!
# Dealing out samples

Grouping by class, shuffling within the groups and dealing out to folds all keep the samples: none is
lost and none comes twice. Groups and folds are compared with the whole by membership, since all lists
here are without repetition.
-/

namespace PackageTriage

namespace Folds

@[simp] theorem mem_ascending {xs : List Nat} {i : Nat} : i ∈ ascending xs ↔ i ∈ xs := by
  simp [ascending]

/-- Without repetition the sorted list rises strictly. -/
theorem ascending_increasing {xs : List Nat} (h : xs.Nodup) : (ascending xs).Pairwise (· < ·) := by
  have hnodup : (ascending xs).Nodup := (List.mergeSort_perm xs _).nodup_iff.2 h
  have hsorted : (ascending xs).SortedLE := List.sortedLE_mergeSort
  exact (hsorted.sortedLT_of_nodup hnodup).pairwise

theorem mem_membersOf {keys : List Int} {k : Int} {i : Nat} :
    i ∈ membersOf keys k ↔ keys[i]? = some k := by
  simp only [membersOf, List.mem_filter, List.mem_range, beq_iff_eq, and_iff_right_iff_imp]
  intro h
  exact (List.getElem?_eq_some_iff.1 h).1

/-- A class has as many members as it occurs among the class codes. -/
theorem length_membersOf (keys : List Int) (k : Int) : (membersOf keys k).length = keys.count k := by
  have hkeys : (List.range keys.length).map (keys[·]?) = keys.map some := by
    apply List.ext_getElem
    · simp
    · intro i hi hi'
      simp
  have hcount := congrArg (List.count (some k)) hkeys
  rw [List.count_map_of_injective _ _ (Option.some_injective _)] at hcount
  rw [← hcount, List.count, List.countP_map, membersOf, List.countP_eq_length_filter]
  rfl

theorem mem_classesOf {keys : List Int} {k : Int} : k ∈ classesOf keys ↔ k ∈ keys := by
  simp [classesOf, List.mem_eraseDups]

theorem eraseDups_nodup : ∀ ks : List Int, ks.eraseDups.Nodup
  | [] => by simp
  | k :: ks => by
    rw [List.eraseDups_cons, List.nodup_cons]
    exact ⟨by simp [List.mem_eraseDups], eraseDups_nodup _⟩
termination_by ks => ks.length
decreasing_by
  have := List.length_filter_le (fun b => !b == k) ks
  simp only [List.length_cons]
  omega

theorem classesOf_nodup (keys : List Int) : (classesOf keys).Nodup := eraseDups_nodup _

theorem eraseDups_sublist : ∀ ks : List Int, ks.eraseDups.Sublist ks
  | [] => by simp
  | k :: ks => by
    rw [List.eraseDups_cons]
    exact ((eraseDups_sublist _).trans List.filter_sublist).cons_cons k
termination_by ks => ks.length
decreasing_by
  have := List.length_filter_le (fun b => !b == k) ks
  simp only [List.length_cons]
  omega

/-- The classes come in rising order. -/
theorem classesOf_increasing (keys : List Int) : (classesOf keys).Pairwise (· < ·) := by
  have hsorted : (keys.mergeSort (fun a b => a ≤ b)).SortedLE := List.sortedLE_mergeSort
  have hkept : (classesOf keys).SortedLE := (hsorted.pairwise.sublist (eraseDups_sublist _)).sortedLE
  exact (hkept.sortedLT_of_nodup (classesOf_nodup keys)).pairwise

/-- The classes together list every sample once. -/
theorem strata_nodup (keys : List Int) : (strata keys).flatten.Nodup := by
  rw [strata, ← List.flatMap_def, List.nodup_flatMap]
  refine ⟨fun k _ => List.nodup_range.filter _, (classesOf_nodup keys).imp ?_⟩
  intro k l hkl i hk hl
  rw [mem_membersOf] at hk hl
  exact hkl (Option.some.inj (hk.symm.trans hl))

theorem getElem?_strata {keys : List Int} {j : Nat} {k : Int} (h : (classesOf keys)[j]? = some k) :
    (strata keys)[j]? = some (membersOf keys k) := by
  rw [strata, List.getElem?_map, h, Option.map_some]

/-- Every sample is in the group of its class. -/
theorem strata_perm (keys : List Int) : (strata keys).flatten.Perm (List.range keys.length) := by
  rw [List.perm_ext_iff_of_nodup (strata_nodup keys) List.nodup_range]
  intro i
  simp only [strata, List.mem_flatten, List.mem_map, exists_exists_and_eq_and, mem_classesOf,
    mem_membersOf, List.mem_range]
  constructor
  · rintro ⟨k, -, hk⟩
    exact (List.getElem?_eq_some_iff.1 hk).1
  · intro h
    exact ⟨keys[i], List.getElem_mem h, List.getElem?_eq_getElem h⟩

/-- Put one behind the other, groups stay in one piece, each behind as many samples as the groups before it
have. -/
theorem exists_group {groups strata : List (List Nat)} (h : List.Forall₂ List.Perm groups strata)
    {j : Nat} {s : List Nat} (hs : strata[j]? = some s) :
    ∃ before group behind, groups.flatten = before ++ (group ++ behind) ∧ group.Perm s ∧
      before.length = ((strata.take j).map List.length).sum := by
  induction h generalizing j with
  | nil => simp at hs
  | @cons group stratum groups strata hgroup _ ih =>
    cases j with
    | zero =>
      obtain rfl : stratum = s := by simpa using hs
      exact ⟨[], group, groups.flatten, by simp, hgroup, by simp⟩
    | succ j =>
      obtain ⟨before, found, behind, heq, hperm, hlength⟩ := ih (by simpa using hs)
      refine ⟨group ++ before, found, behind, by simp [heq], hperm, ?_⟩
      simp [hlength, hgroup.length_eq]

/-- A class that occurs twice has two neighbours among the samples. -/
theorem exists_neighbours {keys : List Int} {groups : List (List Nat)} {k : Int}
    (h : List.Forall₂ List.Perm groups (strata keys)) (hk : 2 ≤ keys.count k) :
    ∃ t i j, groups.flatten[t]? = some i ∧ groups.flatten[t + 1]? = some j ∧ keys[i]? = some k ∧
      keys[j]? = some k := by
  have hmem : k ∈ keys := List.count_pos_iff.1 (by omega)
  obtain ⟨j, hj⟩ := List.mem_iff_getElem?.1 (mem_classesOf.2 hmem)
  obtain ⟨before, group, behind, heq, hperm, -⟩ := exists_group h (getElem?_strata hj)
  have hlength : 2 ≤ group.length := by rwa [hperm.length_eq, length_membersOf]
  have hgroup : ∀ i ∈ group, keys[i]? = some k := fun i hi => mem_membersOf.1 (hperm.mem_iff.1 hi)
  match group, hlength with
  | i :: j :: rest, _ =>
    refine ⟨before.length, i, j, ?_, ?_, hgroup i (by simp), hgroup j (by simp)⟩
    · simp [heq]
    · simp [heq]

/-- A fold gets every `n`-th sample. -/
theorem mem_deal {n f i : Nat} {samples : List Nat} :
    i ∈ deal n samples f ↔ ∃ t, samples[t]? = some i ∧ t % n = f := by
  simp only [deal, List.mem_map, List.mem_filter, List.mem_zipIdx_iff_getElem?, decide_eq_true_eq,
    Prod.exists, exists_and_right, exists_eq_right]

/-- Dealing never hands out a sample twice. -/
theorem deal_nodup {n f : Nat} {samples : List Nat} (h : samples.Nodup) : (deal n samples f).Nodup := by
  have hsub : (deal n samples f).Sublist (samples.zipIdx.map Prod.fst) :=
    List.filter_sublist.map Prod.fst
  rw [List.zipIdx_map_fst] at hsub
  exact h.sublist hsub

/-- No sample is dealt out to two folds. -/
theorem deal_disjoint {n f g i : Nat} {samples : List Nat} (h : samples.Nodup)
    (hf : i ∈ deal n samples f) (hg : i ∈ deal n samples g) : f = g := by
  obtain ⟨t, ht, rfl⟩ := mem_deal.1 hf
  obtain ⟨u, hu, rfl⟩ := mem_deal.1 hg
  have hlt := (List.getElem?_eq_some_iff.1 ht).1
  rw [(List.getElem?_inj hlt h).1 (ht.trans hu.symm)]

/-- Every sample is dealt out. -/
theorem exists_mem_deal {n i : Nat} {samples : List Nat} (hn : 0 < n) (hi : i ∈ samples) :
    ∃ f < n, i ∈ deal n samples f := by
  obtain ⟨t, ht⟩ := List.mem_iff_getElem?.1 hi
  exact ⟨t % n, Nat.mod_lt t hn, mem_deal.2 ⟨t, ht, rfl⟩⟩

theorem mem_of_mem_deal {n f i : Nat} {samples : List Nat} (h : i ∈ deal n samples f) :
    i ∈ samples := by
  obtain ⟨t, ht, -⟩ := mem_deal.1 h
  exact List.mem_of_getElem? ht

/-- With at least one sample for each fold none is left empty. -/
theorem deal_ne_nil {n f : Nat} {samples : List Nat} (hf : f < n) (h : n ≤ samples.length) :
    deal n samples f ≠ [] := by
  have hlt : f < samples.length := by omega
  exact List.ne_nil_of_mem (mem_deal.2 ⟨f, List.getElem?_eq_getElem hlt, Nat.mod_eq_of_lt hf⟩)

/-- Different folds share no sample. -/
theorem flatMap_deal_nodup {n : Nat} {samples : List Nat} (h : samples.Nodup) {folds : List Nat}
    (hfolds : folds.Nodup) : (folds.flatMap (deal n samples)).Nodup := by
  rw [List.nodup_flatMap]
  refine ⟨fun f _ => deal_nodup h, hfolds.imp ?_⟩
  intro f g hfg i hf hg
  exact hfg (deal_disjoint h hf hg)

/-- The folds together hold the samples. -/
theorem flatMap_deal_perm {n : Nat} (hn : 0 < n) {samples : List Nat} (h : samples.Nodup) :
    ((List.range n).flatMap (deal n samples)).Perm samples := by
  rw [List.perm_ext_iff_of_nodup (flatMap_deal_nodup h List.nodup_range) h]
  intro i
  simp only [List.mem_flatMap, List.mem_range]
  constructor
  · rintro ⟨f, -, hf⟩
    exact mem_of_mem_deal hf
  · exact exists_mem_deal hn

end Folds

end PackageTriage
