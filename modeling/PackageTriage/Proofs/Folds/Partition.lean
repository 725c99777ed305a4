import PackageTriage.Proofs.Folds.Dealing

/-!
# Folds partition the samples

Whatever order the samples of a class come in, the splits test every sample exactly once and train on
all samples that they do not test. The argument only needs that the groups together hold every sample
once, so it covers each shuffle.
-/

namespace PackageTriage.Folds

/-- The splits of `count` samples into `n` folds: the fold of a split is its place, every sample is in
the test set of exactly one split and in the training set of all others. -/
structure IsPartition (n count : Nat) (splits : List Split) : Prop where
  length_eq : splits.length = n
  fold_eq : ∀ (f : Nat) (s : Split), splits[f]? = some s → s.fold = f
  test_lt : ∀ s ∈ splits, ∀ i ∈ s.test, i < count
  tested_once : ∀ i < count, ∃! f : Nat, ∃ s : Split, splits[f]? = some s ∧ i ∈ s.test
  train_iff : ∀ s ∈ splits, ∀ i, i ∈ s.train ↔ i < count ∧ i ∉ s.test
  test_increasing : ∀ s ∈ splits, s.test.Pairwise (· < ·)
  train_increasing : ∀ s ∈ splits, s.train.Pairwise (· < ·)
  test_ne_nil : ∀ s ∈ splits, s.test ≠ []
  train_ne_nil : ∀ s ∈ splits, s.train ≠ []

@[simp] theorem mem_test_splitOf {n f i : Nat} {samples : List Nat} :
    i ∈ (splitOf n samples f).test ↔ i ∈ deal n samples f := by
  simp [splitOf]

/-- A sample is trained on where another fold tests it. -/
theorem mem_train_splitOf {n f i : Nat} {samples : List Nat} :
    i ∈ (splitOf n samples f).train ↔ ∃ g < n, g ≠ f ∧ i ∈ deal n samples g := by
  simp [splitOf, and_assoc]

/-- A split trains on exactly the samples that it does not test. -/
theorem mem_train_iff {n f i : Nat} {samples : List Nat} (hf : f < n) (h : samples.Nodup) :
    i ∈ (splitOf n samples f).train ↔ i ∈ samples ∧ i ∉ (splitOf n samples f).test := by
  rw [mem_train_splitOf, mem_test_splitOf]
  constructor
  · rintro ⟨g, -, hgf, hg⟩
    exact ⟨mem_of_mem_deal hg, fun hi => hgf (deal_disjoint h hg hi)⟩
  · rintro ⟨hi, hif⟩
    obtain ⟨g, hg, hig⟩ := exists_mem_deal (Nat.zero_lt_of_lt hf) hi
    exact ⟨g, hg, fun he => hif (he ▸ hig), hig⟩

theorem test_splitOf_increasing {n f : Nat} {samples : List Nat} (h : samples.Nodup) :
    (splitOf n samples f).test.Pairwise (· < ·) :=
  ascending_increasing (deal_nodup h)

theorem train_splitOf_increasing {n f : Nat} {samples : List Nat} (h : samples.Nodup) :
    (splitOf n samples f).train.Pairwise (· < ·) :=
  ascending_increasing (flatMap_deal_nodup h (List.nodup_range.filter _))

/-- No fold is empty as long as there are at least as many samples as folds. -/
theorem test_splitOf_ne_nil {n f : Nat} {samples : List Nat} (hf : f < n) (h : n ≤ samples.length) :
    (splitOf n samples f).test ≠ [] := by
  obtain ⟨i, hi⟩ := List.exists_mem_of_ne_nil _ (deal_ne_nil hf h)
  exact List.ne_nil_of_mem (mem_test_splitOf.2 hi)

/-- With two folds at least there is another one to train on. -/
theorem train_splitOf_ne_nil {n f : Nat} {samples : List Nat} (hn : 2 ≤ n) (h : n ≤ samples.length) :
    (splitOf n samples f).train ≠ [] := by
  have hother : ∃ g < n, g ≠ f := by
    by_cases hf : f = 0
    · exact ⟨1, by omega, by omega⟩
    · exact ⟨0, by omega, Ne.symm hf⟩
  obtain ⟨g, hg, hgf⟩ := hother
  obtain ⟨i, hi⟩ := List.exists_mem_of_ne_nil _ (deal_ne_nil hg h)
  exact List.ne_nil_of_mem (mem_train_splitOf.2 ⟨g, hg, hgf, hi⟩)

/-- Neighbours are dealt out to two folds, so every split trains on one of them at least. -/
theorem mem_train_of_neighbours {n f t i j : Nat} {samples : List Nat} (hn : 2 ≤ n)
    (hi : samples[t]? = some i) (hj : samples[t + 1]? = some j) :
    i ∈ (splitOf n samples f).train ∨ j ∈ (splitOf n samples f).train := by
  have hpos : 0 < n := by omega
  simp only [mem_train_splitOf]
  by_cases hf : t % n = f
  · have hne : (t + 1) % n ≠ f := by
      intro heq
      have hdvd := (Nat.modEq_iff_dvd' (Nat.le_succ t)).1 (hf.trans heq.symm)
      simp only [Nat.succ_eq_add_one, Nat.add_sub_cancel_left, Nat.dvd_one] at hdvd
      omega
    exact .inr ⟨(t + 1) % n, Nat.mod_lt _ hpos, hne, mem_deal.2 ⟨t + 1, hj, rfl⟩⟩
  · exact .inl ⟨t % n, Nat.mod_lt _ hpos, hf, mem_deal.2 ⟨t, hi, rfl⟩⟩

/-- A class that occurs twice is in every training set. -/
theorem exists_mem_train {n f : Nat} {keys : List Int} {groups : List (List Nat)} {k : Int} (hn : 2 ≤ n)
    (h : List.Forall₂ List.Perm groups (strata keys)) (hk : 2 ≤ keys.count k) :
    ∃ i ∈ (splitOf n groups.flatten f).train, keys[i]? = some k := by
  obtain ⟨t, i, j, hi, hj, hik, hjk⟩ := exists_neighbours h hk
  rcases mem_train_of_neighbours hn hi hj with htrain | htrain
  · exact ⟨i, htrain, hik⟩
  · exact ⟨j, htrain, hjk⟩

/-- A class that occurs once at most is missing from some training set. -/
theorem exists_not_mem_train {n : Nat} {keys : List Int} {groups : List (List Nat)} {k : Int} (hn : 2 ≤ n)
    (h : List.Forall₂ List.Perm groups (strata keys)) (hk : keys.count k < 2) :
    ∃ f < n, ∀ i ∈ (splitOf n groups.flatten f).train, keys[i]? ≠ some k := by
  have hperm : groups.flatten.Perm (List.range keys.length) :=
    (List.Perm.flatten_congr h).trans (strata_perm keys)
  have hnodup : groups.flatten.Nodup := hperm.nodup_iff.2 List.nodup_range
  rw [← length_membersOf] at hk
  match hmembers : membersOf keys k with
  | [] =>
    refine ⟨0, by omega, fun i _ hi => ?_⟩
    have hmem := mem_membersOf.2 hi
    simp [hmembers] at hmem
  | [only] =>
    -- The only member is tested by one split, which therefore does not train on it.
    have honly : only < keys.length := by
      have hkey : keys[only]? = some k := mem_membersOf.1 (by simp [hmembers])
      exact (List.getElem?_eq_some_iff.1 hkey).1
    obtain ⟨f, hf, hdeal⟩ :=
      exists_mem_deal (by omega : 0 < n) (hperm.mem_iff.2 (List.mem_range.2 honly))
    refine ⟨f, hf, fun i hi hik => ?_⟩
    have hmem := mem_membersOf.2 hik
    obtain rfl : i = only := by simpa [hmembers] using hmem
    exact ((mem_train_iff hf hnodup).1 hi).2 (mem_test_splitOf.2 hdeal)
  | _ :: _ :: _ => simp [hmembers] at hk

theorem getElem?_ofStrata {n f : Nat} {groups : List (List Nat)} {s : Split} :
    (ofStrata n groups)[f]? = some s ↔ f < n ∧ splitOf n groups.flatten f = s := by
  simp only [ofStrata, List.getElem?_map, Option.map_eq_some_iff, List.getElem?_eq_some_iff,
    List.length_range, List.getElem_range]
  constructor
  · rintro ⟨g, ⟨hf, rfl⟩, hs⟩
    exact ⟨hf, hs⟩
  · rintro ⟨hf, hs⟩
    exact ⟨f, ⟨hf, rfl⟩, hs⟩

theorem mem_ofStrata {n : Nat} {groups : List (List Nat)} {s : Split} :
    s ∈ ofStrata n groups ↔ ∃ f < n, splitOf n groups.flatten f = s := by
  simp [ofStrata]

/-- Groups that together hold every sample once give a partition. -/
theorem ofStrata_isPartition {n count : Nat} {groups : List (List Nat)} (hn : 2 ≤ n) (hcount : n ≤ count)
    (h : groups.flatten.Perm (List.range count)) : IsPartition n count (ofStrata n groups) := by
  have hnodup : groups.flatten.Nodup := h.nodup_iff.2 List.nodup_range
  have hmem : ∀ i, i ∈ groups.flatten ↔ i < count := fun i => by rw [h.mem_iff, List.mem_range]
  have hlength : n ≤ groups.flatten.length := by rw [h.length_eq, List.length_range]; exact hcount
  constructor
  case length_eq => simp [ofStrata]
  case fold_eq =>
    intro f s hs
    obtain ⟨-, rfl⟩ := getElem?_ofStrata.1 hs
    rfl
  case tested_once =>
    intro i hi
    obtain ⟨f, hf, hif⟩ := exists_mem_deal (by omega : 0 < n) ((hmem i).2 hi)
    refine ⟨f, ⟨_, getElem?_ofStrata.2 ⟨hf, rfl⟩, mem_test_splitOf.2 hif⟩, ?_⟩
    rintro g ⟨s, hs, hig⟩
    obtain ⟨-, rfl⟩ := getElem?_ofStrata.1 hs
    exact deal_disjoint hnodup (mem_test_splitOf.1 hig) hif
  all_goals
    intro s hs
    obtain ⟨f, hf, rfl⟩ := mem_ofStrata.1 hs
  case test_lt => exact fun i hi => (hmem i).1 (mem_of_mem_deal (mem_test_splitOf.1 hi))
  case train_iff => exact fun i => by rw [mem_train_iff hf hnodup, hmem]
  case test_increasing => exact test_splitOf_increasing hnodup
  case train_increasing => exact train_splitOf_increasing hnodup
  case test_ne_nil => exact test_splitOf_ne_nil hf hlength
  case train_ne_nil => exact train_splitOf_ne_nil hn hlength

/-- The split that tests a sample, in place of its fold. -/
theorem IsPartition.existsUnique_split {n count : Nat} {splits : List Split}
    (h : IsPartition n count splits) {i : Nat} (hi : i < count) : ∃! s, s ∈ splits ∧ i ∈ s.test := by
  obtain ⟨f, ⟨s, hs, his⟩, hunique⟩ := h.tested_once i hi
  refine ⟨s, ⟨List.mem_of_getElem? hs, his⟩, ?_⟩
  rintro t ⟨ht, hit⟩
  obtain ⟨g, hg⟩ := List.getElem?_of_mem ht
  obtain rfl : g = f := hunique g ⟨t, hg, hit⟩
  simpa [hg] using hs

/-- The test sets one behind the other hold every sample once. -/
theorem flatMap_test_perm {n count : Nat} {groups : List (List Nat)} (hn : 0 < n)
    (h : groups.flatten.Perm (List.range count)) :
    ((ofStrata n groups).flatMap Split.test).Perm (List.range count) := by
  have hfold : (ofStrata n groups).flatMap Split.test =
      (List.range n).flatMap fun f => ascending (deal n groups.flatten f) := by
    simp [ofStrata, splitOf, List.flatMap_map]
  have hsorted : ((List.range n).flatMap fun f => ascending (deal n groups.flatten f)).Perm
      ((List.range n).flatMap (deal n groups.flatten)) :=
    List.Perm.flatMap_left _ fun f _ => List.mergeSort_perm _ _
  rw [hfold]
  exact (hsorted.trans (flatMap_deal_perm hn (h.nodup_iff.2 List.nodup_range))).trans h

section

variable {α : Type} [Scalar α]

/-- Groups of the samples of each class, in any order within a class, hold every sample once. -/
theorem shuffled_perm {y : List α} {groups : List (List Nat)}
    (h : List.Forall₂ List.Perm groups (strata (y.map Scalar.round))) :
    groups.flatten.Perm (List.range y.length) := by
  simpa using (List.Perm.flatten_congr h).trans (strata_perm (y.map Scalar.round))

/-- What splitting gives when there are folds and samples enough. -/
theorem split_eq_ok {n : Nat} (seed : Option UInt64) {y : List α} (hn : 2 ≤ n) (hy : n ≤ y.length) :
    ∃ groups, List.Forall₂ List.Perm groups (strata (y.map Scalar.round)) ∧
      split n seed y = .ok (ofStrata n groups) := by
  have hn' : ¬n < 2 := by omega
  have hy' : ¬y.length < n := by omega
  cases seed with
  | none => exact ⟨_, List.forall₂_same.2 fun _ _ => .refl _, by simp [split, hn', hy']⟩
  | some s =>
    refine ⟨_, Generator.shuffleEach_perm (strata (y.map Scalar.round)) (ChaCha.ofSeed s), ?_⟩
    simp [split, hn', hy']

theorem split_eq_error {n : Nat} (seed : Option UInt64) {y : List α} (h : ¬(2 ≤ n ∧ n ≤ y.length)) :
    ∃ fault, split n seed y = .error (.data fault) := by
  by_cases hn : n < 2
  · exact ⟨.fewFolds, by simp [split, hn]⟩
  · have hy : y.length < n := by omega
    exact ⟨.fewSamples y.length n, by simp [split, hn, hy]⟩

/-- Splits that were made come from groups that hold every sample once. -/
theorem exists_groups {n : Nat} {seed : Option UInt64} {y : List α} {splits : List Split}
    (h : split n seed y = .ok splits) :
    2 ≤ n ∧ n ≤ y.length ∧ ∃ groups : List (List Nat),
      groups.flatten.Perm (List.range y.length) ∧ splits = ofStrata n groups := by
  by_cases hy : 2 ≤ n ∧ n ≤ y.length
  · obtain ⟨groups, hgroups, hsplit⟩ := split_eq_ok seed hy.1 hy.2
    rw [hsplit, Except.ok.injEq] at h
    exact ⟨hy.1, hy.2, groups, shuffled_perm hgroups, h.symm⟩
  · obtain ⟨fault, hfault⟩ := split_eq_error seed hy
    rw [hfault] at h
    contradiction

/-- Where folds and samples suffice, splitting succeeds with a partition, for every seed and for every
other order within the classes. Elsewhere it fails because of the data. -/
theorem split_partitions (n : Nat) (y : List α) :
    (2 ≤ n ∧ n ≤ y.length →
      (∀ seed, ∃ splits, split n seed y = .ok splits ∧ IsPartition n y.length splits) ∧
      ∀ groups, List.Forall₂ List.Perm groups (strata (y.map Scalar.round)) →
        IsPartition n y.length (ofStrata n groups)) ∧
    (¬(2 ≤ n ∧ n ≤ y.length) → ∀ seed, ∃ fault, split n seed y = .error (.data fault)) := by
  refine ⟨?_, fun h seed => split_eq_error seed h⟩
  rintro ⟨hn, hy⟩
  have hgroups : ∀ groups, List.Forall₂ List.Perm groups (strata (y.map Scalar.round)) →
      IsPartition n y.length (ofStrata n groups) :=
    fun groups h => ofStrata_isPartition hn hy (shuffled_perm h)
  refine ⟨fun seed => ?_, hgroups⟩
  obtain ⟨groups, h, hsplit⟩ := split_eq_ok seed hn hy
  exact ⟨_, hsplit, hgroups groups h⟩

end

/-- Seven samples of two classes in three folds, with the samples of both classes reversed; and two
samples are too few for three folds. -/
theorem split_partitions_seven :
    let y : List Float := [1.0, 0.0, 1.0, 1.0, 0.0, 1.0, 0.0]
    (2 ≤ 3 ∧ 3 ≤ y.length) ∧ (∃ splits, split 3 (some 10) y = .ok splits ∧ IsPartition 3 7 splits) ∧
      List.Forall₂ List.Perm [[6, 4, 1], [5, 3, 2, 0]] (strata (y.map Scalar.round)) ∧
      IsPartition 3 7 (ofStrata 3 [[6, 4, 1], [5, 3, 2, 0]]) ∧
      ∃ fault, split 3 none (y.take 2) = .error (.data fault) := by
  intro y
  have hkeys : y.map Scalar.round = [1, 0, 1, 1, 0, 1, 0] := by decide +kernel
  have hstrata : strata [1, 0, 1, 1, 0, 1, 0] = [[1, 4, 6], [0, 2, 3, 5]] := by cbv
  have hgroups : List.Forall₂ List.Perm [[6, 4, 1], [5, 3, 2, 0]] (strata (y.map Scalar.round)) := by
    rw [hkeys, hstrata]
    exact .cons (by decide) (.cons (by decide) .nil)
  have h := (split_partitions 3 y).1 ⟨by decide, by decide⟩
  exact ⟨⟨by decide, by decide⟩, h.1 (some 10), hgroups, h.2 _ hgroups,
    (split_partitions 3 (y.take 2)).2 (by decide) none⟩

end PackageTriage.Folds
