import PackageTriage.Classes

/-!
# Class lists

The classes of a label vector are some of its labels, and every label that is the same as itself is the
same as one of them. The place of the best score is always the place of a score, whether the scores can
be compared or not.
-/

namespace PackageTriage.Classes

variable {α : Type} [Scalar α]

theorem length_dropAfter_le (c : α) (cs : List α) :
    (dropRepeats.dropAfter c cs).length ≤ cs.length := by
  induction cs generalizing c with
  | nil => simp [dropRepeats.dropAfter]
  | cons d ds ih =>
    rw [dropRepeats.dropAfter]
    split
    · exact Nat.le_trans (ih c) (by simp)
    · simpa using ih d

/-- There are no more classes than labels. -/
theorem length_distinct_le (y : List α) : (distinct y).length ≤ y.length := by
  have hsorted : (y.mergeSort Scalar.rank).length = y.length := List.length_mergeSort y
  rw [distinct, ← hsorted]
  cases y.mergeSort Scalar.rank with
  | nil => simp [dropRepeats]
  | cons c cs => simpa [dropRepeats] using length_dropAfter_le c cs

theorem dropRepeats_eq_nil {y : List α} : dropRepeats y = [] ↔ y = [] := by
  cases y <;> simp [dropRepeats]

/-- Labels that there are belong to some class. -/
theorem distinct_eq_nil {y : List α} : distinct y = [] ↔ y = [] := by
  rw [distinct, dropRepeats_eq_nil, ← List.length_eq_zero_iff, List.length_mergeSort,
    List.length_eq_zero_iff]

theorem mem_of_mem_dropAfter {c d : α} {cs : List α} (h : d ∈ dropRepeats.dropAfter c cs) : d ∈ cs := by
  induction cs generalizing c with
  | nil => simp [dropRepeats.dropAfter] at h
  | cons e es ih =>
    rw [dropRepeats.dropAfter] at h
    split at h
    · exact List.mem_cons_of_mem e (ih h)
    · rcases List.mem_cons.1 h with rfl | h
      · exact List.mem_cons_self
      · exact List.mem_cons_of_mem e (ih h)

/-- Every class is a label. -/
theorem mem_of_mem_distinct {y : List α} {c : α} (h : c ∈ distinct y) : c ∈ y := by
  rw [← (List.mergeSort_perm y Scalar.rank).mem_iff]
  rw [distinct] at h
  cases hsorted : y.mergeSort Scalar.rank with
  | nil => simp [hsorted, dropRepeats] at h
  | cons d ds =>
    rw [hsorted, dropRepeats] at h
    rcases List.mem_cons.1 h with rfl | h
    · exact List.mem_cons_self
    · exact List.mem_cons_of_mem d (mem_of_mem_dropAfter h)

/-- What is dropped is the same as the label that was kept before it. -/
theorem exists_same_dropAfter {c d : α} {cs : List α} (hself : Scalar.same d d = true) (hd : d ∈ cs) :
    ∃ k ∈ c :: dropRepeats.dropAfter c cs, Scalar.same k d = true := by
  induction cs generalizing c with
  | nil => simp at hd
  | cons e es ih =>
    rw [dropRepeats.dropAfter]
    rcases List.mem_cons.1 hd with rfl | hd
    · by_cases hsame : Scalar.same c d = true
      · exact ⟨c, List.mem_cons_self, hsame⟩
      · rw [if_neg hsame]
        exact ⟨d, by simp, hself⟩
    · by_cases hsame : Scalar.same c e = true
      · rw [if_pos hsame]
        exact ih hd
      · rw [if_neg hsame]
        obtain ⟨k, hk, hkd⟩ := ih (c := e) hd
        exact ⟨k, List.mem_cons_of_mem c hk, hkd⟩

/-- Every label that equals itself has its class: the check by value never misses. -/
theorem exists_same_distinct {y : List α} {c : α} (hself : Scalar.same c c = true) (hc : c ∈ y) :
    ∃ k ∈ distinct y, Scalar.same k c = true := by
  rw [← (List.mergeSort_perm y Scalar.rank).mem_iff] at hc
  rw [distinct]
  cases hsorted : y.mergeSort Scalar.rank with
  | nil => simp [hsorted] at hc
  | cons d ds =>
    rw [hsorted] at hc
    rw [dropRepeats]
    rcases List.mem_cons.1 hc with rfl | hc
    · exact ⟨c, List.mem_cons_self, hself⟩
    · exact exists_same_dropAfter hself hc

/-- All labels that are the same as the one that was kept are dropped. -/
theorem dropAfter_append {c : α} {cs : List α} (h : ∀ d ∈ cs, Scalar.same c d = true) (ds : List α) :
    dropRepeats.dropAfter c (cs ++ ds) = dropRepeats.dropAfter c ds := by
  induction cs with
  | nil => rfl
  | cons d cs ih =>
    rw [List.cons_append, dropRepeats.dropAfter, if_pos (h d (by simp)), ih fun e he => h e (by simp [he])]

theorem dropAfter_eq_nil {c : α} {cs : List α} (h : ∀ d ∈ cs, Scalar.same c d = true) :
    dropRepeats.dropAfter c cs = [] := by
  have happend := dropAfter_append h []
  rwa [List.append_nil] at happend

/-- The classes of equal labels and a last one that is above them. -/
theorem distinct_replicate {c d : α} (hcc : Scalar.same c c = true) (hcd : Scalar.same c d = false)
    (hrank : Scalar.rank c c = true) (hlast : Scalar.rank c d = true) (n : Nat) :
    distinct (List.replicate (n + 1) c ++ [d]) = [c, d] := by
  have hsorted : (List.replicate (n + 1) c ++ [d]).Pairwise fun a b => Scalar.rank a b = true := by
    simp [List.pairwise_append, List.pairwise_replicate, hrank, hlast]
  have hdrop : ∀ e ∈ List.replicate n c, Scalar.same c e = true :=
    fun e he => (List.eq_of_mem_replicate he).symm ▸ hcc
  rw [distinct, List.mergeSort_of_pairwise hsorted, List.replicate_succ, List.cons_append, dropRepeats,
    dropAfter_append hdrop, dropRepeats.dropAfter, hcd]
  rfl

/-- The labels fall into two kinds. Labels of one kind are the same, and what ranks behind a label of the
upper kind is of that kind too. -/
structure Binary (upper : α → Bool) (y : List α) : Prop where
  same_eq : ∀ a ∈ y, ∀ b ∈ y, Scalar.same a b = (upper a == upper b)
  rank_mono : ∀ a ∈ y, ∀ b ∈ y, Scalar.rank a b = true → upper a = true → upper b = true

section

variable {upper : α → Bool} {y : List α}

theorem Binary.subset {z : List α} (h : Binary upper y) (hz : z ⊆ y) : Binary upper z :=
  ⟨fun a ha b hb => h.same_eq a (hz ha) b (hz hb), fun a ha b hb => h.rank_mono a (hz ha) b (hz hb)⟩

/-- Of two groups of labels in order, everything behind the first label is one class. -/
theorem length_dropAfter_binary {c : α} {cs : List α} (h : Binary upper (c :: cs))
    (hsorted : (c :: cs).Pairwise fun a b => Scalar.rank a b = true) (hc : upper c = false)
    (hcs : ∃ d ∈ cs, upper d = true) : (dropRepeats.dropAfter c cs).length = 1 := by
  induction cs with
  | nil => simp at hcs
  | cons d ds ih =>
    have hsame := h.same_eq c (by simp) d (by simp)
    rw [dropRepeats.dropAfter]
    cases hd : upper d with
    | false =>
      have hds : ∃ e ∈ ds, upper e = true := by simpa [hd] using hcs
      rw [if_pos (by rw [hsame, hc, hd]; rfl)]
      exact ih (h.subset (by simp)) (hsorted.sublist (by simp)) hds
    | true =>
      -- The labels are sorted, so everything behind the first one of the upper kind is the same as it.
      have hrest : ∀ e ∈ ds, Scalar.same d e = true := by
        intro e he
        have hrank := (List.pairwise_cons.1 (List.pairwise_cons.1 hsorted).2).1 e he
        have hupper := h.rank_mono d (by simp) e (by simp [he]) hrank hd
        rw [h.same_eq d (by simp) e (by simp [he]), hd, hupper]
        rfl
      rw [if_neg (by rw [hsame, hc, hd]; simp), dropAfter_eq_nil hrest, List.length_singleton]

/-- Labels of both kinds have two classes. -/
theorem length_distinct_binary (h : Binary upper y)
    (htrans : ∀ a b c : α, Scalar.rank a b = true → Scalar.rank b c = true → Scalar.rank a c = true)
    (htotal : ∀ a b : α, (Scalar.rank a b || Scalar.rank b a) = true) (hupper : ∃ c ∈ y, upper c = true)
    (hlower : ∃ c ∈ y, upper c = false) : (distinct y).length = 2 := by
  have hperm := List.mergeSort_perm y Scalar.rank
  have hsorted := List.pairwise_mergeSort htrans htotal y
  have hbinary : Binary upper (y.mergeSort Scalar.rank) := h.subset hperm.subset
  simp only [← hperm.mem_iff] at hupper hlower
  rw [distinct]
  cases hlist : y.mergeSort Scalar.rank with
  | nil => simp [hlist] at hupper
  | cons c cs =>
    rw [hlist] at hsorted hbinary hupper hlower
    -- The first label is of the lower kind, for otherwise all of them are of the upper one.
    have hc : upper c = false := by
      obtain ⟨d, hd, hlow⟩ := hlower
      rcases List.mem_cons.1 hd with rfl | hmem
      · exact hlow
      · have hrank := (List.pairwise_cons.1 hsorted).1 d hmem
        have hmono := hbinary.rank_mono c (by simp) d hd hrank
        cases hup : upper c with
        | false => rfl
        | true => exact absurd (hlow.symm.trans (hmono hup)) (by simp)
    have hcs : ∃ d ∈ cs, upper d = true := by simpa [hc] using hupper
    rw [dropRepeats, List.length_cons, length_dropAfter_binary hbinary hsorted hc hcs]

/-- Labels that are all the same have one class. -/
theorem length_distinct_same (hy : y ≠ []) (h : ∀ a ∈ y, ∀ b ∈ y, Scalar.same a b = true) :
    (distinct y).length = 1 := by
  have hperm := List.mergeSort_perm y Scalar.rank
  rw [distinct]
  cases hlist : y.mergeSort Scalar.rank with
  | nil => exact absurd (List.length_eq_zero_iff.1 (by simpa [hlist] using hperm.length_eq.symm)) hy
  | cons c cs =>
    have hmem : ∀ d ∈ c :: cs, d ∈ y := fun d hd => hperm.mem_iff.1 (hlist ▸ hd)
    have hsame : ∀ d ∈ cs, Scalar.same c d = true :=
      fun d hd => h c (hmem c (by simp)) d (hmem d (by simp [hd]))
    rw [dropRepeats, dropAfter_eq_nil hsame, List.length_singleton]

end

theorem exists_index? {classes : List α} {c : α} (h : ∃ k ∈ classes, Scalar.same k c = true) :
    ∃ place, index? classes c = some place := by
  rw [← Option.isSome_iff_exists, index?, List.findIdx?_isSome, List.any_eq_true]
  exact h

/-- A label that is the same as itself has a place among the classes. -/
theorem exists_index?_distinct {y : List α} {c : α} (hself : Scalar.same c c = true) (hc : c ∈ y) :
    ∃ place, index? (distinct y) c = some place := exists_index? (exists_same_distinct hself hc)

/-- The place found lies among the scores, so that the look-up behind it succeeds. -/
theorem argmaxFrom_lt (score : α) (best place : Nat) (scores : List α) (hbest : best < place) :
    argmaxFrom score best place scores < place + scores.length := by
  induction scores generalizing score best place with
  | nil => exact hbest
  | cons s ss ih =>
    rw [argmaxFrom, List.length_cons]
    split
    · have hlt := ih s place (place + 1) (by omega)
      omega
    · have hlt := ih score best (place + 1) (by omega)
      omega

theorem argmax_lt {scores : List α} (h : scores ≠ []) : argmax scores < scores.length := by
  cases scores with
  | nil => exact absurd rfl h
  | cons s ss =>
    have hlt := argmaxFrom_lt s 0 1 ss Nat.zero_lt_one
    rw [argmax, List.length_cons]
    omega

end PackageTriage.Classes
