import PackageTriage.Proofs.Classifier.Classes
import PackageTriage.Proofs.Scalar.Comparison
import PackageTriage.Proofs.Tree.Counting
import PackageTriage.Tree.Growth

/-!
# Most frequent labels

The classes of labels that are numbers rise, and every label is the same as just one of them. The counts of a tree's
node are therefore the frequencies of the classes among its labels, and the majority of these is the most frequent
label, the lowest one on ties.
-/

namespace PackageTriage.Classes

variable {α : Type} [Scalar α]

def frequency (labels : List α) (c : α) : Nat := labels.countP (Scalar.same c)

/-- The first of the classes that no other is more frequent than. -/
def mostFrequent (classes labels : List α) : α :=
  (classes.find? fun c => classes.all fun d => frequency labels d ≤ frequency labels c).getD 0

/-- The value occurs among the labels, none occurs more often, and none that occurs as often is lower. -/
structure IsMostFrequent (labels : List α) (value : α) : Prop where
  occurs : 0 < frequency labels value
  most : ∀ c, frequency labels c ≤ frequency labels value
  lowest : ∀ c, frequency labels c = frequency labels value → Scalar.less c value = false

/-- The classes rise, and every label belongs to one of them. -/
structure Classify (classes labels : List α) : Prop where
  rising : classes.Pairwise fun c d => Scalar.less c d = true
  covers : ∀ l ∈ labels, ∃ c ∈ classes, Scalar.same c l = true

variable [OrderedScalar α] {classes labels : List α}

theorem rising_dropAfter {c : α} {cs : List α} (hnumber : ∀ d ∈ c :: cs, Scalar.isNumber d = true)
    (hsorted : (c :: cs).Pairwise fun a b => Scalar.rank a b = true) :
    (c :: dropRepeats.dropAfter c cs).Pairwise fun a b => Scalar.less a b = true := by
  induction cs generalizing c with
  | nil => exact List.pairwise_singleton _ c
  | cons d ds ih =>
    rw [dropRepeats.dropAfter]
    split
    · exact ih (fun e he => hnumber e (by grind)) (hsorted.sublist (by simp))
    · next hne =>
      have hrest := ih (fun e he => hnumber e (List.mem_cons_of_mem c he)) (List.pairwise_cons.1 hsorted).2
      have hcd : Scalar.less c d = true := OrderedScalar.less_of_rank (hnumber c (by simp)) (hnumber d (by simp))
        ((List.pairwise_cons.1 hsorted).1 d (by simp)) (by simpa using hne)
      refine List.pairwise_cons.2 ⟨fun e he => ?_, hrest⟩
      rcases List.mem_cons.1 he with rfl | he
      · exact hcd
      · exact OrderedScalar.less_trans hcd ((List.pairwise_cons.1 hrest).1 e he)

/-- The distinct labels sort every label into exactly one class, numbers provided. -/
theorem classify_distinct {y : List α} (hy : ∀ c ∈ y, Scalar.isNumber c = true) : Classify (distinct y) y := by
  refine ⟨?_, fun l hl => exists_same_distinct (OrderedScalar.same_self (hy l hl)) hl⟩
  have hnumber : ∀ c ∈ y.mergeSort Scalar.rank, Scalar.isNumber c = true :=
    fun c hc => hy c ((List.mergeSort_perm y _).mem_iff.1 hc)
  have hsorted := OrderedScalar.sorted y
  rw [distinct]
  cases hlist : y.mergeSort Scalar.rank with
  | nil => exact List.Pairwise.nil
  | cons c cs =>
    rw [hlist] at hnumber hsorted
    exact rising_dropAfter hnumber hsorted

omit [OrderedScalar α] in
/-- The classes of labelled rows are enough for some of the rows. -/
theorem Classify.filter {β : Type} {rows : List (β × α)} (h : Classify classes (rows.map Prod.snd)) (p : β × α → Bool) :
    Classify classes ((rows.filter p).map Prod.snd) :=
  ⟨h.rising, fun l hl => h.covers l ((List.filter_sublist.map Prod.snd).subset hl)⟩

theorem frequency_congr (labels : List α) {c d : α} (h : Scalar.same c d = true) :
    frequency labels c = frequency labels d :=
  List.countP_congr fun _ _ =>
    ⟨fun hc => OrderedScalar.same_trans (OrderedScalar.same_symm h) hc, fun hd => OrderedScalar.same_trans h hd⟩

/-- Only one of the rising classes is the same as a label. -/
theorem index?_eq_some_iff (hrising : classes.Pairwise fun c d => Scalar.less c d = true) {place : Nat}
    (hplace : place < classes.length) (l : α) :
    index? classes l = some place ↔ Scalar.same classes[place] l = true := by
  rw [index?, List.findIdx?_eq_some_iff_getElem]
  constructor
  · rintro ⟨_, hsame, _⟩
    exact hsame
  · refine fun hsame => ⟨hplace, hsame, fun j hj hsame' => ?_⟩
    have hboth := OrderedScalar.same_trans hsame' (OrderedScalar.same_symm hsame)
    have hless := List.pairwise_iff_getElem.1 hrising j place (hj.trans hplace) hplace hj
    exact Bool.noConfusion ((OrderedScalar.same_iff.1 hboth).2.2.1.symm.trans hless)

/-- Counted by their places among the classes, labels have their frequencies. -/
theorem Classify.recount_indices (h : Classify classes labels) :
    ClassCounts.recount classes.length (indices classes labels) = classes.map (frequency labels) := by
  refine List.ext_getElem (by simp) fun place hplace hplace' => ?_
  rw [List.length_map] at hplace'
  rw [← List.getD_eq_getElem _ 0, ClassCounts.getD_recount _ hplace', List.getElem_map, indices, List.count,
    List.countP_map]
  refine List.countP_congr fun l hl => ?_
  obtain ⟨found, hfound⟩ := exists_index? (h.covers l hl)
  rw [← index?_eq_some_iff h.rising hplace' l, hfound]
  simp [hfound]

omit [OrderedScalar α] in
/-- The most frequent class is the majority of the frequencies. -/
theorem mostFrequent_spec (hclasses : classes ≠ []) (labels : List α) :
    ∃ place, ∃ h : place < classes.length, place = ClassCounts.majority (classes.map (frequency labels)) ∧
      classes[place] = mostFrequent classes labels ∧
      (∀ c ∈ classes, frequency labels c ≤ frequency labels classes[place]) ∧
      ∀ i, ∀ hi : i < place, frequency labels classes[i] < frequency labels classes[place] := by
  have hcounts : classes.map (frequency labels) ≠ [] := by simpa using hclasses
  have hleads := ClassCounts.leads_majority hcounts
  generalize ClassCounts.majority (classes.map (frequency labels)) = place at hleads
  have hplace : place < classes.length := by simpa using hleads.lt
  have hcount {i : Nat} (hi : i < classes.length) :
      (classes.map (frequency labels)).getD i 0 = frequency labels classes[i] := by
    rw [List.getD_eq_getElem _ _ (by simpa using hi), List.getElem_map]
  have hmost : ∀ c ∈ classes, frequency labels c ≤ frequency labels classes[place] := by
    intro c hc
    obtain ⟨i, hi, rfl⟩ := List.getElem_of_mem hc
    rw [← hcount hi, ← hcount hplace]
    exact hleads.le i (by simpa using hi)
  have hbefore : ∀ i, ∀ hi : i < place, frequency labels classes[i] < frequency labels classes[place] := by
    intro i hi
    rw [← hcount (hi.trans hplace), ← hcount hplace]
    exact hleads.less i hi
  refine ⟨place, hplace, rfl, ?_, hmost, hbefore⟩
  have hfind : classes.find? (fun c => classes.all fun d => frequency labels d ≤ frequency labels c) =
      some classes[place] := by
    refine List.find?_eq_some_iff_getElem.2 ⟨by simpa using hmost, place, hplace, rfl, fun i hi => ?_⟩
    have hless := hbefore i hi
    simp only [Bool.not_eq_true', List.all_eq_false, decide_eq_true_eq, Nat.not_le]
    exact ⟨classes[place], List.getElem_mem hplace, hless⟩
  rw [mostFrequent, hfind, Option.getD_some]

/-- A leaf answers with the most frequent label of its samples. -/
theorem Classify.ofCounts (h : Classify classes labels) (n : Nat) :
    Node.ofCounts classes (ClassCounts.ofLabels classes.length (indices classes labels)) n =
      .leaf (mostFrequent classes labels) n := by
  rw [Node.ofCounts, ClassCounts.ofLabels_eq_recount, h.recount_indices]
  rcases eq_or_ne classes [] with rfl | hclasses
  · rfl
  · obtain ⟨place, hplace, hmajority, hvalue, -, -⟩ := mostFrequent_spec hclasses labels
    rw [← hmajority, List.getD_eq_getElem _ _ hplace, hvalue]

/-- The class found has the most labels, and of several such the lowest value. -/
theorem Classify.isMostFrequent (h : Classify classes labels) (hlabels : labels ≠ []) :
    IsMostFrequent labels (mostFrequent classes labels) := by
  obtain ⟨l, hl⟩ := List.exists_mem_of_ne_nil labels hlabels
  obtain ⟨c, hc, hcl⟩ := h.covers l hl
  obtain ⟨place, hplace, -, hvalue, hmost, hbefore⟩ := mostFrequent_spec (List.ne_nil_of_mem hc) labels
  rw [← hvalue]
  have hoccurs : 0 < frequency labels classes[place] :=
    (List.countP_pos_iff.2 ⟨l, hl, hcl⟩ : 0 < frequency labels c).trans_le (hmost c hc)
  -- What occurs at all is the same as some class, so it is enough to compare the value with the classes.
  have hclass {d : α} (hd : 0 < frequency labels d) : ∃ k ∈ classes, Scalar.same k d = true := by
    obtain ⟨l, hl, hdl⟩ := List.countP_pos_iff.1 hd
    obtain ⟨k, hk, hkl⟩ := h.covers l hl
    exact ⟨k, hk, OrderedScalar.same_trans hkl (OrderedScalar.same_symm hdl)⟩
  refine ⟨hoccurs, fun d => ?_, fun d hd => ?_⟩
  · rcases Nat.eq_zero_or_pos (frequency labels d) with hzero | hpos
    · exact hzero ▸ Nat.zero_le _
    · obtain ⟨k, hk, hkd⟩ := hclass hpos
      exact frequency_congr labels hkd ▸ hmost k hk
  · obtain ⟨k, hk, hkd⟩ := hclass (hd ▸ hoccurs)
    obtain ⟨i, hi, rfl⟩ := List.getElem_of_mem hk
    obtain ⟨hnumber, -, -, hnot⟩ := OrderedScalar.same_iff.1 hkd
    refine OrderedScalar.not_less_trans hnumber hnot ?_
    have hle : place ≤ i := by
      by_contra hlt
      have hless := hbefore i (not_le.1 hlt)
      rw [frequency_congr labels hkd, hd] at hless
      exact lt_irrefl _ hless
    rcases Nat.lt_or_eq_of_le hle with hlt | rfl
    · exact OrderedScalar.less_asymm (List.pairwise_iff_getElem.1 h.rising place i hplace hi hlt)
    · exact OrderedScalar.less_irrefl _

end PackageTriage.Classes
