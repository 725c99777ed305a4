import PackageTriage.Proofs.Classifier.Labels
import PackageTriage.Proofs.Classifier.Majority
import PackageTriage.Proofs.Scalar.Shares
import PackageTriage.Proofs.Tree.SeparatedFits

/-!
# No vote is lost

Every tree of a forest is fitted to labels that the forest was fitted to, so whatever it answers is a label and
has its place among the classes of the forest, though tree and forest each found their classes by themselves.
The votes for a row that are counted are therefore as many as there are trees, every class gets the share of its
votes, and since shares are ordered as votes are, the best share is that of the most frequent vote.
-/

namespace PackageTriage

namespace Classes

section

variable {α : Type} [Scalar α] {score : Nat → α} {n : Nat}
  (hscore : ∀ c ≤ n, ∀ d ≤ n, Scalar.less (score c) (score d) = decide (c < d))
include hscore

/-- Of scores that are ordered as counts the best is that of the greatest count. -/
theorem argmaxFrom_map {count : Nat} {counts : List Nat} (hcount : count ≤ n) (hcounts : ∀ c ∈ counts, c ≤ n)
    (best place : Nat) :
    argmaxFrom (score count) best place (counts.map score) = ClassCounts.majorityFrom count best place counts := by
  induction counts generalizing count best place with
  | nil => rfl
  | cons c counts ih =>
    have hc := hcounts c List.mem_cons_self
    have hrest : ∀ d ∈ counts, d ≤ n := fun d hd => hcounts d (List.mem_cons_of_mem c hd)
    rw [List.map_cons, argmaxFrom, ClassCounts.majorityFrom, hscore count hcount c hc]
    by_cases hless : count < c
    · rw [if_pos (decide_eq_true hless), if_pos hless]
      exact ih hc hrest place (place + 1)
    · rw [if_neg (by simpa using hless), if_neg hless]
      exact ih hcount hrest best (place + 1)

/-- Any increasing score of the counts leads to the same winner, the lowest of equals. -/
theorem argmax_map {counts : List Nat} (hcounts : ∀ c ∈ counts, c ≤ n) :
    argmax (counts.map score) = ClassCounts.majority counts := by
  cases counts with
  | nil => rfl
  | cons c counts =>
    exact argmaxFrom_map hscore (hcounts c List.mem_cons_self)
      (fun d hd => hcounts d (List.mem_cons_of_mem c hd)) 0 1

/-- The class with the best share of the labels is the most frequent one. -/
theorem best_frequencies {classes labels : List α} (hclasses : classes ≠ []) (hlength : labels.length ≤ n) :
    best classes ((classes.map (frequency labels)).map score) = mostFrequent classes labels := by
  have hcounts : ∀ c ∈ classes.map (frequency labels), c ≤ n := by
    intro c hc
    obtain ⟨k, -, rfl⟩ := List.mem_map.1 hc
    exact List.countP_le_length.trans hlength
  obtain ⟨place, hplace, hmajority, hvalue, -, -⟩ := mostFrequent_spec hclasses labels
  rw [best, argmax_map hscore hcounts, ← hmajority, List.getD_eq_getElem _ _ hplace, hvalue]

end

variable {α : Type} [Scalar α] {classes labels votes : List α}

theorem Classify.subset (h : Classify classes labels) (hvotes : ∀ v ∈ votes, v ∈ labels) : Classify classes votes :=
  ⟨h.rising, fun v hv => h.covers v (hvotes v hv)⟩

variable [OrderedScalar α]

/-- Votes that all belong to a class are counted by their frequencies. -/
theorem Classify.tally_eq (h : Classify classes votes) :
    Forest.tally classes votes = classes.map (frequency votes) := by
  have hplaces : votes.filterMap (index? classes) = indices classes votes := by
    apply List.filterMap_eq_map_iff_forall_eq_some.2
    intro v hv
    obtain ⟨place, hplace⟩ := exists_index? (h.covers v hv)
    rw [hplace, Option.getD_some]
  rw [Forest.tally, hplaces, ← h.recount_indices, ← ClassCounts.ofLabels_eq_recount]
  rfl

/-- None of them is counted twice or not at all. -/
theorem Classify.sum_frequency (h : Classify classes votes) : (classes.map (frequency votes)).sum = votes.length := by
  have hplaces : ∀ place ∈ (indices classes votes : Multiset Nat), place ∈ Finset.range classes.length := by
    intro place hplace
    obtain ⟨v, hv, rfl⟩ := List.mem_map.1 (Multiset.mem_coe.1 hplace)
    obtain ⟨place, hplace⟩ := exists_index? (h.covers v hv)
    rw [hplace, Option.getD_some, Finset.mem_range]
    exact (List.findIdx?_eq_some_iff_getElem.1 hplace).1
  calc (classes.map (frequency votes)).sum
      = (ClassCounts.recount classes.length (indices classes votes)).sum := by rw [h.recount_indices]
    _ = ∑ place ∈ Finset.range classes.length, Multiset.count place (indices classes votes : Multiset Nat) := by
        simp only [Multiset.coe_count]
        rfl
    _ = votes.length := by rw [Multiset.sum_count_eq_card hplaces, Multiset.coe_card, indices, List.length_map]

end Classes

variable {α γ : Type} [Scalar α] [Scalar γ] {x z : Matrix α} {y : List α}

/-- A fitted tree answers every row with one of its labels. -/
theorem DecisionTree.answers_of_fit {t u : DecisionTree α} (h : t.fit γ x y = .ok u) (hz : z.width = x.width) :
    ∃ one : List α → α, u.predict z = .ok (z.rows.map one) ∧ ∀ r ∈ z.rows, one r ∈ y := by
  obtain ⟨hheight, hrows, root, g, hgrow, rfl⟩ := fit_eq_ok h
  refine ⟨root.predict, by simp [predict, hz], ?_⟩
  intro r hr
  have hwithin : root.Within r.length (Classes.distinct y) := by
    rw [z.rows_width r hr, hz]
    exact Node.within_of_grow (Matrix.distinct_ne_nil hrows hheight) hgrow
  obtain ⟨c, hc, hanswer⟩ := Node.exists_answer? hwithin
  show root.predict r ∈ y
  rw [Node.predict_of_answer? hanswer]
  exact Classes.mem_of_mem_distinct hc

namespace Forest

/-- So does every tree of a fitted forest. -/
theorem answers_of_fit {f g : Forest α} (h : f.fit γ x y = .ok g) (hz : z.width = x.width) :
    ∃ ones : List (List α → α), ones.length = g.trees.length ∧
      g.trees.mapM (·.predict z) = .ok (ones.map fun one => z.rows.map one) ∧
        ∀ one ∈ ones, ∀ r ∈ z.rows, one r ∈ y := by
  obtain ⟨hheight, -, hrows, trees, htrees, rfl⟩ := fit_eq_ok h
  have htree : ∀ t ∈ trees, ∃ one : List α → α, (∀ r ∈ z.rows, one r ∈ y) ∧ t.predict z = .ok (z.rows.map one) := by
    intro t ht
    obtain ⟨place, -, hplace⟩ := exists_of_mem_mapM htrees ht
    rw [fitTree_eq] at hplace
    obtain ⟨one, hone, hlabels⟩ := DecisionTree.answers_of_fit hplace hz
    exact ⟨one, fun r hr => mem_of_mem_drawn hrows hheight (hlabels r hr), hone⟩
  exact exists_mapM_eq_ok_map (k := fun one => z.rows.map one) htree

/-- What a fitted forest makes of its trees' answers, whichever scalars the shares are. -/
theorem counted_of_fit [OrderedScalar α] {f g : Forest α} (h : f.fit γ x y = .ok g)
    (hy : ∀ c ∈ y, Scalar.isNumber c = true) (hz : z.width = x.width) :
    ∃ predictions answers, g.trees.mapM (·.predict z) = .ok predictions ∧
      (∀ votes ∈ votesPerRow z.height predictions, votes.length = g.trees.length ∧
        tally g.classes votes = g.classes.map (Classes.frequency votes) ∧
          (tally g.classes votes).sum = g.trees.length) ∧
      g.probabilities z = .ok ((votesPerRow z.height predictions).map fun votes =>
        g.classes.map fun c => (Classes.frequency votes c : α) / (g.trees.length : α)) ∧
      g.predict z = .ok answers ∧
      ((∀ c ≤ g.trees.length, ∀ d ≤ g.trees.length, Scalar.less ((c : α) / (g.trees.length : α))
          ((d : α) / (g.trees.length : α)) = decide (c < d)) →
        List.Forall₂ (fun votes c => c ∈ g.classes ∧ Classes.IsMostFrequent votes c)
          (votesPerRow z.height predictions) answers) := by
  obtain ⟨ones, hlength, hpredictions, hlabels⟩ := answers_of_fit h hz
  have hnonempty := trees_ne_nil_of_fit h
  have hclasses : g.classes = Classes.distinct y ∧ g.classes ≠ [] := by
    obtain ⟨hheight, -, hrows, trees, -, rfl⟩ := fit_eq_ok h
    exact ⟨rfl, Matrix.distinct_ne_nil hrows hheight⟩
  have hvotes : ∀ votes ∈ votesPerRow z.height (ones.map fun one => z.rows.map one),
      votes.length = g.trees.length ∧ Classes.Classify g.classes votes := by
    intro votes hmem
    rw [Matrix.height, votesPerRow_map] at hmem
    obtain ⟨r, hr, rfl⟩ := List.mem_map.1 hmem
    refine ⟨(List.length_map _).trans hlength, ?_⟩
    rw [hclasses.1]
    apply (Classes.classify_distinct hy).subset
    intro v hv
    obtain ⟨one, hone, rfl⟩ := List.mem_map.1 hv
    exact hlabels one hone r hr
  have hshares : g.probabilities z = .ok ((votesPerRow z.height (ones.map fun one => z.rows.map one)).map
      fun votes => g.classes.map fun c => (Classes.frequency votes c : α) / (g.trees.length : α)) := by
    rw [probabilities, if_neg (by simpa using hnonempty), hpredictions, ok_bind, pure_eq_ok]
    refine congrArg Except.ok (List.map_congr_left fun votes hmem => ?_)
    rw [(hvotes votes hmem).2.tally_eq, List.map_map]
    rfl
  refine ⟨_, _, hpredictions, ?_, hshares, by rw [predict, hshares]; rfl, ?_⟩
  · intro votes hmem
    obtain ⟨hall, hclassify⟩ := hvotes votes hmem
    rw [hclassify.tally_eq, hclassify.sum_frequency]
    exact ⟨hall, rfl, hall⟩
  · intro hscore
    rw [List.map_map, List.forall₂_map_right_iff, List.forall₂_same]
    intro votes hmem
    obtain ⟨hall, hclassify⟩ := hvotes votes hmem
    have hbest := Classes.best_frequencies hscore hclasses.2 hall.le
    rw [List.map_map] at hbest
    have hsome : votes ≠ [] := by
      rw [← List.length_pos_iff, hall]
      exact List.length_pos_iff.2 hnonempty
    obtain ⟨place, hplace, -, hvalue, -, -⟩ := Classes.mostFrequent_spec hclasses.2 votes
    show Classes.best g.classes (g.classes.map ((fun c : Nat => (c : α) / (g.trees.length : α)) ∘
      Classes.frequency votes)) ∈ g.classes ∧ Classes.IsMostFrequent votes (Classes.best g.classes (g.classes.map
        ((fun c : Nat => (c : α) / (g.trees.length : α)) ∘ Classes.frequency votes)))
    rw [hbest]
    exact ⟨hvalue ▸ List.getElem_mem hplace, hclassify.isMostFrequent hsome⟩

/-- Whatever the rows hold: no tree's vote is lost, every class gets its votes' share of all, and the answer is the
class with the most votes, the lowest one on ties. Floats tell shares of up to `2⁵³` trees apart, and more trees
than that fit into no memory. -/
theorem votes_of_fit {f g : Forest Float} {x z : Matrix Float} {y : List Float} (h : f.fit γ x y = .ok g)
    (hy : ∀ c ∈ y, Scalar.isNumber c = true) (hz : z.width = x.width) :
    ∃ predictions answers, g.trees.mapM (·.predict z) = .ok predictions ∧ g.trees.length = f.size ∧
      (∀ votes ∈ votesPerRow z.height predictions, votes.length = g.trees.length ∧
        tally g.classes votes = g.classes.map (Classes.frequency votes) ∧
          (tally g.classes votes).sum = g.trees.length) ∧
      g.probabilities z = .ok ((votesPerRow z.height predictions).map fun votes =>
        g.classes.map fun c => (Classes.frequency votes c : Float) / (g.trees.length : Float)) ∧
      g.predict z = .ok answers ∧
      (f.size ≤ 2 ^ 53 → List.Forall₂ (fun votes c => c ∈ g.classes ∧ Classes.IsMostFrequent votes c)
        (votesPerRow z.height predictions) answers) := by
  have hlength := length_trees_of_fit h
  have hpos : 0 < g.trees.length := List.length_pos_iff.2 (trees_ne_nil_of_fit h)
  obtain ⟨predictions, answers, hpredictions, hcounted, hshares, hanswers, hmost⟩ := counted_of_fit h hy hz
  refine ⟨predictions, answers, hpredictions, hlength, hcounted, hshares, hanswers, fun hsize => hmost ?_⟩
  intro c hc d hd
  exact Binary.less_share hpos (hlength ▸ hsize) hc hd

def grove : Forest Float := { unfitted 3 with maxDepth := some 1 }

/-- Fitted to two samples of two classes, each on as many samples as it draws, they answer a third row. -/
theorem votes_of_fit_grove : ∃ g predictions answers,
    grove.fit Float (DecisionTree.twoRows 1 2) [0, 1] = .ok g ∧ (∀ c ∈ [(0 : Float), 1], Scalar.isNumber c = true) ∧
      g.trees.mapM (·.predict (.ofRow [1.5])) = .ok predictions ∧ g.predict (.ofRow [1.5]) = .ok answers ∧
        (∀ votes ∈ votesPerRow 1 predictions, (tally g.classes votes).sum = 3) ∧
          List.Forall₂ (fun votes c => c ∈ g.classes ∧ Classes.IsMostFrequent votes c) (votesPerRow 1 predictions)
            answers := by
  obtain ⟨g, hg⟩ := exists_fit_of_maxDepth (γ := Float) (f := grove) (x := DecisionTree.twoRows 1 2)
    (y := [(0 : Float), 1]) rfl (by decide) rfl (List.cons_ne_nil _ _)
  have hnumbers : ∀ c ∈ [(0 : Float), 1], Scalar.isNumber c = true := by decide +kernel
  obtain ⟨predictions, answers, hpredictions, hlength, hcounted, -, hanswers, hmost⟩ :=
    votes_of_fit hg hnumbers (z := .ofRow [1.5]) rfl
  have hsize : grove.size ≤ 2 ^ 53 := by decide
  refine ⟨g, predictions, answers, hg, hnumbers, hpredictions, hanswers, ?_, hmost hsize⟩
  intro votes hvotes
  exact (hcounted votes hvotes).2.2.trans hlength

end Forest

end PackageTriage
