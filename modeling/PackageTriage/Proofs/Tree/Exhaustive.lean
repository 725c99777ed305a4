import PackageTriage.Proofs.Tree.Boundaries

/-!
# Searching all splits

The plain way to the best split of a node: collect the splits at all boundaries of all features, count the classes of
both sides of each anew, and take the first one that no other gains more than. Growth finds the same split with one
sweep per feature and the best so far at hand, and no count of a sweep goes below zero.
-/

namespace PackageTriage

variable {α γ : Type} [Scalar γ]

/-- The first of the splits that no other gains more than, if it gains anything. -/
def firstGreatest (splits : List (Candidate α γ)) : Option (Candidate α γ) :=
  splits.find? fun c => Scalar.less 0 c.gain && splits.all fun d => !Scalar.less c.gain d.gain

/-- The best split of a node by one of the features, the earlier feature and the lower boundary winning ties. -/
def exhaustiveSplit (γ : Type) [Scalar γ] [Scalar α] (classes minLeaf : Nat) (samples : List (TreeSample α))
    (features : List Nat) : Option (Candidate α γ) :=
  firstGreatest (features.flatMap (splitsBy γ classes minLeaf samples))

/-- With what a search through some splits has to end: nothing if none of them gains anything, and else one that none
gains more than, while those before it gain less or nothing. -/
def Wins (splits : List (Candidate α γ)) : Option (Candidate α γ) → Prop
  | none => ∀ d ∈ splits, Scalar.less 0 d.gain = false
  | some c => Scalar.less 0 c.gain = true ∧ (∀ d ∈ splits, Scalar.less c.gain d.gain = false) ∧
    ∃ before behind, splits = before ++ c :: behind ∧
      ∀ d ∈ before, Scalar.less 0 d.gain = true → Scalar.less d.gain c.gain = true

/-- The winner is what the exhaustive search finds first. -/
theorem Wins.firstGreatest_eq {splits : List (Candidate α γ)} {best : Option (Candidate α γ)} (h : Wins splits best) :
    firstGreatest splits = best := by
  cases best with
  | none => exact List.find?_eq_none.2 fun d hd => by simp [h d hd]
  | some c =>
    obtain ⟨hpos, hmost, before, behind, rfl, hbefore⟩ := h
    refine List.find?_eq_some_iff_append.2 ⟨?_, before, behind, rfl, fun d hd => ?_⟩
    · rw [hpos, Bool.true_and, List.all_eq_true]
      exact fun d hd => by simp [hmost d hd]
    · cases hd' : Scalar.less 0 d.gain with
      | false => rfl
      | true => simp [hbefore d hd hd']

section

variable [OrderedScalar γ] {splits others : List (Candidate α γ)} {best : Option (Candidate α γ)}
  {new : Candidate α γ}

theorem not_less_of_not_pos {a b : γ} (ha : Scalar.less 0 a = true) (hb : Scalar.less 0 b = false) :
    Scalar.less a b = false := by
  by_contra hab
  exact Bool.noConfusion (hb.symm.trans (OrderedScalar.less_trans ha (Bool.not_eq_false _ ▸ hab)))

/-- Further splits that gain nothing change nothing. -/
theorem Wins.append_none (h : Wins splits best) (hothers : Wins others none) : Wins (splits ++ others) best := by
  cases best with
  | none => simpa [Wins, or_imp, forall_and] using ⟨h, hothers⟩
  | some c =>
    obtain ⟨hpos, hmost, before, behind, rfl, hbefore⟩ := h
    refine ⟨hpos, fun d hd => ?_, before, behind ++ others, by simp, hbefore⟩
    rcases List.mem_append.1 hd with hd | hd
    · exact hmost d hd
    · exact not_less_of_not_pos hpos (hothers d hd)

/-- The best of further splits wins over the best so far if it gains more. -/
theorem Wins.append_some (h : Wins splits best) (hothers : Wins others (some new)) :
    Wins (splits ++ others) (Candidate.better best new) := by
  obtain ⟨hpos, hmost, before, behind, rfl, hbefore⟩ := hothers
  cases best with
  | none =>
    rw [Candidate.better, if_pos hpos]
    refine ⟨hpos, fun d hd => ?_, splits ++ before, behind, by simp, fun d hd hd' => ?_⟩
    · rcases List.mem_append.1 hd with hd | hd
      · exact not_less_of_not_pos hpos (h d hd)
      · exact hmost d hd
    · rcases List.mem_append.1 hd with hd | hd
      · exact Bool.noConfusion ((h d hd).symm.trans hd')
      · exact hbefore d hd hd'
  | some b =>
    obtain ⟨hpos', hmost', before', behind', rfl, hbefore'⟩ := h
    cases hless : Scalar.less b.gain new.gain with
    | true =>
      rw [Candidate.better, if_pos hless]
      have hnumber {d : Candidate α γ} (hd : Scalar.less 0 d.gain = true) := (OrderedScalar.isNumber_of_less hd).2
      refine ⟨hpos, fun d hd => ?_, before' ++ b :: behind' ++ before, behind, by simp, fun d hd hd' => ?_⟩
      · rcases List.mem_append.1 hd with hd | hd
        · by_contra hnd
          exact Bool.noConfusion ((hmost' d hd).symm.trans
            (OrderedScalar.less_trans hless (Bool.not_eq_false _ ▸ hnd)))
        · exact hmost d hd
      · rcases List.mem_append.1 hd with hd | hd
        · refine (OrderedScalar.less_or_less (hnumber hd') hless).resolve_left fun hbd => ?_
          exact Bool.noConfusion ((hmost' d hd).symm.trans hbd)
        · exact hbefore d hd hd'
    | false =>
      rw [Candidate.better, if_neg (by simp [hless])]
      refine ⟨hpos', fun d hd => ?_, before', behind' ++ (before ++ new :: behind), by simp, hbefore'⟩
      rcases List.mem_append.1 hd with hd | hd
      · exact hmost' d hd
      · exact OrderedScalar.not_less_trans (OrderedScalar.isNumber_of_less hpos).2 hless (hmost d hd)

theorem Wins.better_of_not_pos (h : Wins splits best) (hnew : Scalar.less 0 new.gain = false) :
    Candidate.better best new = best := by
  cases best with
  | none => exact if_neg (by simp [hnew])
  | some b => exact if_neg (by simp [not_less_of_not_pos h.1 hnew])

omit [OrderedScalar γ] in
/-- Nothing wins exactly where no split gains. -/
theorem Wins.eq_none_iff (h : Wins splits best) : best = none ↔ ∀ d ∈ splits, Scalar.less 0 d.gain = false := by
  cases best with
  | none => exact iff_of_true rfl h
  | some c =>
    obtain ⟨hpos, -, before, behind, rfl, -⟩ := h
    refine iff_of_false (Option.some_ne_none c) fun hnone => ?_
    exact Bool.noConfusion ((hnone c (by simp)).symm.trans hpos)

/-- Going through the splits with the best so far at hand finds it. -/
theorem wins_foldl (splits : List (Candidate α γ)) : Wins splits (splits.foldl Candidate.better none) := by
  induction splits using List.reverseRecOn with
  | nil => nofun
  | append_singleton splits c ih =>
    rw [List.foldl_append, List.foldl_cons, List.foldl_nil]
    cases hc : Scalar.less 0 c.gain with
    | false =>
      rw [ih.better_of_not_pos hc]
      exact ih.append_none (by simpa [Wins] using hc)
    | true => exact ih.append_some ⟨hc, by simp [OrderedScalar.less_irrefl], [], [], rfl, nofun⟩

/-- Comparing the other way round, the features are gone through likewise. -/
theorem wins_firstBest {search : Nat → Option (Candidate α γ)} {splits : Nat → List (Candidate α γ)}
    (h : ∀ f, Wins (splits f) (search f)) (features : List Nat) :
    Wins (features.flatMap splits) (firstBest (features.filterMap search)) := by
  induction features using List.reverseRecOn with
  | nil => nofun
  | append_singleton features f ih =>
    have hf := h f
    rw [List.flatMap_append, List.flatMap_singleton, List.filterMap_append, firstBest, List.foldl_append, ← firstBest]
    cases hsearch : search f with
    | none =>
      rw [List.filterMap_cons_none hsearch, List.filterMap_nil, List.foldl_nil]
      exact ih.append_none (hsearch ▸ hf)
    | some new =>
      rw [hsearch] at hf
      have hwins := ih.append_some hf
      rw [List.filterMap_cons_some hsearch, List.filterMap_nil, List.foldl_cons, List.foldl_nil]
      cases hbest : firstBest (features.filterMap search) with
      | none =>
        rw [hbest, Candidate.better, if_pos hf.1] at hwins
        exact hwins
      | some b =>
        rw [hbest] at ih hwins
        have hcompare : Scalar.atMost new.gain b.gain = !Scalar.less b.gain new.gain :=
          OrderedScalar.atMost_eq (OrderedScalar.isNumber_of_less hf.1).2 (OrderedScalar.isNumber_of_less ih.1).2
        rw [Candidate.better] at hwins
        dsimp only at hwins ⊢
        rw [hcompare]
        cases hless : Scalar.less b.gain new.gain <;> simpa [hless] using hwins

end

section

variable [Scalar α] {samples : List (TreeSample α)} {classes : Nat}

/-- The sweeps over all features end at the winner. -/
theorem wins_bestSplit [OrderedScalar α] [OrderedScalar γ]
    (hnumber : ∀ s ∈ samples, ∀ f, Scalar.isNumber (s.features.getD f 0) = true) (minLeaf : Nat)
    (features : List Nat) : Wins (features.flatMap (splitsBy γ classes minLeaf samples))
      (bestSplit γ minLeaf (countsOf classes samples) samples features) := by
  refine wins_firstBest (fun f => ?_) features
  rw [bestBy_eq_foldl γ classes minLeaf fun s hs => hnumber s hs f]
  exact wins_foldl _

/-- While samples are left that a sweep has not moved, none of its counts is used up. -/
theorem counts_pos (minLeaf feature : Nat) (hlabels : ∀ s ∈ samples, s.label < classes) {k : Nat}
    (hk : k + 1 < samples.length) : ∃ v label, (sortedBy feature samples)[k]? = some (v, label) ∧
      label < (sweepAfter γ minLeaf (countsOf classes samples) samples feature k).left.length ∧
      0 < (sweepAfter γ minLeaf (countsOf classes samples) samples feature k).right.getD label 0 ∧
      0 < (sweepAfter γ minLeaf (countsOf classes samples) samples feature k).rightSize := by
  have hplace : k < (sortedBy feature samples).length := by rw [length_sortedBy]; omega
  obtain ⟨hleft, hright⟩ := counts_sweepAfter γ classes minLeaf feature (Nat.lt_of_succ_lt hk)
  obtain ⟨-, hrightSize⟩ := sizes_sweepAfter γ minLeaf (countsOf classes samples) feature (Nat.lt_of_succ_lt hk)
  have hlabel : (sortedBy feature samples)[k].2 < classes := by
    obtain ⟨s, hs, heq⟩ := List.mem_map.1 ((sortedBy_perm feature samples).mem_iff.1 (List.getElem_mem hplace))
    rw [← heq]
    exact hlabels s hs
  refine ⟨(sortedBy feature samples)[k].1, (sortedBy feature samples)[k].2, List.getElem?_eq_getElem hplace, ?_, ?_, ?_⟩
  · rw [hleft, ClassCounts.length_recount]
    exact hlabel
  · rw [hright, ClassCounts.getD_recount _ hlabel, List.count_pos_iff, List.drop_eq_getElem_cons hplace]
    exact List.mem_cons_self
  · omega

end

/-- Where all features are numbers, growth finds the split that the exhaustive search finds, and none only if no split
gains anything. On the way every count that a sweep lowers is positive, and so is the size of its right side. -/
theorem bestSplit_eq_exhaustive (γ : Type) [Scalar γ] [Scalar α] [OrderedScalar γ] [OrderedScalar α]
    {samples : List (TreeSample α)} {classes : Nat}
    (hnumber : ∀ s ∈ samples, ∀ v ∈ s.features, Scalar.isNumber v = true)
    (hlabels : ∀ s ∈ samples, s.label < classes) (minLeaf : Nat) (features : List Nat) :
    let counts := ClassCounts.ofLabels classes (samples.map (·.label))
    bestSplit γ minLeaf counts samples features = exhaustiveSplit γ classes minLeaf samples features ∧
    (bestSplit γ minLeaf counts samples features = none ↔
      ∀ c ∈ features.flatMap (splitsBy γ classes minLeaf samples), Scalar.less 0 c.gain = false) ∧
    ∀ f ∈ features, ∀ k, k + 1 < samples.length → ∃ v label, (sortedBy f samples)[k]? = some (v, label) ∧
      label < (sweepAfter γ minLeaf counts samples f k).left.length ∧
      0 < (sweepAfter γ minLeaf counts samples f k).right.getD label 0 ∧
      0 < (sweepAfter γ minLeaf counts samples f k).rightSize := by
  have hwins : Wins (features.flatMap (splitsBy γ classes minLeaf samples))
      (bestSplit γ minLeaf (countsOf classes samples) samples features) :=
    wins_bestSplit (fun s hs f => OrderedScalar.isNumber_getD (hnumber s hs) f) minLeaf features
  dsimp only
  rw [ofLabels_eq_countsOf]
  exact ⟨hwins.firstGreatest_eq.symm, hwins.eq_none_iff, fun f _ k hk => counts_pos minLeaf f hlabels hk⟩

def tiedSamples : List (TreeSample Float) := [⟨[1], 0⟩, ⟨[1], 1⟩, ⟨[2], 1⟩]

/-- The one boundary is between the two values, whichever of the tied samples is moved first. -/
theorem bestSplit_tied :
    (∀ s ∈ tiedSamples, ∀ v ∈ s.features, Scalar.isNumber v = true) ∧ (∀ s ∈ tiedSamples, s.label < 2) ∧
    bestSplit Float 1 (ClassCounts.ofLabels 2 [0, 1, 1]) tiedSamples [0] =
      exhaustiveSplit Float 2 1 tiedSamples [0] ∧
    (exhaustiveSplit Float 2 1 tiedSamples [0]).map (·.threshold) = some 1.5 := by
  have hnumber : ∀ s ∈ tiedSamples, ∀ v ∈ s.features, Scalar.isNumber v = true := by decide +kernel
  have hlabels : ∀ s ∈ tiedSamples, s.label < 2 := by decide
  have hboundaries : boundaries 0 tiedSamples = [((1 : Float), 2)] := by
    rw [boundaries, List.mergeSort_of_pairwise (by decide +kernel)]
    decide +kernel
  refine ⟨hnumber, hlabels, (bestSplit_eq_exhaustive Float hnumber hlabels 1 [0]).1, ?_⟩
  rw [exhaustiveSplit, List.flatMap_singleton, splitsBy, hboundaries]
  decide +kernel

end PackageTriage
