import PackageTriage.Proofs.Grids.Order
import PackageTriage.Proofs.Validation.TwoClasses

/-!
# Sweeps in the order of the grid

A sweep makes one row for each combination and in the order of the combinations. The row depends on the
combination, the samples and the splits, which only the labels decide, so other values of the grid do not matter
to it.
-/

namespace PackageTriage

namespace ValidationReport

variable {α : Type} [Scalar α] {f : Family} {x : Matrix α} {y : List α} {g : Grids α} {report : ValidationReport}

/-- The rows of a sweep are what cross-validation finds for the combinations, on the same splits for all grids. -/
theorem rows_of_sweep (h : sweep f x y g = .ok report) {splits : List Split}
    (hsplits : Folds.split folds (some seed) y = .ok splits) :
    report.rows.map .ok = (g.combinations f).map fun p => Validation.crossValidate p x y splits := by
  rw [sweep] at h
  split at h
  · cases h
  · rw [hsplits, ok_bind] at h
    obtain ⟨rows, hrows, hlast⟩ := bind_eq_ok.1 h
    obtain rfl := Except.ok.inj hlast
    exact (map_eq_map_ok hrows).symm

theorem exists_splits_of_sweep (h : sweep f x y g = .ok report) :
    ∃ splits, Folds.split folds (some seed) y = .ok splits := by
  rw [sweep] at h
  split at h
  · cases h
  · obtain ⟨splits, hsplits, -⟩ := bind_eq_ok.1 h
    exact ⟨splits, hsplits⟩

/-- The combinations go through the lists of a family once, the last list fastest, and a sweep makes the row of every
combination at its place. Whatever other values a grid lists, the row of a combination is the same. -/
theorem sweep_in_order (g : Grids α) (f : Family) :
    (g.combinations f).length = (g.bases f).prod ∧
    (∀ k < (g.bases f).prod, ∃ places p, (∀ ds, MixedRadix.IsWritten (g.bases f) ds k ↔ ds = places) ∧
      g.at? f places = some p ∧ (g.combinations f)[k]? = some p) ∧
    ∀ (x : Matrix α) (y : List α) (report : ValidationReport), sweep f x y g = .ok report →
      report.rows.length = (g.bases f).prod ∧
      ∃ splits, Folds.split 4 (some 10) y = .ok splits ∧
        (∀ (k : Nat) (p : Hyperparameters α), (g.combinations f)[k]? = some p →
          ∃ row, report.rows[k]? = some row ∧ Validation.crossValidate p x y splits = .ok row) ∧
        ∀ (g' : Grids α) (report' : ValidationReport), sweep f x y g' = .ok report' →
          ∀ k k' : Nat, (g'.combinations f)[k']? = (g.combinations f)[k]? → report'.rows[k']? = report.rows[k]? := by
  have hlists := g.lists_combinations f
  refine ⟨hlists.length_eq, fun k hk => ?_, fun x y report hreport => ?_⟩
  · have hlt : k < (g.combinations f).length := hlists.length_eq ▸ hk
    have hget : (g.combinations f)[k]? = some (g.combinations f)[k] := List.getElem?_eq_getElem hlt
    refine ⟨MixedRadix.digits (g.bases f) k, _, fun ds => ⟨MixedRadix.IsWritten.eq_digits, ?_⟩,
      (hlists.getElem?_eq k).symm.trans hget, hget⟩
    rintro rfl
    exact MixedRadix.isWritten_digits hk
  · obtain ⟨splits, hsplits⟩ := exists_splits_of_sweep hreport
    have hrows := rows_of_sweep hreport hsplits
    refine ⟨?_, splits, hsplits, fun k p hp => ?_, fun g' report' hreport' k k' heq => ?_⟩
    · rw [← hlists.length_eq, ← List.length_map (f := Except.ok (ε := Error)), hrows, List.length_map]
    · have hrow := congrArg (·[k]?) hrows
      rw [List.getElem?_map, List.getElem?_map, hp, Option.map_some, Option.map_eq_some_iff] at hrow
      obtain ⟨row, hrow, hvalue⟩ := hrow
      exact ⟨row, hrow, hvalue.symm⟩
    · have hplaces : (report'.rows.map (Except.ok (ε := Error)))[k']? = (report.rows.map Except.ok)[k]? := by
        rw [hrows, rows_of_sweep hreport' hsplits, List.getElem?_map, List.getElem?_map, heq]
      rw [List.getElem?_map, List.getElem?_map] at hplaces
      exact Option.map_injective (fun _ _ => Except.ok.inj) hplaces

/-- A sweep over naive Bayes classifiers goes through wherever there are enough samples. -/
theorem exists_sweep_naiveBayes {x : Matrix α} {y : List α} {g : Grids α} (hheight : x.height = y.length)
    (hfew : 4 ≤ y.length) (hne : g.naiveBayes.smoothings ≠ [])
    (hsmoothings : ∀ s ∈ g.naiveBayes.smoothings, Scalar.atMost 0 s = true) :
    ∃ report, sweep .naiveBayes x y g = .ok report := by
  obtain ⟨groups, hgroups, hsplit⟩ := Folds.split_eq_ok (some seed) (by decide : 2 ≤ folds) hfew
  have hpartition := Folds.ofStrata_isPartition (by decide) hfew (Folds.shuffled_perm hgroups)
  have hsound : ∀ s ∈ Folds.ofStrata folds groups, Validation.Sound y.length s :=
    fun s hs => Validation.sound_of_isPartition hpartition hs
  have hrows : ∀ p ∈ g.combinations .naiveBayes,
      ∃ row, Validation.crossValidate p x y (Folds.ofStrata folds groups) = .ok row := by
    intro p hp
    obtain ⟨smoothing, hmem, rfl⟩ := List.mem_map.1 hp
    refine Validation.exists_crossValidate hheight (fun s hs => (hsound s hs).test_lt) fun s hs => ?_
    have hselected : (x.select s.train).height = s.train.length :=
      Matrix.height_select (hheight ▸ (hsound s hs).train_lt)
    refine Classifier.exists_fit_naiveBayes ?_ ?_ (hsmoothings smoothing hmem)
    · have hpos : 0 < (x.select s.train).height := by
        rw [hselected]
        exact List.length_pos_iff.2 (hsound s hs).train_ne_nil
      exact List.ne_nil_of_length_pos hpos
    · rw [hselected, Validation.labelsAt_eq_map (hsound s hs).train_lt, List.length_map]
  obtain ⟨rows, hall⟩ := exists_mapM_eq_ok hrows
  have hsome : (g.combinations .naiveBayes).isEmpty = false := by
    simpa [Grids.combinations, NaiveBayesGrid.combinations]
  refine ⟨⟨.naiveBayes, rows⟩, ?_⟩
  simp only [sweep, hsome, hsplit, hall, ok_bind, pure_eq_ok, Bool.false_eq_true, ↓reduceIte]

/-- On four samples the row of the second of two smoothings is the one that a sweep over it alone makes. -/
theorem sweep_in_order_two :
    let x : Matrix Float := ⟨1, [[1], [2], [3], [4]], by simp⟩
    let y : List Float := [0, 1, 0, 1]
    let g : Grids Float := { (default : Grids Float) with naiveBayes := ⟨[1, 2]⟩ }
    let g' : Grids Float := { (default : Grids Float) with naiveBayes := ⟨[2]⟩ }
    ∃ report report', sweep .naiveBayes x y g = .ok report ∧ sweep .naiveBayes x y g' = .ok report' ∧
      report.rows.length = 2 ∧ report'.rows[0]? = report.rows[1]? := by
  intro x y g g'
  have hpositive : ∀ s ∈ [(1 : Float), 2], Scalar.atMost 0 s = true := by decide +kernel
  obtain ⟨report, hreport⟩ : ∃ report, sweep .naiveBayes x y g = .ok report :=
    exists_sweep_naiveBayes rfl le_rfl nofun hpositive
  obtain ⟨report', hreport'⟩ : ∃ report, sweep .naiveBayes x y g' = .ok report :=
    exists_sweep_naiveBayes rfl le_rfl nofun fun s hs => hpositive s (List.mem_cons_of_mem 1 hs)
  obtain ⟨-, -, hrows⟩ := sweep_in_order g .naiveBayes
  obtain ⟨hlength, -, -, -, hsame⟩ := hrows x y report hreport
  have hsecond : (g.combinations .naiveBayes)[1]? = some (.naiveBayes 2) := rfl
  have hfirst : (g'.combinations .naiveBayes)[0]? = some (.naiveBayes 2) := rfl
  exact ⟨report, report', hreport, hreport', hlength, hsame g' report' hreport' 1 0 (hfirst.trans hsecond.symm)⟩

end ValidationReport

end PackageTriage
