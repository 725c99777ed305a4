import PackageTriage.Proofs.Scalar.Order
import PackageTriage.Proofs.Scalar.Zeros
import PackageTriage.Proofs.Validation.OutOfFold
import PackageTriage.Validation.Report

/-!
# Sweeps of vector machines

A machine separates exactly two classes, so a sweep can run if every split trains on both. The samples are
dealt out class by class: a class that occurs twice has two neighbours in the deal, which go to different
folds, so each split trains on one of them. A class that occurs once is missing where it is tested. Nothing
else can fail once the grid is sound and the kernel matrix small enough.
-/

namespace PackageTriage

open Float.Model

namespace Label

def IsCode {α : Type} [Scalar α] (c : α) : Prop := Scalar.same c 0 = true ∨ Scalar.same c 1 = true

instance {α : Type} [Scalar α] (c : α) : Decidable (IsCode c) := inferInstanceAs (Decidable (_ ∨ _))

/-- Three floats are class codes, since zero comes with two signs. -/
theorem IsCode.mem {c : Float} (h : IsCode c) : c ∈ [(1 : Float), 0, -0] := by
  have hone : (1 : Float) ∈ [(1 : Float), 0, -0] := .head _
  have hzero : (0 : Float) ∈ [(1 : Float), 0, -0] := .tail _ (.head _)
  have hminus : (-0 : Float) ∈ [(1 : Float), 0, -0] := .tail _ (.tail _ (.head _))
  have hzeros : ∀ s, Binary.unpacked c = .zero s → c ∈ [(1 : Float), 0, -0] := by
    intro s hc
    cases s with
    | positive => exact Binary.unpacked_injective (hc.trans (rfl : _ = Binary.unpacked 0)) ▸ hzero
    | negative => exact Binary.unpacked_injective (hc.trans (rfl : _ = Binary.unpacked (-0))) ▸ hminus
  rcases h with h | h
  · rcases Binary.alike_of_same h with rfl | ⟨s, -, hc, -⟩
    · exact hzero
    · exact hzeros s hc
  · rcases Binary.alike_of_same h with rfl | ⟨s, -, hc, -⟩
    · exact hone
    · exact hzeros s hc

/-- Class codes are of two kinds. -/
theorem binary_of_codes {y : List Float} (h : ∀ c ∈ y, IsCode c) : Classes.Binary isPositive y := by
  have hsame : ∀ a ∈ [(1 : Float), 0, -0], ∀ b ∈ [(1 : Float), 0, -0],
      Scalar.same a b = (isPositive a == isPositive b) := by decide +kernel
  have hrank : ∀ a ∈ [(1 : Float), 0, -0], ∀ b ∈ [(1 : Float), 0, -0],
      Scalar.rank a b = true → isPositive a = true → isPositive b = true := by decide +kernel
  exact ⟨fun a ha b hb => hsame a (h a ha).mem b (h b hb).mem,
    fun a ha b hb => hrank a (h a ha).mem b (h b hb).mem⟩

/-- The class code that the folds group a kind of labels by. -/
def key (positive : Bool) : Int := if positive then 1 else 0

theorem key_injective {p q : Bool} (h : key p = key q) : p = q := by
  revert p q
  decide

theorem round_eq_key {c : Float} (h : IsCode c) : Scalar.round c = key (isPositive c) := by
  have hround : ∀ c ∈ [(1 : Float), 0, -0], Scalar.round c = key (isPositive c) := by decide +kernel
  exact hround c h.mem

end Label

/-- Both classes, the positive and the other one, occur at least `n` times. -/
def BothOccur (n : Nat) (y : List Float) : Prop :=
  ∀ positive : Bool, n ≤ y.countP fun c => Label.isPositive c == positive

instance (n : Nat) (y : List Float) : Decidable (BothOccur n y) :=
  inferInstanceAs (Decidable (∀ _ : Bool, _))

section

variable {y : List Float} (hcodes : ∀ c ∈ y, Label.IsCode c)

theorem bothOccur_one_iff : BothOccur 1 y ↔ ∀ positive, ∃ c ∈ y, Label.isPositive c = positive := by
  refine forall_congr' fun positive => ?_
  rw [Nat.succ_le_iff, List.countP_pos_iff]
  simp only [beq_iff_eq]

include hcodes

theorem BothOccur.length_distinct (h : BothOccur 1 y) : (Classes.distinct y).length = 2 := by
  have hboth := bothOccur_one_iff.1 h
  exact Classes.length_distinct_binary (Label.binary_of_codes hcodes) (fun _ _ _ => Binary.rank_trans)
    Binary.rank_total (hboth true) (hboth false)

theorem length_distinct_of_not_bothOccur (h : ¬ BothOccur 1 y) (hy : y ≠ []) :
    (Classes.distinct y).length = 1 := by
  refine Classes.length_distinct_same hy fun a ha b hb => ?_
  rw [(Label.binary_of_codes hcodes).same_eq a ha b hb, beq_iff_eq]
  by_contra hne
  refine h (bothOccur_one_iff.2 fun positive => ?_)
  -- Of two labels that differ, one is positive and the other is not.
  by_cases hpa : Label.isPositive a = positive
  · exact ⟨a, ha, hpa⟩
  · rw [Bool.eq_not_of_ne hpa] at hne
    exact ⟨b, hb, by simpa using (Bool.eq_not_of_ne hne).symm⟩

theorem count_key (positive : Bool) : (y.map Scalar.round).count (Label.key positive) =
    y.countP fun c => Label.isPositive c == positive := by
  rw [List.count, List.countP_map]
  refine List.countP_congr fun c hc => ?_
  simp only [Function.comp_apply, Label.round_eq_key (hcodes c hc), beq_iff_eq]
  exact ⟨Label.key_injective, congrArg Label.key⟩

theorem getElem?_round_eq {i : Nat} {positive : Bool} :
    (y.map Scalar.round)[i]? = some (Label.key positive) ↔ ∃ c, y[i]? = some c ∧ Label.isPositive c = positive := by
  rw [List.getElem?_map, Option.map_eq_some_iff]
  refine exists_congr fun c => and_congr_right fun hc => ?_
  rw [Label.round_eq_key (hcodes c (List.mem_of_getElem? hc))]
  exact ⟨Label.key_injective, congrArg Label.key⟩

end

namespace Folds

variable {y : List Float} {groups : List (List Nat)} {n : Nat} (hcodes : ∀ c ∈ y, Label.IsCode c)
  (hgroups : List.Forall₂ List.Perm groups (strata (y.map Scalar.round))) (hn : 2 ≤ n)

include hcodes hgroups hn

/-- Classes that occur twice are learnt by every split. -/
theorem bothOccur_train (h : BothOccur 2 y) {s : Split} (hs : s ∈ ofStrata n groups) :
    BothOccur 1 (Validation.labelsAt y s.train) := by
  obtain ⟨f, -, rfl⟩ := mem_ofStrata.1 hs
  refine bothOccur_one_iff.2 fun positive => ?_
  obtain ⟨i, hi, hkey⟩ := exists_mem_train (f := f) hn hgroups (count_key hcodes positive ▸ h positive)
  obtain ⟨c, hc, hpositive⟩ := (getElem?_round_eq hcodes).1 hkey
  exact ⟨c, List.mem_filterMap.2 ⟨i, hi, hc⟩, hpositive⟩

/-- A class that does not occur twice is not learnt by some split. -/
theorem exists_not_bothOccur_train (h : ¬ BothOccur 2 y) :
    ∃ s ∈ ofStrata n groups, ¬ BothOccur 1 (Validation.labelsAt y s.train) := by
  obtain ⟨positive, hfew⟩ := not_forall.1 h
  rw [← count_key hcodes, not_le] at hfew
  obtain ⟨f, hf, htrain⟩ := exists_not_mem_train hn hgroups hfew
  refine ⟨_, mem_ofStrata.2 ⟨f, hf, rfl⟩, fun hboth => ?_⟩
  obtain ⟨c, hc, hpositive⟩ := bothOccur_one_iff.1 hboth positive
  obtain ⟨i, hi, hic⟩ := List.mem_filterMap.1 hc
  exact htrain i hi ((getElem?_round_eq hcodes).2 ⟨c, hic, hpositive⟩)

end Folds

namespace Validation

variable {x : Matrix Float} {y : List Float} {gamma : Gamma Float} {c : Float} {s : Split}

theorem mem_of_mem_labelsAt {places : List Nat} {c : Float} (h : c ∈ labelsAt y places) : c ∈ y := by
  obtain ⟨i, -, hi⟩ := List.mem_filterMap.1 h
  exact List.mem_of_getElem? hi

structure Sound (count : Nat) (s : Split) : Prop where
  test_lt : ∀ i ∈ s.test, i < count
  train_lt : ∀ i ∈ s.train, i < count
  train_ne_nil : s.train ≠ []
  train_length_le : s.train.length ≤ count

theorem sound_of_isPartition {n count : Nat} {splits : List Split} (h : Folds.IsPartition n count splits)
    (hs : s ∈ splits) : Sound count s := by
  have hlt : ∀ i ∈ s.train, i < count := fun i hi => ((h.train_iff s hs i).1 hi).1
  have hnodup : s.train.Nodup := (h.train_increasing s hs).imp Nat.ne_of_lt
  have hsubset : s.train ⊆ List.range count := fun i hi => List.mem_range.2 (hlt i hi)
  exact ⟨h.test_lt s hs, hlt, h.train_ne_nil s hs, by simpa using (hnodup.subperm hsubset).length_le⟩

section

variable (hheight : x.height = y.length) (hcodes : ∀ c ∈ y, Label.IsCode c)
  (hs : Sound y.length s) (hc : Scalar.less 0 c = true)

include hheight hcodes hs hc

/-- A machine can be fitted to a training set of both classes. -/
theorem exists_fit_machine (hgamma : gamma.Usable) (hmany : y.length ≤ VectorMachine.sampleLimit)
    (hboth : BothOccur 1 (labelsAt y s.train)) :
    ∃ model, Classifier.fit (.vectorMachine gamma c) (x.select s.train) (labelsAt y s.train) = .ok model := by
  have hselected : (x.select s.train).height = s.train.length := Matrix.height_select (hheight ▸ hs.train_lt)
  have hlabels : (labelsAt y s.train).length = s.train.length := by
    rw [labelsAt_eq_map hs.train_lt, List.length_map]
  have htwo := hboth.length_distinct fun d hd => hcodes d (mem_of_mem_labelsAt hd)
  obtain ⟨v, hv⟩ := hgamma.exists_resolve (x.select s.train)
  obtain ⟨m, hm⟩ := VectorMachine.exists_fit
    (m := .unfitted { (default : MachineSettings Float) with gamma, c }) (hselected.trans hlabels.symm) hc
    htwo hv (hselected.trans_le (hs.train_length_le.trans hmany))
  exact ⟨.vectorMachine m, by
    simp only [Classifier.fit, hselected, hlabels, ↓reduceIte, Classifier.fitNew, hm, ok_bind, pure_eq_ok]⟩

/-- A training set of one class is refused. -/
theorem countSplit_machine_eq_error (hone : ¬ BothOccur 1 (labelsAt y s.train)) :
    countSplit (.vectorMachine gamma c) x y s = .error (.data (.classes 1)) := by
  have hselected : (x.select s.train).height = s.train.length := Matrix.height_select (hheight ▸ hs.train_lt)
  have hlabels : (labelsAt y s.train).length = s.train.length := by
    rw [labelsAt_eq_map hs.train_lt, List.length_map]
  have hne : labelsAt y s.train ≠ [] :=
    List.ne_nil_of_length_pos (hlabels ▸ List.length_pos_iff.2 hs.train_ne_nil)
  have hclasses := length_distinct_of_not_bothOccur (fun d hd => hcodes d (mem_of_mem_labelsAt hd)) hone hne
  have hfit := VectorMachine.fit_of_classes
    (m := .unfitted { (default : MachineSettings Float) with gamma, c }) (hselected.trans hlabels.symm) hc
    (by rw [hclasses]; decide)
  rw [hclasses] at hfit
  simp only [countSplit, heldOut, Classifier.fit, hselected, hlabels, ↓reduceIte, Classifier.fitNew, hfit,
    error_bind]

end

variable {splits : List Split} (hheight : x.height = y.length) (hcodes : ∀ c ∈ y, Label.IsCode c)
  (hsplits : ∀ s ∈ splits, Sound y.length s) (hc : Scalar.less 0 c = true) (hgamma : gamma.Usable)
  (hmany : y.length ≤ VectorMachine.sampleLimit)

include hheight hcodes hsplits hc hgamma hmany

/-- A machine is validated on every split that trains on both classes. -/
theorem exists_crossValidate_machine (hboth : ∀ s ∈ splits, BothOccur 1 (labelsAt y s.train)) :
    ∃ row, crossValidate (.vectorMachine gamma c) x y splits = .ok row :=
  exists_crossValidate hheight (fun s hs => (hsplits s hs).test_lt) fun s hs =>
    exists_fit_machine hheight hcodes (hsplits s hs) hc hgamma hmany (hboth s hs)

/-- Splits that can be counted may come before the one that cannot. -/
theorem crossValidate_machine_eq_error (hone : ∃ s ∈ splits, ¬ BothOccur 1 (labelsAt y s.train)) :
    crossValidate (.vectorMachine gamma c) x y splits = .error (.data (.classes 1)) := by
  have hall : ∀ s ∈ splits, (∃ counts, countSplit (.vectorMachine gamma c) x y s = .ok counts) ∨
      countSplit (.vectorMachine gamma c) x y s = .error (.data (.classes 1)) := by
    intro s hs
    by_cases hboth : BothOccur 1 (labelsAt y s.train)
    · exact .inl (exists_counts hheight (hsplits s hs).test_lt
        (exists_fit_machine hheight hcodes (hsplits s hs) hc hgamma hmany hboth))
    · exact .inr (countSplit_machine_eq_error hheight hcodes (hsplits s hs) hc hboth)
  obtain ⟨s, hs, hbad⟩ := hone
  have herror : countSplit (.vectorMachine gamma c) x y s = .error (.data (.classes 1)) :=
    countSplit_machine_eq_error hheight hcodes (hsplits s hs) hc hbad
  rw [crossValidate, mapM_eq_error_of hall ⟨s, hs, herror⟩, error_bind]

end Validation

theorem MachineGrid.mem_combinations {g : MachineGrid Float} {h : Hyperparameters Float} :
    h ∈ g.combinations ↔ ∃ c ∈ g.c, ∃ gamma ∈ g.gammas, .vectorMachine gamma c = h := by
  simp [combinations]

namespace ValidationReport

/-- On class codes and with a sound grid a sweep of machines succeeds exactly if both classes occur twice.
Otherwise some training set has one class only, and that is the fault. -/
theorem sweep_vectorMachine {x : Matrix Float} {y : List Float} {g : Grids Float}
    (hheight : x.height = y.length) (hfew : 4 ≤ y.length) (hmany : y.length ≤ 10000)
    (hcodes : ∀ c ∈ y, Label.IsCode c) (hgammas : g.machine.gammas ≠ []) (hcs : g.machine.c ≠ [])
    (hgamma : ∀ gamma ∈ g.machine.gammas, gamma.Usable) (hc : ∀ c ∈ g.machine.c, Scalar.less 0 c = true) :
    ((∃ report, sweep .vectorMachine x y g = .ok report) ↔ BothOccur 2 y) ∧
      (¬ BothOccur 2 y → sweep .vectorMachine x y g = .error (.data (.classes 1))) := by
  have hall : g.machine.combinations ≠ [] := by
    obtain ⟨c, hc⟩ := List.exists_mem_of_ne_nil _ hcs
    obtain ⟨gamma, hgamma⟩ := List.exists_mem_of_ne_nil _ hgammas
    exact List.ne_nil_of_mem (MachineGrid.mem_combinations.2 ⟨c, hc, gamma, hgamma, rfl⟩)
  obtain ⟨groups, hgroups, hsplit⟩ := Folds.split_eq_ok (some seed) (by decide : 2 ≤ folds) hfew
  have hpartition := Folds.ofStrata_isPartition (by decide) hfew (Folds.shuffled_perm hgroups)
  have hsound : ∀ s ∈ Folds.ofStrata folds groups, Validation.Sound y.length s :=
    fun s hs => Validation.sound_of_isPartition hpartition hs
  have hsweep : sweep .vectorMachine x y g = (do
      let rows ← g.machine.combinations.mapM fun h => Validation.crossValidate h x y (Folds.ofStrata folds groups)
      return ⟨.vectorMachine, rows⟩) := by
    simp only [sweep, Grids.combinations, List.isEmpty_iff, hall, ↓reduceIte, hsplit, ok_bind]
  have hgood : BothOccur 2 y → ∃ report, sweep .vectorMachine x y g = .ok report := by
    intro hboth
    have hrows : ∀ h ∈ g.machine.combinations,
        ∃ row, Validation.crossValidate h x y (Folds.ofStrata folds groups) = .ok row := by
      intro h hh
      obtain ⟨c, hmem, gamma, hmem', rfl⟩ := MachineGrid.mem_combinations.1 hh
      exact Validation.exists_crossValidate_machine hheight hcodes hsound (hc c hmem) (hgamma gamma hmem') hmany
        fun s hs => Folds.bothOccur_train hcodes hgroups (by decide) hboth hs
    obtain ⟨rows, hrows⟩ := exists_mapM_eq_ok hrows
    exact ⟨_, by rw [hsweep, hrows, ok_bind, pure_eq_ok]⟩
  have hbad : ¬ BothOccur 2 y → sweep .vectorMachine x y g = .error (.data (.classes 1)) := by
    intro hboth
    have hone := Folds.exists_not_bothOccur_train hcodes hgroups (by decide : 2 ≤ folds) hboth
    have herror : ∀ h ∈ g.machine.combinations,
        Validation.crossValidate h x y (Folds.ofStrata folds groups) = .error (.data (.classes 1)) := by
      intro h hh
      obtain ⟨c, hmem, gamma, hmem', rfl⟩ := MachineGrid.mem_combinations.1 hh
      exact Validation.crossValidate_machine_eq_error hheight hcodes hsound (hc c hmem) (hgamma gamma hmem')
        hmany hone
    rw [hsweep, mapM_eq_error hall herror, error_bind]
  refine ⟨⟨?_, hgood⟩, hbad⟩
  rintro ⟨report, hreport⟩
  by_contra hboth
  rw [hbad hboth] at hreport
  cases hreport

/-- Four samples and the grid that is used if none is given. Two samples of each class suffice; with a
single one of them the sweep fails. -/
theorem sweep_vectorMachine_four :
    let x : Matrix Float := ⟨1, [[1], [2], [3], [4]], by simp⟩
    let g : Grids Float := default
    (∀ gamma ∈ g.machine.gammas, gamma.Usable) ∧ (∀ c ∈ g.machine.c, Scalar.less 0 c = true) ∧
      BothOccur 2 [0, 1, -0, 1] ∧ (∃ report, sweep .vectorMachine x [0, 1, -0, 1] g = .ok report) ∧
      ¬ BothOccur 2 [0, 1, 0, 0] ∧ sweep .vectorMachine x [0, 1, 0, 0] g = .error (.data (.classes 1)) := by
  intro x g
  have hgamma : ∀ gamma ∈ g.machine.gammas, gamma.Usable := by decide +kernel
  have hc : ∀ c ∈ g.machine.c, Scalar.less 0 c = true := by decide +kernel
  have htwo : BothOccur 2 [0, 1, -0, 1] := by decide +kernel
  have hone : ¬ BothOccur 2 [0, 1, 0, 0] := by decide +kernel
  have hcodes : ∀ c ∈ [(0 : Float), 1, -0, 1], Label.IsCode c := by decide +kernel
  have hcodes' : ∀ c ∈ [(0 : Float), 1, 0, 0], Label.IsCode c := by decide +kernel
  have hgood := sweep_vectorMachine (x := x) (g := g) rfl (by decide) (by decide) hcodes nofun nofun hgamma hc
  have hbad := sweep_vectorMachine (x := x) (g := g) rfl (by decide) (by decide) hcodes' nofun nofun hgamma hc
  exact ⟨hgamma, hc, htwo, hgood.1.2 htwo, hone, hbad.2 hone⟩

end ValidationReport

end PackageTriage
