import PackageTriage.Proofs.Machine.Coefficients

/-!
# Grids in a file

The grids of a settings file are read again from what is written for them, the defaults included, unless a
coefficient is among them that the file cannot hold.
-/

namespace PackageTriage

open Json

namespace HiddenLayers

theorem lasts_single {n : ℕ} (h : Lasts natural? Json.ofNat always n) :
    Lasts ofJson? toJson always (single n) := by
  refine ⟨h.readable, ?_⟩
  rw [toJson, ofJson?, h.eq_some]
  rfl

theorem lasts_stacked {ns : List ℕ} (h : Lasts (listOf? natural?) (Json.ofList Json.ofNat) always ns) :
    Lasts ofJson? toJson always (stacked ns) := by
  refine ⟨h.readable, ?_⟩
  have hlist : ofJson? (Json.ofList Json.ofNat ns) = (listOf? natural? (Json.ofList Json.ofNat ns)).map stacked := rfl
  exact hlist.trans (by rw [h.eq_some]; rfl)

theorem lasting : Lasting ofJson? toJson always := by
  intro j h hread
  rw [ofJson?] at hread
  split at hread
  · next n hn =>
    obtain rfl := Option.some.inj hread
    exact lasts_single (lasting_natural hn)
  · obtain ⟨ns, hns, rfl⟩ := Option.map_eq_some_iff.1 hread
    exact lasts_stacked (lasting_all lasting_natural hns)

end HiddenLayers

theorem lasts_naturals {ns : List ℕ} (h : ∀ n ∈ ns, n < 2 ^ 64) :
    Lasts (listOf? natural?) (Json.ofList Json.ofNat) always ns := lasts_all fun n hn => lasts_natural (h n hn)

/-- A list of choices, whose names are all told apart. -/
theorem lasts_choices {β : Type} [Choice β] (hname : ∀ b : β, Choice.ofName? (Choice.name b) = some b) (bs : List β) :
    Lasts (listOf? Choice.ofJson?) (Json.ofList Choice.toJson) always bs := lasts_all fun b _ => lasts_choice hname b

theorem ofName?_family (f : Family) : Choice.ofName? (Choice.name f) = some f := by cases f <;> decide

theorem ofName?_method (m : Method) : Choice.ofName? (Choice.name m) = some m := by cases m <;> decide

theorem ofName?_activation (a : Activation) : Choice.ofName? (Choice.name a) = some a := by cases a <;> decide

theorem ofName?_solver (s : Solver) : Choice.ofName? (Choice.name s) = some s := by cases s <;> decide

theorem ofNat_ne_null (n : ℕ) : Json.ofNat n ≠ .null := by simp [Json.ofNat]

/-- An absent number is written as null, which no number is. -/
theorem lasting_depths : Lasting (listOf? (optional? natural?)) (Json.ofList (Json.ofOption Json.ofNat)) always :=
  lasting_all (lasting_optional lasting_natural ofNat_ne_null)

namespace ForestGrid

theorem lasts_maxDepths : Lasts (listOf? (optional? natural?)) (Json.ofList (Json.ofOption Json.ofNat)) always
    ForestGrid.default.maxDepths := by
  refine lasts_all fun depth hdepth => ?_
  simp only [ForestGrid.default, List.mem_cons, List.not_mem_nil, or_false] at hdepth
  rcases hdepth with rfl | rfl | rfl
  · exact lasts_none
  · exact lasts_some (lasts_natural (by decide)) (ofNat_ne_null 10)
  · exact lasts_some (lasts_natural (by decide)) (ofNat_ne_null 20)

theorem lasting : Lasting ofJson? toJson always := by
  intro j g h
  rw [ofJson?] at h
  obtain ⟨given, -, h⟩ := Option.bind_eq_some_iff.1 h
  split at h
  · obtain ⟨trees, htrees, h⟩ := Option.bind_eq_some_iff.1 h
    obtain ⟨maxDepths, hmaxDepths, h⟩ := Option.bind_eq_some_iff.1 h
    obtain rfl := Option.some.inj h
    have htrees := lasts_orDefault (lasting_all lasting_natural) (lasts_naturals (by decide)) htrees
    have hmaxDepths := lasts_orDefault lasting_depths lasts_maxDepths hmaxDepths
    refine ⟨readable_record (by simp [htrees.readable, hmaxDepths.readable]), ?_⟩
    rw [toJson, ofJson?, fields?_record rfl]
    simp [orDefault?, htrees.eq_some, hmaxDepths.eq_some, always]
  · simp at h

theorem lasts_default : Lasts ofJson? toJson always default := @lasting (.object []) _ rfl

end ForestGrid

namespace PerceptronGrid

theorem lasts_hidden : Lasts (listOf? HiddenLayers.ofJson?) (Json.ofList HiddenLayers.toJson) always
    (PerceptronGrid.default : PerceptronGrid Float).hidden := by
  refine lasts_all fun layers hlayers => ?_
  simp only [PerceptronGrid.default, List.mem_cons, List.not_mem_nil, or_false] at hlayers
  rcases hlayers with rfl | rfl <;> exact HiddenLayers.lasts_single (lasts_natural (by decide))

theorem lasts_of_ofJson? [NumberReader] {j : Json} {g : PerceptronGrid Float} (h : ofJson? j = some g)
    (hback : ∀ x ∈ g.rates, ReadsBack x) : Lasts ofJson? toJson always g := by
  rw [ofJson?] at h
  obtain ⟨given, -, h⟩ := Option.bind_eq_some_iff.1 h
  split at h
  · obtain ⟨hidden, hhidden, h⟩ := Option.bind_eq_some_iff.1 h
    obtain ⟨activations, hactivations, h⟩ := Option.bind_eq_some_iff.1 h
    obtain ⟨solvers, hsolvers, h⟩ := Option.bind_eq_some_iff.1 h
    obtain ⟨rates, hrates, h⟩ := Option.bind_eq_some_iff.1 h
    obtain ⟨iterations, hiterations, h⟩ := Option.bind_eq_some_iff.1 h
    obtain rfl := Option.some.inj h
    have hhidden := lasts_orDefault (lasting_all HiddenLayers.lasting) lasts_hidden hhidden
    have hactivations := lasts_choices ofName?_activation activations
    have hsolvers := lasts_choices ofName?_solver solvers
    have hrates := lasts_floats (by decide +kernel) hrates hback
    have hiterations := lasts_orDefault (lasting_all lasting_natural) (lasts_naturals (by decide)) hiterations
    refine ⟨readable_record (by simp [hhidden.readable, hactivations.readable, hsolvers.readable, hrates.readable,
      hiterations.readable]), ?_⟩
    rw [toJson, ofJson?, fields?_record rfl]
    simp [orDefault?, hhidden.eq_some, hactivations.eq_some, hsolvers.eq_some, hrates.eq_some, hiterations.eq_some,
      always]
  · simp at h

end PerceptronGrid

namespace NaiveBayesGrid

theorem lasts_of_ofJson? [NumberReader] {j : Json} {g : NaiveBayesGrid Float} (h : ofJson? j = some g)
    (hback : ∀ x ∈ g.smoothings, ReadsBack x) : Lasts ofJson? toJson always g := by
  rw [ofJson?] at h
  obtain ⟨given, -, h⟩ := Option.bind_eq_some_iff.1 h
  split at h
  · obtain ⟨smoothings, hsmoothings, h⟩ := Option.bind_eq_some_iff.1 h
    obtain rfl := Option.some.inj h
    have hsmoothings := lasts_floats (by decide +kernel) hsmoothings hback
    refine ⟨readable_record (by simp [hsmoothings.readable]), ?_⟩
    rw [toJson, ofJson?, fields?_record rfl]
    simp [orDefault?, hsmoothings.eq_some, always]
  · simp at h

end NaiveBayesGrid

namespace MachineGrid

def isWritten (g : MachineGrid Float) : Bool := g.gammas.all Gamma.isWritten

variable [NumberReader]

/-- The names among the default coefficients last, and the numbers if they are read back. -/
theorem lasts_of_mem_default {gamma : Gamma Float} (h : gamma ∈ (MachineGrid.default : MachineGrid Float).gammas)
    (hback : ∀ x ∈ gamma.numbers, ReadsBack x) : Lasts Gamma.ofJson? Gamma.toJson Gamma.isWritten gamma := by
  simp only [MachineGrid.default, List.mem_cons, List.not_mem_nil, or_false] at h
  rcases h with rfl | rfl | rfl | rfl
  · exact Gamma.lasts_named rfl
  · exact Gamma.lasts_named rfl
  · exact Gamma.lasts_value (hback _ (List.mem_singleton_self _))
  · exact Gamma.lasts_value (hback _ (List.mem_singleton_self _))

theorem lasts_gammas {o : Option Json} {gammas : List (Gamma Float)}
    (hread : orDefault? (listOf? Gamma.ofJson?) MachineGrid.default.gammas o = some gammas)
    (hback : ∀ gamma ∈ gammas, ∀ x ∈ gamma.numbers, ReadsBack x) :
    Lasts (listOf? Gamma.ofJson?) (Json.ofList Gamma.toJson) (·.all Gamma.isWritten) gammas := by
  refine lasts_list fun gamma hgamma => ?_
  cases o with
  | none =>
    obtain rfl := Option.some.inj hread
    exact lasts_of_mem_default hgamma (hback gamma hgamma)
  | some j =>
    obtain ⟨item, hitem⟩ := exists_of_mem_listOf? hread gamma hgamma
    exact Gamma.lasts_of_ofJson? hitem (hback gamma hgamma)

/-- A grid of machines is read back as far as its coefficients can be written. -/
theorem lasts_of_ofJson? {j : Json} {g : MachineGrid Float} (h : ofJson? j = some g)
    (hgammas : ∀ gamma ∈ g.gammas, ∀ x ∈ gamma.numbers, ReadsBack x) (hc : ∀ x ∈ g.c, ReadsBack x) :
    Lasts ofJson? toJson isWritten g := by
  rw [ofJson?] at h
  obtain ⟨given, -, h⟩ := Option.bind_eq_some_iff.1 h
  split at h
  · obtain ⟨gammas, hreadGammas, h⟩ := Option.bind_eq_some_iff.1 h
    obtain ⟨c, hreadC, h⟩ := Option.bind_eq_some_iff.1 h
    obtain rfl := Option.some.inj h
    have hgammas := lasts_gammas hreadGammas hgammas
    have hc := lasts_floats (by decide +kernel) hreadC hc
    refine ⟨readable_record (by simp [hgammas.readable, hc.readable]), ?_⟩
    rw [toJson, ofJson?, fields?_record rfl, isWritten]
    simp only [List.map_cons, List.map_nil, orDefault?, hgammas.read_write, hc.eq_some, Option.bind_eq_bind,
      Option.bind_some]
    split <;> rfl
  · simp at h

end MachineGrid

namespace Grids

def numbers (g : Grids Float) : List Float :=
  g.perceptron.rates ++ g.naiveBayes.smoothings ++ g.machine.gammas.flatMap Gamma.numbers ++ g.machine.c

/-- All four grids are read back together, or the machine's coefficients stand in the way. -/
theorem lasts_of_ofJson? [NumberReader] {j : Json} {g : Grids Float} (h : ofJson? j = some g)
    (hback : ∀ x ∈ g.numbers, ReadsBack x) : Lasts ofJson? toJson (fun g => g.machine.isWritten) g := by
  rw [ofJson?] at h
  obtain ⟨given, -, h⟩ := Option.bind_eq_some_iff.1 h
  split at h
  · obtain ⟨forest, hforest, h⟩ := Option.bind_eq_some_iff.1 h
    obtain ⟨perceptron, hperceptron, h⟩ := Option.bind_eq_some_iff.1 h
    obtain ⟨naiveBayes, hnaiveBayes, h⟩ := Option.bind_eq_some_iff.1 h
    obtain ⟨machine, hmachine, h⟩ := Option.bind_eq_some_iff.1 h
    obtain rfl := Option.some.inj h
    simp only [numbers, List.mem_append, List.mem_flatMap] at hback
    have hforest := lasts_orDefault ForestGrid.lasting ForestGrid.lasts_default hforest
    -- A grid that is left out is the one that an empty object is read as.
    obtain ⟨_, hperceptron⟩ := exists_of_orDefault? hperceptron ⟨.object [], rfl⟩
    obtain ⟨_, hnaiveBayes⟩ := exists_of_orDefault? hnaiveBayes ⟨.object [], rfl⟩
    obtain ⟨_, hmachine⟩ := exists_of_orDefault? hmachine ⟨.object [], rfl⟩
    have hperceptron := PerceptronGrid.lasts_of_ofJson? hperceptron fun x hx => hback x (by simp [hx])
    have hnaiveBayes := NaiveBayesGrid.lasts_of_ofJson? hnaiveBayes fun x hx => hback x (by simp [hx])
    have hmachine := MachineGrid.lasts_of_ofJson? hmachine
      (fun gamma hgamma x hx => hback x (.inl (.inr ⟨gamma, hgamma, hx⟩))) fun x hx => hback x (.inr hx)
    refine ⟨readable_record (by simp [hforest.readable, hperceptron.readable, hnaiveBayes.readable,
      hmachine.readable]), ?_⟩
    rw [toJson, ofJson?, fields?_record rfl]
    simp only [List.map_cons, List.map_nil, orDefault?, hforest.eq_some, hperceptron.eq_some, hnaiveBayes.eq_some,
      hmachine.read_write, Option.bind_eq_bind, Option.bind_some]
    split <;> rfl
  · simp at h

end Grids

end PackageTriage
