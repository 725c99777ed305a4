import PackageTriage.Proofs.Scalar.Midpoints
import PackageTriage.Proofs.Tree.Sweeps
import PackageTriage.Tree.DecisionTree

/-!
# Splits that separate

The sweep counts the samples up to a place of the sorted list; the split sends those to the left whose value is at
most halfway between the values there and behind. The two agree exactly if the midpoint, as floats have it, is not
below the one value and is below the other. Where that holds of all values of a feature, every split leaves
enough samples on both sides and growth comes to an end. It holds of two floats with a float between whose sum
does not overflow; halfway between two neighbouring floats rounding may give the greater, and then a split
separates nothing.
-/

namespace PackageTriage

/-- The midpoint of two values, as it is computed, goes with the first and not with the second. -/
def Parted {α : Type} [Scalar α] (v w : α) : Prop :=
  Scalar.atMost v ((v + w) / Scalar.two) = true ∧ Scalar.atMost w ((v + w) / Scalar.two) = false

/-- Any two different values of a feature are parted by their midpoint. -/
def Separable {α : Type} [Scalar α] (rows : List (List α)) : Prop :=
  ∀ a ∈ rows, ∀ b ∈ rows, ∀ j, Scalar.less (a.getD j 0) (b.getD j 0) = true → Parted (a.getD j 0) (b.getD j 0)

section

variable {β : Type} {p : β → Bool} {l : List β} {k : Nat} {a : β}

/-- What holds up to a place holds for all counted before it. -/
theorem lt_countP (hdown : l.Pairwise fun a b => p b = true → p a = true) (ha : l[k]? = some a)
    (hp : p a = true) : k < l.countP p := by
  obtain ⟨hk, rfl⟩ := List.getElem?_eq_some_iff.1 ha
  have hall : (l.take (k + 1)).countP p = (l.take (k + 1)).length := by
    rw [List.countP_eq_length]
    intro b hb
    obtain ⟨i, hi, rfl⟩ := List.getElem_of_mem hb
    rw [List.length_take] at hi
    rw [List.getElem_take]
    rcases Nat.lt_or_eq_of_le (show i ≤ k by omega) with hlt | rfl
    · exact List.pairwise_iff_getElem.1 hdown i k (by omega) hk hlt hp
    · exact hp
  have hle := (List.take_sublist (k + 1) l).countP_le (p := p)
  rw [hall, List.length_take] at hle
  omega

theorem countP_le (hdown : l.Pairwise fun a b => p b = true → p a = true) (ha : l[k]? = some a)
    (hp : p a = false) : l.countP p ≤ k := by
  obtain ⟨hk, rfl⟩ := List.getElem?_eq_some_iff.1 ha
  have hnone : (l.drop k).countP p = 0 := by
    rw [List.countP_eq_zero]
    intro b hb hb'
    obtain ⟨i, hi, rfl⟩ := List.getElem_of_mem hb
    rw [List.length_drop] at hi
    rw [List.getElem_drop] at hb'
    rcases Nat.eq_zero_or_pos i with rfl | hpos
    · simp [hp] at hb'
    · have hback := List.pairwise_iff_getElem.1 hdown k (k + i) hk (by omega) (by omega) hb'
      rw [hp] at hback
      exact Bool.noConfusion hback
  have hparts : l.countP p = (l.take k).countP p + (l.drop k).countP p := by
    rw [← List.countP_append, List.take_append_drop]
  rw [hparts, hnone, Nat.add_zero]
  exact List.countP_le_length.trans (List.length_take_le k l)

end

variable {γ : Type} [Scalar γ] {minLeaf : Nat} {counts : ClassCounts} {samples : List (TreeSample Float)}
  {c : Candidate Float γ}

def AllFinite (rows : List (List Float)) : Prop := ∀ row ∈ rows, ∀ v ∈ row, v.isFinite = true

theorem AllFinite.getD {rows : List (List Float)} (h : AllFinite rows) {row : List Float} (hrow : row ∈ rows)
    (j : Nat) : (row.getD j 0).isFinite = true := by
  rcases lt_or_ge j row.length with hj | hj
  · rw [List.getD_eq_getElem _ _ hj]
    exact h row hrow _ (List.getElem_mem hj)
  · rw [List.getD_eq_default _ _ hj]
    rfl

/-- The features are finite, and any two different values of one are parted. -/
structure Parting (samples : List (TreeSample Float)) : Prop where
  finite : AllFinite (samples.map (·.features))
  separable : Separable (samples.map (·.features))

theorem Parting.filter (h : Parting samples) (p : TreeSample Float → Bool) : Parting (samples.filter p) := by
  have hsub : (samples.filter p).map (·.features) ⊆ samples.map (·.features) :=
    (List.filter_sublist.map _).subset
  exact ⟨fun row hrow => h.finite row (hsub hrow),
    fun a ha b hb => h.separable a (hsub ha) b (hsub hb)⟩

/-- What has a place among the sorted values is the value of a sample. -/
theorem exists_sample {feature pos : Nat} {v : Float} (h : (sortedValues feature samples)[pos]? = some v) :
    ∃ s ∈ samples, s.features.getD feature 0 = v :=
  List.mem_map.1 ((sortedValues_perm feature samples).mem_iff.1 (List.mem_of_getElem? h))

/-- The rows that go left are counted by the values at most the threshold. -/
theorem length_goesLeft (feature : Nat) (threshold : Float) :
    (samples.filter fun s => Node.goesLeft feature threshold s.features).length =
      (sortedValues feature samples).countP (Scalar.atMost · threshold) := by
  rw [(sortedValues_perm feature samples).countP_eq, List.countP_map, ← List.countP_eq_length_filter]
  rfl

section

variable (hfinite : AllFinite (samples.map (·.features)))

include hfinite

theorem finite_of_mem_sortedValues {feature : Nat} {v : Float} (h : v ∈ sortedValues feature samples) :
    v.isFinite = true := by
  obtain ⟨s, hs, rfl⟩ := List.mem_map.1 ((sortedValues_perm feature samples).mem_iff.1 h)
  exact hfinite.getD (List.mem_map_of_mem hs) feature

theorem sortedValues_pairwise (feature : Nat) :
    (sortedValues feature samples).Pairwise fun a b => Scalar.atMost a b = true := by
  have htrans (a b c : Float × Nat) (hab : Scalar.rank a.1 b.1 = true) (hbc : Scalar.rank b.1 c.1 = true) :
      Scalar.rank a.1 c.1 = true := Binary.rank_trans hab hbc
  have hsorted : (sortedBy feature samples).Pairwise fun a b => Scalar.rank a.1 b.1 = true :=
    List.pairwise_mergeSort htrans (fun a b => Binary.rank_total a.1 b.1) _
  have hranked : (sortedValues feature samples).Pairwise fun a b => Scalar.rank a b = true :=
    List.pairwise_map.2 hsorted
  exact hranked.imp_of_mem fun ha hb hrank =>
    Binary.atMost_of_rank (finite_of_mem_sortedValues hfinite ha) (finite_of_mem_sortedValues hfinite hb) hrank

/-- The samples that go to the left come first. -/
theorem sortedValues_down (feature : Nat) (threshold : Float) :
    (sortedValues feature samples).Pairwise fun a b =>
      Scalar.atMost b threshold = true → Scalar.atMost a threshold = true :=
  (sortedValues_pairwise hfinite feature).imp_of_mem fun ha hb hab hb' =>
    Binary.atMost_trans (finite_of_mem_sortedValues hfinite ha) (finite_of_mem_sortedValues hfinite hb) hab hb'

namespace Candidate.FoundAt

variable {pos : Nat} {v w : Float} (h : c.FoundAt minLeaf counts samples pos v w)

include h

theorem finite : v.isFinite = true ∧ w.isFinite = true :=
  ⟨finite_of_mem_sortedValues hfinite (List.mem_of_getElem? h.value_eq),
    finite_of_mem_sortedValues hfinite (List.mem_of_getElem? h.next_eq)⟩

theorem less : Scalar.less v w = true := by
  obtain ⟨hv, hw⟩ := h.finite hfinite
  obtain ⟨hpos, hv'⟩ := List.getElem?_eq_some_iff.1 h.value_eq
  obtain ⟨hnext, hw'⟩ := List.getElem?_eq_some_iff.1 h.next_eq
  have hle := List.pairwise_iff_getElem.1 (sortedValues_pairwise hfinite c.feature) pos (pos + 1) hpos hnext
    (Nat.lt_succ_self pos)
  rw [hv', hw'] at hle
  exact Binary.less_of_atMost hv hw hle h.same_eq

/-- As many samples go to the left as the sweep had counted there exactly if the midpoint parts the two values. -/
theorem length_left_iff :
    (samples.filter fun s => Node.goesLeft c.feature c.threshold s.features).length = pos + 1 ↔ Parted v w := by
  have hdown := sortedValues_down hfinite c.feature c.threshold
  rw [length_goesLeft, Parted, ← h.threshold_eq]
  constructor
  · intro hcount
    constructor
    · by_contra hv
      have hle := countP_le hdown h.value_eq (Bool.not_eq_true _ ▸ hv)
      omega
    · by_contra hw
      have hlt := lt_countP hdown h.next_eq (Bool.not_eq_false _ ▸ hw)
      omega
  · rintro ⟨hv, hw⟩
    have hlt := lt_countP hdown h.value_eq hv
    have hle := countP_le hdown h.next_eq hw
    omega

end Candidate.FoundAt

end

/-- Where all values are parted, a split leaves enough samples on both sides, and some. -/
theorem Parting.enough (h : Parting samples) {features : List Nat}
    (hbest : bestSplit γ minLeaf counts samples features = some c) :
    max 1 minLeaf ≤ (samples.filter fun s => Node.goesLeft c.feature c.threshold s.features).length ∧
      max 1 minLeaf ≤ (samples.filter fun s => !Node.goesLeft c.feature c.threshold s.features).length := by
  obtain ⟨pos, v, w, hfound⟩ := exists_foundAt hbest
  have hless := hfound.less h.finite
  obtain ⟨s, hs, rfl⟩ := exists_sample hfound.value_eq
  obtain ⟨t, ht, rfl⟩ := exists_sample hfound.next_eq
  have hparted := h.separable _ (List.mem_map_of_mem hs) _ (List.mem_map_of_mem ht) c.feature hless
  have hleft := (hfound.length_left_iff h.finite).2 hparted
  have hsides := List.length_eq_length_filter_add (l := samples)
    fun s => Node.goesLeft c.feature c.threshold s.features
  have hlt := hfound.lt
  have hminLeft := hfound.left_enough
  have hminRight := hfound.right_enough
  constructor <;> omega

namespace Node

/-- Every split of the tree over the samples sends at least `k` of them to either side. -/
def Separates {α : Type} [Scalar α] (k : Nat) : Node α → List (TreeSample α) → Prop
  | .leaf _ n, samples => n = samples.length
  | .split feature threshold left right n, samples =>
    n = samples.length ∧
    k ≤ (samples.filter fun s => goesLeft feature threshold s.features).length ∧
    k ≤ (samples.filter fun s => !goesLeft feature threshold s.features).length ∧
    left.Separates k (samples.filter fun s => goesLeft feature threshold s.features) ∧
    right.Separates k (samples.filter fun s => !goesLeft feature threshold s.features)

def leafSizes {α : Type} : Node α → List Nat
  | .leaf _ n => [n]
  | .split _ _ left right _ => left.leafSizes ++ right.leafSizes

/-- Leaves below a split hold what the split sent them. -/
theorem Separates.le_of_mem_leafSizes {α : Type} [Scalar α] {k : Nat} {node : Node α}
    {samples : List (TreeSample α)} (h : node.Separates k samples) (hk : k ≤ samples.length) :
    ∀ n ∈ node.leafSizes, k ≤ n := by
  induction node generalizing samples with
  | leaf value n =>
    intro m hm
    obtain rfl := List.mem_singleton.1 hm
    exact hk.trans_eq h.symm
  | split feature threshold left right n ihl ihr =>
    obtain ⟨-, hleft, hright, hl, hr⟩ := h
    intro m hm
    rcases List.mem_append.1 hm with hm | hm
    · exact ihl hl hleft m hm
    · exact ihr hr hright m hm

variable {σ : Type} [Generator σ] (rules : GrowthRules) (classes : List Float)

/-- Where all values are parted every split leaves some samples on both sides, so as many levels as there are
samples are enough. -/
theorem exists_grow_of_parting {fuel : Nat} {samples : List (TreeSample Float)} (hpos : 0 < samples.length)
    (hfuel : samples.length ≤ fuel) (hparting : Parting samples) (levels : Option Nat) (g : σ) :
    ∃ node g', grow γ rules classes fuel levels samples g = some (node, g') := by
  induction fuel generalizing levels samples g with
  | zero => omega
  | succ fuel ih =>
    rcases grow_succ_cases γ rules classes fuel levels samples g with ⟨g', -, hleaf⟩ | ⟨best, -, hbest, hsplit⟩
    · exact ⟨_, g', hleaf⟩
    · obtain ⟨henoughLeft, henoughRight⟩ := hparting.enough hbest
      have hsides := List.length_eq_length_filter_add (l := samples)
        fun s => goesLeft best.feature best.threshold s.features
      obtain ⟨left, gl, hleft⟩ := ih (by omega) (by omega)
        (hparting.filter fun s => goesLeft best.feature best.threshold s.features)
        (levels.map (· - 1)) (rules.features g).2
      obtain ⟨right, gr, hright⟩ := ih (by omega) (by omega)
        (hparting.filter fun s => !goesLeft best.feature best.threshold s.features) (levels.map (· - 1)) gl
      rw [hleft, Option.bind_some, hright] at hsplit
      exact ⟨_, gr, hsplit⟩

/-- Where all values are parted every split of a grown tree leaves enough samples on both sides. -/
theorem separates_of_grow {fuel : Nat} {levels : Option Nat} {samples : List (TreeSample Float)} {g g' : σ}
    {node : Node Float} (hparting : Parting samples)
    (h : grow γ rules classes fuel levels samples g = some (node, g')) :
    node.Separates (max 1 rules.minLeaf) samples := by
  induction fuel generalizing levels samples g g' node with
  | zero => simp [grow] at h
  | succ fuel ih =>
    rcases grow_eq_some h with ⟨-, rfl⟩ | ⟨best, left, gl, right, -, hbest, hleft, hright, rfl⟩
    · exact rfl
    · obtain ⟨henoughLeft, henoughRight⟩ := hparting.enough hbest
      exact ⟨rfl, henoughLeft, henoughRight, ih (hparting.filter _) hleft, ih (hparting.filter _) hright⟩

/-- A split that sends all samples to one side is found again there, and growth without a limit on the levels never
ends. -/
theorem grow_of_all_left {samples : List (TreeSample Float)} (hall : rules.maxFeatures = none)
    (hstops : rules.stops none (ClassCounts.ofLabels classes.length (samples.map (·.label))) samples.length = false)
    (hbest : bestSplit γ rules.minLeaf (ClassCounts.ofLabels classes.length (samples.map (·.label))) samples
      (List.range rules.width) = some c)
    (hleft : ∀ s ∈ samples, goesLeft c.feature c.threshold s.features = true) (fuel : Nat) (g : σ) :
    grow γ rules classes fuel none samples g = none := by
  induction fuel generalizing g with
  | zero => rfl
  | succ fuel ih =>
    rcases grow_succ_cases γ rules classes fuel none samples g with ⟨_, hends, -⟩ | ⟨best, -, hagain, hsplit⟩
    · rw [GrowthRules.features_eq hall, hstops, hbest] at hends
      simp at hends
    · rw [GrowthRules.features_eq hall] at hagain hsplit
      obtain rfl := Option.some.inj (hbest.symm.trans hagain)
      rw [List.filter_eq_self.2 hleft, Option.map_none, ih, Option.bind_none] at hsplit
      exact hsplit

end Node

end PackageTriage
