import PackageTriage.Proofs.Bytes.Models
import PackageTriage.Proofs.Classifier.Width
import PackageTriage.Proofs.Network.Shapes
import PackageTriage.Proofs.Tree.Growth
import PackageTriage.Proofs.Tree.Sampling

/-!
# Fitted models are read back

What a fit makes is no larger than what it was given: a node holds no more samples than there were, a layer
has the shape that was asked for, a machine keeps rows of its training matrix. So if the data is in memory
and the numbers of the settings are words, all lengths and numbers of the fitted model fit their words, and
the model is read back as it was stored.
-/

namespace PackageTriage

open Layout LawfulLayout

/-- Memory can be reserved for a matrix of this shape. Sides without entries count as one. -/
def InMemory (height width : Nat) : Prop := max height 1 * max width 1 < 2 ^ 63

instance (height width : Nat) : Decidable (InMemory height width) :=
  inferInstanceAs (Decidable (_ < _))

theorem InMemory.height_lt {height width : Nat} (h : InMemory height width) : height < 2 ^ 63 := by
  have hle := Nat.le_mul_of_pos_right (max height 1) (show 0 < max width 1 by omega)
  unfold InMemory at h
  omega

theorem InMemory.width_lt {height width : Nat} (h : InMemory height width) : width < 2 ^ 63 := by
  have hle := Nat.le_mul_of_pos_left (max width 1) (show 0 < max height 1 by omega)
  unfold InMemory at h
  omega

theorem InMemory.mul_lt {height width : Nat} (h : InMemory height width) : height * width < 2 ^ 63 :=
  (Nat.mul_le_mul (by omega) (by omega)).trans_lt h

/-- What fits in memory still fits with fewer rows, as for the support vectors of a machine. -/
theorem InMemory.anti {height height' width : Nat} (hle : height' ≤ height) (h : InMemory height width) :
    InMemory height' width :=
  (Nat.mul_le_mul_right _ (by omega)).trans_lt h

theorem fits_nat {n : Nat} (h : n < 2 ^ 63) : Fits n := by
  show n < 2 ^ 64
  omega

theorem fits_floats {cs : List Float} (h : cs.length < 2 ^ 63) : Fits cs :=
  ⟨by omega, fun _ _ => trivial⟩

/-- A matrix in memory fits its layout. A matrix without columns takes no memory, so its rows are bounded apart. -/
theorem Matrix.fits {x : Matrix Float} (h : InMemory x.height x.width)
    (hwidth : 0 < x.width ∨ x.height ≤ 1000000) : Fits x := by
  have hshape : isShape x.height x.width = true := by
    have hsize : max x.height 1 * max x.width 1 < Nat.pow 2 63 := h
    simpa [isShape, hsize] using hwidth
  have hentries : x.entries.length < 2 ^ 63 := length_entries x ▸ h.mul_lt
  exact ⟨hshape, fits_nat h.height_lt, fits_nat h.width_lt, fits_floats hentries⟩

/-- What growth returns fits, as places and counts stay below the width and the number of samples. -/
theorem Node.fits_of_grow {γ σ : Type} [Scalar γ] [Generator σ] {rules : GrowthRules}
    {classes : List Float} {fuel : Nat} {levels : Option Nat} {samples : List (TreeSample Float)} {g g' : σ}
    {node : Node Float} (h : grow γ rules classes fuel levels samples g = some (node, g'))
    (hwidth : rules.width < 2 ^ 63) (hsamples : samples.length < 2 ^ 63) : Fits node := by
  refine grow_induction (P := fun samples node => samples.length < 2 ^ 63 → NodeFits node) ?_ ?_ h hsamples
  · exact fun samples hlt => ⟨trivial, fits_nat hlt⟩
  · intro samples feature threshold left right hfeature hleft hright hlt
    have hfilter : ∀ p, (samples.filter p).length < 2 ^ 63 := fun p =>
      (List.length_filter_le p samples).trans_lt hlt
    exact ⟨⟨fits_nat (hfeature.trans hwidth), trivial⟩, hleft (hfilter _), hright (hfilter _), fits_nat hlt⟩

theorem Classes.fits_distinct {y : List Float} (h : y.length < 2 ^ 63) : Fits (distinct y) :=
  fits_floats ((length_distinct_le y).trans_lt h)

/-- A fitted tree can be stored, given that its training rows were in memory and its settings fit. -/
theorem DecisionTree.fits_of_fit {γ : Type} [Scalar γ] {t u : DecisionTree Float} {x : Matrix Float}
    {y : List Float} (h : t.fit γ x y = .ok u) (hx : InMemory x.height x.width)
    (hsettings : Fits (t.maxDepth, t.minSplit, t.minLeaf, t.maxFeatures)) : Fits u := by
  obtain ⟨hheight, -, root, g, hgrow, rfl⟩ := fit_eq_ok h
  have hsamples : (samplesOf (Classes.distinct y) x y).length < 2 ^ 63 := by
    rw [samplesOf, List.length_zipWith]
    exact (Nat.min_le_left _ _).trans_lt hx.height_lt
  have hroot := Node.fits_of_grow hgrow hx.width_lt hsamples
  obtain ⟨hdepth, hsplit, hleaf, hfeatures⟩ := hsettings
  refine ⟨fun node hnode => Option.some.inj hnode ▸ hroot, hdepth, hsplit, hleaf, hfeatures, trivial,
    fits_nat hx.width_lt, Classes.fits_distinct ?_⟩
  exact hheight ▸ hx.height_lt

theorem Forest.featuresPerSplit_lt (width : Nat) : featuresPerSplit width < 2 ^ 64 := by
  have hfloor : Scalar.floor (Scalar.sqrt (Float.ofNat width)) < 2 ^ 64 := UInt64.toNat_lt _
  rw [featuresPerSplit]
  omega

theorem Forest.fits_of_fit {f g : Forest Float} {x : Matrix Float} {y : List Float}
    (h : f.fit Float x y = .ok g) (hx : InMemory x.height x.width)
    (hsettings : Fits (f.size, f.maxDepth, f.minSplit, f.minLeaf)) : Fits g := by
  have hlength := length_trees_of_fit h
  obtain ⟨hheight, -, hrows, trees, htrees, rfl⟩ := fit_eq_ok h
  obtain ⟨hsize, hdepth, hsplit, hleaf⟩ := hsettings
  have htree : ∀ t ∈ trees, Fits t := by
    intro t ht
    obtain ⟨place, -, hplace⟩ := exists_of_mem_mapM htrees ht
    rw [fitTree_eq] at hplace
    refine DecisionTree.fits_of_fit hplace ?_ ⟨hdepth, hsplit, hleaf, ?_⟩
    · rw [height_select_drawn f hrows]
      exact hx
    · intro features hfeatures
      exact Option.some.inj hfeatures ▸ featuresPerSplit_lt x.width
  refine ⟨⟨hlength ▸ hsize, htree⟩, hsize, hdepth, hsplit, hleaf, trivial, trivial, fits_nat hx.width_lt,
    Classes.fits_distinct ?_⟩
  exact hheight ▸ hx.height_lt

/-- A naive Bayes model fits its words if the data that it was fitted to does. -/
theorem NaiveBayes.fits_of_fit {b c : NaiveBayes Float} {x : Matrix Float} {y : List Float}
    (h : b.fit x y = .ok c) (hy : y.length < 2 ^ 64) (hx : x.width < 2 ^ 64) : LawfulLayout.Fits c := by
  obtain ⟨-, -, -, hclasses, -, -, hmeans, hvariances, hpriors⟩ := fit_eq_ok h
  have hlength := (Classes.length_distinct_le y).trans_lt hy
  have hcolumns : ∀ k, (rowsOf x y k).columns.length = x.width := by
    intro k
    simp [Matrix.columns, rowsOf, Matrix.select]
  have htable : ∀ g : List Float → Float,
      LawfulLayout.Fits ((Classes.distinct y).map fun k => (rowsOf x y k).columns.map g) := by
    intro g
    refine ⟨by simpa using hlength, fun row hrow => ?_⟩
    obtain ⟨k, -, rfl⟩ := List.mem_map.1 hrow
    refine ⟨?_, fun _ _ => trivial⟩
    rw [List.length_map, hcolumns]
    exact hx
  refine ⟨hmeans ▸ htable _, hvariances ▸ htable _, ⟨?_, fun _ _ => trivial⟩, ⟨?_, fun _ _ => trivial⟩,
    trivial, trivial⟩
  · rw [hpriors, List.length_map]
    exact hlength
  · rw [hclasses]
    exact hlength

/-- What a machine stores fits, since its support vectors are rows of the training matrix. -/
theorem VectorMachine.fits_of_fit {m n : VectorMachine Float} {x : Matrix Float} {y : List Float}
    (h : (m.fit x y).result = .ok n) (hx : InMemory x.height x.width) : Fits n.stored := by
  -- Rows without entries are only believed up to a million, and a machine never has as many.
  obtain ⟨places, hplaces, hfew, hselect, hcoefficients⟩ := exists_support_of_fit h
  have hheight : n.support.height = places.length := by rw [hselect, Matrix.height_select hplaces]
  have hwidth : n.support.width = x.width := by rw [hselect, Matrix.select]
  have hlimit : x.height ≤ sampleLimit ∧ n.classes.length = 2 := by
    obtain ⟨classes, gamma, alphas, bias, hcheck, -, hfound, rfl⟩ := fit_eq_ok h
    exact ⟨(length_of_optimize hfound).2, (check_eq_ok hcheck).2.2.2⟩
  have hsupport : Fits n.support := by
    refine Matrix.fits ?_ (.inr ?_)
    · rw [hheight, hwidth]
      exact hx.anti hfew
    · rw [hheight]
      exact (hfew.trans hlimit.1).trans (by decide)
  have hlength : n.coefficients.length < 2 ^ 63 := hcoefficients ▸ hfew.trans_lt hx.height_lt
  have hclasses : n.classes.length < 2 ^ 63 := by
    rw [hlimit.2]
    decide
  exact ⟨trivial, hsupport, fits_floats hlength, trivial, fits_floats hclasses⟩

/-- No run counts more epochs than its limit allows. -/
theorem runEpochs_le {σ : Type} (epoch : σ → σ × Float) (tolerance : Float) (patience limit done : Nat)
    (p : Progress Float) (s : σ) (loss : Float) :
    (runEpochs epoch tolerance patience limit done p s loss).2.1 ≤ done + limit := by
  induction limit generalizing done p s loss with
  | zero => exact Nat.le_refl done
  | succ limit ih =>
    rw [runEpochs]
    dsimp only
    split
    · show done + 1 ≤ _
      omega
    · have hle := ih (done + 1) (p.observe tolerance (epoch s).2) (epoch s).1 (epoch s).2
      omega

theorem QuasiNewton.search_le (objective : List Float → Float × List Float) (tolerance : Float)
    (limit done : Nat) (s : State Float) : (search objective tolerance limit done s).2 ≤ done + limit := by
  induction limit generalizing done s with
  | zero => exact Nat.le_refl done
  | succ limit ih =>
    rw [search]
    dsimp only
    split
    · exact Nat.le_add_right done _
    · split
      · exact Nat.le_add_right done _
      · next params loss gradient _ =>
        split
        · show done + 1 ≤ _
          omega
        · exact (ih _ _).trans_eq (Nat.add_right_comm done 1 limit)

/-- Both solvers report no more iterations than the limit of the settings. -/
theorem Perceptron.iterations_le (p : Perceptron Float) (x : Matrix Float) (y : List Float) :
    (p.trained x y).2.1 ≤ p.training.limit := by
  rw [trained, train]
  split
  · exact (QuasiNewton.search_le _ _ _ _ _).trans_eq (Nat.zero_add _)
  · exact (runEpochs_le _ _ _ _ _ _ _ _).trans_eq (Nat.zero_add _)

def Network.Holds (shapes : List LayerShape) : Prop :=
  shapes.length < 2 ^ 63 ∧ ∀ s ∈ shapes, InMemory s.inputs s.units

theorem Network.units_of_mem_shapes {inputs : Nat} {sizes : List Nat} {s : LayerShape}
    (h : s ∈ shapes (inputs :: sizes)) : s.units ∈ sizes ∧ s.biases = s.units := by
  induction sizes generalizing inputs with
  | nil => simp [shapes] at h
  | cons units sizes ih =>
    rcases List.mem_cons.1 h with rfl | h
    · exact ⟨List.mem_cons_self, rfl⟩
    · exact (ih h).imp_left (List.mem_cons_of_mem units)

/-- No layer of a fitted perceptron is without units. -/
theorem Perceptron.units_pos {p : Perceptron Float} {x : Matrix Float} {y : List Float}
    (hcheck : check p.training = .ok ()) (hrows : x.rows ≠ []) (hheight : x.height = y.length) {units : Nat}
    (h : units ∈ p.training.hidden ++ [(Classes.distinct y).length]) : 0 < units := by
  rcases List.mem_append.1 h with h | h
  · rw [check] at hcheck
    split at hcheck
    · cases hcheck
    · next hhidden =>
      rw [Bool.or_eq_true, not_or, List.contains_iff_mem] at hhidden
      exact Nat.pos_of_ne_zero fun hzero => hhidden.2 (hzero ▸ h)
  · rw [List.mem_singleton.1 h, List.length_pos_iff]
    exact Matrix.distinct_ne_nil hrows hheight

/-- A fitted network can be stored: its layers have the sizes asked for. -/
theorem Perceptron.fits_of_fit {p q : Perceptron Float} {x : Matrix Float} {y : List Float}
    (h : p.fit x y = .ok q) (hx : InMemory x.height x.width) (hsettings : Fits p.training)
    (hlayers : Network.Holds
      (Network.shapes (x.width :: p.training.hidden ++ [(Classes.distinct y).length]))) : Fits q := by
  obtain ⟨hcheck, hrows, hheight, rfl⟩ := fit_eq_ok h
  have hshape : ∀ l ∈ (p.trained x y).1, InMemory l.weights.height l.weights.width ∧
      0 < l.weights.width ∧ l.bias.length < 2 ^ 63 := by
    intro l hl
    have hmem : l.shape ∈ Network.shapes (x.width :: p.training.hidden ++ [(Classes.distinct y).length]) :=
      p.shapes_trained x y ▸ List.mem_map_of_mem hl
    have hmemory : InMemory l.weights.height l.weights.width := hlayers.2 l.shape hmem
    obtain ⟨hunits, hbiases⟩ := Network.units_of_mem_shapes hmem
    have hlength : l.bias.length = l.weights.width := hbiases
    exact ⟨hmemory, units_pos hcheck hrows hheight hunits, hlength ▸ hmemory.width_lt⟩
  have hcount : (p.trained x y).1.length < 2 ^ 63 := by
    rw [← List.length_map Layer.shape, p.shapes_trained x y]
    exact hlayers.1
  refine ⟨hsettings, ⟨?_, ?_⟩, ⟨?_, ?_⟩, fits_nat hx.width_lt, Classes.fits_distinct ?_, ?_, trivial⟩
  · rw [List.length_map]
    omega
  · intro w hw
    obtain ⟨l, hl, rfl⟩ := List.mem_map.1 hw
    obtain ⟨hmemory, hpos, -⟩ := hshape l hl
    exact Matrix.fits hmemory (.inl hpos)
  · rw [List.length_map, List.length_map]
    omega
  · intro v hv
    rw [List.map_map] at hv
    obtain ⟨l, hl, rfl⟩ := List.mem_map.1 hv
    exact fits_floats (hshape l hl).2.2
  · exact hheight ▸ hx.height_lt
  · have hlimit : p.training.limit < 2 ^ 64 := hsettings.2.2.2.2.1
    exact (p.iterations_le x y).trans_lt hlimit

/-- A model that a fit to the rows of `x` and the labels `y` has made, whatever there was before. The numbers
of the settings are words, and the layers of a perceptron are in memory. -/
inductive Classifier.Reached (x : Matrix Float) (y : List Float) : Classifier Float → Prop where
  | forest {f g : Forest Float} (hsettings : LawfulLayout.Fits (f.size, f.maxDepth, f.minSplit, f.minLeaf))
      (hfit : f.fit Float x y = .ok g) : Reached x y (.forest g)
  | perceptron {p q : Perceptron Float} (hsettings : LawfulLayout.Fits p.training)
      (hlayers : Network.Holds
        (Network.shapes (x.width :: p.training.hidden ++ [(Classes.distinct y).length])))
      (hfit : p.fit x y = .ok q) : Reached x y (.perceptron q)
  | naiveBayes {b c : NaiveBayes Float} (hfit : b.fit x y = .ok c) : Reached x y (.naiveBayes c)
  | vectorMachine {m n : VectorMachine Float} (hfit : (m.fit x y).result = .ok n) :
      Reached x y (.vectorMachine n)

/-- Every classifier that training can reach can be stored, of whatever family. -/
theorem Classifier.fits_of_reached {x : Matrix Float} {y : List Float} {k : Classifier Float}
    (hx : InMemory x.height x.width) (h : k.Reached x y) : k.Fits := by
  cases h with
  | forest hsettings hfit => exact Forest.fits_of_fit hfit hx hsettings
  | perceptron hsettings hlayers hfit => exact Perceptron.fits_of_fit hfit hx hsettings hlayers
  | naiveBayes hfit =>
    have hheight := (NaiveBayes.fit_eq_ok hfit).2.1
    have hlt := hx.height_lt
    have hwidth := hx.width_lt
    exact NaiveBayes.fits_of_fit hfit (by omega) (by omega)
  | vectorMachine hfit => exact VectorMachine.fits_of_fit hfit hx

/-- The bytes of an artifact with a fitted model are read to their end and give the artifact back, but for the
settings of a machine, which become the default ones. The model that is read back predicts as the one that
was stored. A scaler is given back as it is. -/
theorem Artifact.read_write_fitted {x : Matrix Float} {y : List Float} {a : Artifact Float}
    (hx : InMemory x.height x.width) (ha : a.classifier.Reached x y)
    (hlabel : a.hyperparameter.utf8ByteSize < 2 ^ 64) :
    read (write a) = some (a.restored, []) ∧
      (∀ m, a.classifier = .vectorMachine m →
        a.restored = { a with classifier := .vectorMachine { m with settings := default } }) ∧
      ((∀ m, a.classifier ≠ .vectorMachine m) → a.restored = a) ∧
      a.restored.classifier.predict = a.classifier.predict ∧
      ∀ s : Scaler Float, s.center.length < 2 ^ 64 → s.scale.length < 2 ^ 64 →
        read (write s) = some (s, []) := by
  have hread := a.read_write ⟨hlabel, Classifier.fits_of_reached hx ha⟩ []
  rw [List.append_nil] at hread
  refine ⟨hread, fun m hm => ?_, fun hne => ?_, Classifier.predict_restored _, fun s hcenter hscale => ?_⟩
  · rw [restored, hm]
    rfl
  · rw [restored, Classifier.restored_of_ne hne]
  · have hfits : LawfulLayout.Fits s := ⟨⟨hcenter, fun _ _ => trivial⟩, hscale, fun _ _ => trivial⟩
    have hscaler := LawfulLayout.read_write s hfits []
    rwa [List.append_nil] at hscaler

/-- A machine fitted with a bound of two. -/
theorem Artifact.read_write_fitted_two :
    ∃ a b : Artifact Float, (∃ m, a.classifier = .vectorMachine m ∧ m.settings.c = 2) ∧
      (∃ m, b.classifier = .vectorMachine m ∧ m.settings.c = 1) ∧
      read (write a) = some (b, []) ∧ b.classifier.predict = a.classifier.predict := by
  let m : VectorMachine Float :=
    .unfitted { (default : MachineSettings Float) with gamma := .value 1, c := 2 }
  let x : Matrix Float := ⟨1, [[0], [1]], by simp⟩
  have hclasses : Classes.distinct [(0 : Float), 1] = [0, 1] :=
    Classes.distinct_replicate rfl rfl rfl rfl 0
  have hgamma : m.settings.gamma.resolve x = .ok 1 := rfl
  have htwo : (Classes.distinct [(0 : Float), 1]).length = 2 := by rw [hclasses]; rfl
  have hpositive : Scalar.less 0 m.settings.c = true := by decide +kernel
  obtain ⟨n, hn⟩ := VectorMachine.exists_fit rfl hpositive htwo hgamma (by decide)
  have hsettings : n.settings = m.settings := by
    obtain ⟨-, -, -, -, -, -, -, rfl⟩ := VectorMachine.fit_eq_ok hn
    rfl
  have hlabel : "c=2; gamma=1".utf8ByteSize < 2 ^ 64 := by decide
  obtain ⟨hread, hmachine, -, hpredict, -⟩ := read_write_fitted
    (a := ⟨.vectorMachine, .raw, _, .vectorMachine n⟩) (by decide) (.vectorMachine hn) hlabel
  refine ⟨_, _, ⟨n, rfl, hsettings ▸ rfl⟩, ⟨_, congrArg Artifact.classifier (hmachine n rfl), rfl⟩, hread,
    hpredict⟩

end PackageTriage
