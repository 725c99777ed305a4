import PackageTriage.Proofs.Classifier.Rows
import PackageTriage.Proofs.Scalar.Zeros
import PackageTriage.Scaling.Scaler

/-!
# Classifiers do not see the sign of a zero

Samples whose features are numerically equal get the same label. A tree compares features, naive Bayes
and the vector machine square differences, and a unit of a network adds up its inputs from zero on.
-/

namespace PackageTriage

open Binary

/-- Rows that are the same but for the signs of zeros. -/
abbrev AlikeRows : List Float → List Float → Prop := List.Forall₂ Alike

variable {r s : List Float}

theorem AlikeRows.getD (h : AlikeRows r s) (place : Nat) : Alike (r.getD place 0) (s.getD place 0) := by
  induction h generalizing place with
  | nil => exact .refl _
  | cons hxy h ih =>
    cases place with
    | zero => exact hxy
    | succ place => exact ih place

/-- What a function cannot tell apart, it cannot tell apart in rows. -/
theorem AlikeRows.zipWith_eq {β γ : Type} {f : Float → β → γ} (hf : ∀ x y c, Alike x y → f x c = f y c)
    (h : AlikeRows r s) (cs : List β) : List.zipWith f r cs = List.zipWith f s cs := by
  induction h generalizing cs with
  | nil => rfl
  | cons hxy h ih =>
    cases cs with
    | nil => rfl
    | cons c cs => rw [List.zipWith_cons_cons, List.zipWith_cons_cons, hf _ _ c hxy, ih cs]

/-- Scaled rows stay alike. -/
theorem Scaler.scaleRow_alike (h : AlikeRows r s) (cs ss : List Float) :
    AlikeRows (scaleRow cs ss r) (scaleRow cs ss s) := by
  induction h generalizing cs ss with
  | nil => cases cs <;> cases ss <;> exact .nil
  | cons hxy h ih =>
    cases cs with
    | nil => exact .cons hxy h
    | cons c cs =>
      cases ss with
      | nil => exact .cons hxy h
      | cons d ss => exact .cons ((hxy.sub c).div d) (ih cs ss)

namespace Classes

/-- Scores that agree up to the sign of zero are greatest at the same place. -/
theorem argmaxFrom_alike {a b : Float} (hab : Alike a b) (h : AlikeRows r s) (best place : Nat) :
    argmaxFrom a best place r = argmaxFrom b best place s := by
  induction h generalizing a b best place with
  | nil => rfl
  | @cons x y r s hxy h ih =>
    have hless : Scalar.less a x = Scalar.less b y := (hab.less_left x).trans (hxy.less_right b)
    rw [argmaxFrom, argmaxFrom, hless]
    split
    · exact ih hxy place (place + 1)
    · exact ih hab best (place + 1)

theorem best_alike (h : AlikeRows r s) (classes : List Float) : best classes r = best classes s := by
  have hargmax : argmax r = argmax s := by
    cases h with
    | nil => rfl
    | cons hxy h => exact argmaxFrom_alike hxy h 0 1
  rw [best, best, hargmax]

end Classes

/-- A tree only compares, and comparisons do not see the sign of a zero. -/
theorem Node.predict_alike (h : AlikeRows r s) (node : Node Float) : node.predict r = node.predict s := by
  induction node with
  | leaf value n => rfl
  | split feature threshold left right n ihl ihr =>
    have hleft : goesLeft feature threshold r = goesLeft feature threshold s :=
      (h.getD feature).atMost_left threshold
    rw [predict, predict, hleft, ihl, ihr]

theorem DecisionTree.predict_alike (h : AlikeRows r s) (t : DecisionTree Float) :
    t.predict (.ofRow r) = t.predict (.ofRow s) := by
  cases hroot : t.root with
  | none => simp [predict, hroot]
  | some root => simp [predict, hroot, Matrix.ofRow, h.length_eq, root.predict_alike h]

theorem Forest.predict_alike (h : AlikeRows r s) (f : Forest Float) :
    f.predict (.ofRow r) = f.predict (.ofRow s) := by
  have htrees : (f.trees.mapM fun t => t.predict (.ofRow r)) =
      f.trees.mapM fun t => t.predict (.ofRow s) :=
    congrArg (f.trees.mapM ·) (funext fun t => t.predict_alike h)
  rw [predict, predict, probabilities, probabilities, htrees]
  rfl

/-- One more summand in every place, with either zero as its factor. -/
theorem Matrix.zipWith_add_alike {start : List Float} (hstart : ∀ v ∈ start, Plain v) {c d : Float}
    (hcd : Alike c d) (row : List Float) :
    List.zipWith (fun v w => v + c * w) start row = List.zipWith (fun v w => v + d * w) start row ∧
      ∀ v ∈ List.zipWith (fun v w => v + d * w) start row, Plain v := by
  induction start generalizing row with
  | nil => simp
  | cons v start ih =>
    cases row with
    | nil => simp
    | cons w row =>
      have hv := hstart v (by simp)
      obtain ⟨hrest, hplain⟩ := ih (fun u hu => hstart u (by simp [hu])) row
      rw [List.zipWith_cons_cons, List.zipWith_cons_cons, hv.add_congr (hcd.mul w), hrest]
      refine ⟨rfl, fun u hu => ?_⟩
      rcases List.mem_cons.1 hu with rfl | hu
      · exact hv.add (d * w)
      · exact hplain u hu

/-- Adding up from zero on never gives the negative zero, so the sign of no zero matters. -/
theorem Matrix.combineFrom_alike {start : List Float} (hstart : ∀ v ∈ start, Plain v)
    (h : AlikeRows r s) (rows : List (List Float)) :
    combineFrom start r rows = combineFrom start s rows := by
  induction h generalizing start rows with
  | nil => rfl
  | cons hcd h ih =>
    cases rows with
    | nil => rfl
    | cons row rows =>
      obtain ⟨hsum, hplain⟩ := zipWith_add_alike hstart hcd row
      rw [combineFrom, combineFrom, hsum, ih hplain]

theorem Layer.inputsOf_alike (h : AlikeRows r s) (l : Layer Float) : l.inputsOf r = l.inputsOf s := by
  have hcombine : l.weights.combine r = l.weights.combine s := by
    apply Matrix.combineFrom_alike _ h
    intro v hv
    rw [List.eq_of_mem_replicate hv]
    exact plain_zero
  rw [inputsOf, inputsOf, hcombine]

theorem Network.best_forward_alike (h : AlikeRows r s) (act : Activation) (layers : List (Layer Float))
    (classes : List Float) :
    Classes.best classes (forward act layers r) = Classes.best classes (forward act layers s) := by
  cases layers with
  | nil => exact Classes.best_alike h classes
  | cons l layers =>
    cases layers with
    | nil => rw [forward, forward, l.inputsOf_alike h]
    | cons m layers => rw [forward, forward, l.inputsOf_alike h]

theorem Perceptron.predict_alike (h : AlikeRows r s) (p : Perceptron Float) :
    p.predict (.ofRow r) = p.predict (.ofRow s) := by
  have hrows := Network.rows_probabilities p.training.activation p.layers
  have hbest := Network.best_forward_alike h p.training.activation p.layers p.classes
  by_cases hweights : p.weights.isEmpty
  · simp [predict, probabilities, hweights]
  · by_cases hwidth : s.length = p.width
    · simp [predict, probabilities, hweights, hwidth, hrows, Matrix.ofRow, h.length_eq, hbest]
    · simp [predict, probabilities, hweights, hwidth, Matrix.ofRow, h.length_eq]

theorem NaiveBayes.predict_alike (h : AlikeRows r s) (b : NaiveBayes Float) :
    b.predict (.ofRow r) = b.predict (.ofRow s) := by
  have hdensity : ∀ x y (c : Float × Float), Alike x y → logDensity x c.1 c.2 = logDensity y c.1 c.2 := by
    intro x y c hxy
    rw [logDensity, logDensity, (hxy.sub c.1).sq_eq]
  have hjoint : b.jointLogLikelihood r = b.jointLogLikelihood s := by
    have hlog : ∀ means variances, logLikelihood means variances r = logLikelihood means variances s := by
      intro means variances
      exact congrArg Scalar.sum (h.zipWith_eq hdensity (means.zip variances))
    simp only [jointLogLikelihood, hlog]
  by_cases hclasses : b.classes.isEmpty
  · simp [predict, joint, hclasses]
  · by_cases hwidth : s.length = b.width
    · simp [predict, joint, hclasses, hwidth, Matrix.ofRow, h.length_eq, hjoint]
    · simp [predict, joint, hclasses, hwidth, Matrix.ofRow, h.length_eq]

/-- Kernels only take differences of a sample's entries, so zeros of both signs count alike. -/
theorem VectorMachine.predict_alike (h : AlikeRows r s) (m : VectorMachine Float) :
    m.predict (.ofRow r) = m.predict (.ofRow s) := by
  have hsquare : ∀ x y c : Float, Alike x y → Scalar.sq (x - c) = Scalar.sq (y - c) :=
    fun x y c hxy => (hxy.sub c).sq_eq
  have hdecide : m.decide r = m.decide s := by
    have hkernel : ∀ v, kernel m.gamma r v = kernel m.gamma s v := by
      intro v
      rw [kernel, kernel, h.zipWith_eq hsquare v]
    simp only [decide, hkernel]
  have hwidth : (Matrix.ofRow r).width = (Matrix.ofRow s).width := h.length_eq
  have hrows : (Matrix.ofRow r).rows.map m.decide = (Matrix.ofRow s).rows.map m.decide :=
    congrArg (fun v => [v]) hdecide
  rw [predict, predict, decisions, decisions, hwidth, hrows]

/-- Numerically equal samples get the same label. -/
theorem Classifier.predictOne_alike (h : AlikeRows r s) (k : Classifier Float) :
    k.predictOne r = k.predictOne s := by
  have hpredict : k.predict (.ofRow r) = k.predict (.ofRow s) := by
    cases k with
    | forest f => exact f.predict_alike h
    | perceptron p => exact p.predict_alike h
    | naiveBayes b => exact b.predict_alike h
    | vectorMachine m => exact m.predict_alike h
  rw [predictOne, predictOne, hpredict]

end PackageTriage
