import PackageTriage.Classifier
import PackageTriage.Proofs.Sequences

/-!
# Classifiers answer row by row

Whether a model accepts a matrix depends on the width alone, and its answer for a row on that row
alone. So a sample gets the same answer by itself as in the middle of a batch.
-/

namespace PackageTriage

variable {α β : Type}

/-- Answers that are found row by row, once the width is accepted. -/
def Rowwise (answer : Matrix α → Except Error (List β)) : Prop :=
  ∃ (refusal : Nat → Option Error) (one : List α → β), ∀ x,
    answer x = match refusal x.width with
      | some e => .error e
      | none => .ok (x.rows.map one)

namespace Rowwise

variable {answer : Matrix α → Except Error (List β)}

/-- A row by itself is answered as it is among others. -/
theorem single (h : Rowwise answer) {x : Matrix α} {answers : List β} (hx : answer x = .ok answers)
    {i : Nat} {r : List α} (hr : x.rows[i]? = some r) :
    ∃ b, answers[i]? = some b ∧ answer (.ofRow r) = .ok [b] := by
  obtain ⟨refusal, one, hanswer⟩ := h
  have hwidth : (Matrix.ofRow r).width = x.width := x.rows_width r (List.mem_of_getElem? hr)
  rw [hanswer] at hx
  rw [hanswer, hwidth]
  cases hrefusal : refusal x.width with
  | some e => simp [hrefusal] at hx
  | none =>
    simp only [hrefusal, Except.ok.injEq] at hx
    exact ⟨one r, by simp [← hx, hr], rfl⟩

/-- A rowwise answer has one entry a row. -/
theorem length_eq (h : Rowwise answer) {x : Matrix α} {answers : List β} (hx : answer x = .ok answers) :
    answers.length = x.height := by
  obtain ⟨refusal, one, hanswer⟩ := h
  rw [hanswer] at hx
  cases hrefusal : refusal x.width with
  | some e => simp [hrefusal] at hx
  | none =>
    simp only [hrefusal, Except.ok.injEq] at hx
    rw [← hx, List.length_map, Matrix.height]

end Rowwise

/-- Models that answer row by row, asked one after the other. -/
theorem rowwise_mapM {μ : Type} (ask : μ → Matrix α → Except Error (List β)) (models : List μ)
    (h : ∀ m ∈ models, Rowwise (ask m)) :
    ∃ (refusal : Nat → Option Error) (ones : List (List α → β)), ∀ x,
      (models.mapM fun m => ask m x) = match refusal x.width with
        | some e => .error e
        | none => .ok (ones.map fun one => x.rows.map one) := by
  induction models with
  | nil => exact ⟨fun _ => none, [], fun x => rfl⟩
  | cons m models ih =>
    obtain ⟨refusal, one, hone⟩ := h m (by simp)
    obtain ⟨refusals, ones, hones⟩ := ih fun n hn => h n (by simp [hn])
    refine ⟨fun width => refusal width <|> refusals width, one :: ones, fun x => ?_⟩
    rw [List.mapM_cons, hone, hones]
    cases hrefusal : refusal x.width with
    | some e => simp [hrefusal]
    | none => cases hrefusals : refusals x.width <;>
        simp [hrefusal, hrefusals]

/-- The votes for a row are what each tree says of it. -/
theorem Forest.votesPerRow_map (rows : List (List α)) (ones : List (List α → α)) :
    votesPerRow rows.length (ones.map fun one => rows.map one) =
      rows.map fun r => ones.map fun one => one r := by
  apply List.ext_getElem
  · simp [votesPerRow]
  · intro i hi hi'
    have hlt : i < rows.length := by simpa using hi'
    simp [votesPerRow, List.filterMap_map, hlt]

variable [Scalar α]

theorem DecisionTree.predict_rowwise (t : DecisionTree α) : Rowwise t.predict := by
  cases hroot : t.root with
  | none => exact ⟨fun _ => some .notFitted, fun _ => 0, fun x => by simp [predict, hroot]⟩
  | some root =>
    refine ⟨fun width => if width = t.width then none else some (.shape (.features t.width width)),
      root.predict, fun x => ?_⟩
    by_cases hwidth : x.width = t.width <;> simp [predict, hroot, hwidth]

theorem Forest.predict_rowwise (f : Forest α) : Rowwise f.predict := by
  by_cases htrees : f.trees.isEmpty
  · refine ⟨fun _ => some .notFitted, fun _ => 0, fun x => ?_⟩
    simp [predict, probabilities, htrees]
  · obtain ⟨refusal, ones, hones⟩ :=
      rowwise_mapM DecisionTree.predict f.trees fun t _ => t.predict_rowwise
    refine ⟨refusal, fun r => Classes.best f.classes ((tally f.classes (ones.map fun one => one r)).map
      fun (c : Nat) => (c : α) / (f.trees.length : α)), fun x => ?_⟩
    simp only [predict, probabilities, htrees, hones]
    cases refusal x.width with
    | some e => rfl
    | none => simp [Matrix.height, votesPerRow_map, Function.comp_def]

def Layer.inputsOf (l : Layer α) (r : List α) : List α := addTo l.bias (l.weights.combine r)

def Network.forward (act : Activation) : List (Layer α) → List α → List α
  | [], r => r
  | [last], r => softmax (last.inputsOf r)
  | l :: m :: ls, r => forward act (m :: ls) ((l.inputsOf r).map act.apply)

theorem Layer.rows_inputs (l : Layer α) (x : Matrix α) :
    (l.inputs x).rows = x.rows.map l.inputsOf := by
  simp [inputs, Matrix.mapRows, Matrix.mul, Matrix.combinations, inputsOf, Function.comp_def]

/-- A batch goes through the layers row by row. -/
theorem Network.rows_probabilities (act : Activation) (layers : List (Layer α)) (x : Matrix α) :
    (probabilities act layers x).rows = x.rows.map (forward act layers) := by
  induction layers generalizing x with
  | nil => simp [probabilities, forward]
  | cons l layers ih =>
    cases layers with
    | nil =>
      simp [probabilities, forward, Layer.output, Matrix.mapRows, Layer.rows_inputs, Function.comp_def]
    | cons m layers =>
      rw [probabilities, ih]
      · simp [forward, Layer.hidden, Matrix.map, Layer.rows_inputs, Function.comp_def]
      · simp

theorem Perceptron.predict_rowwise (p : Perceptron α) : Rowwise p.predict := by
  by_cases hweights : p.weights.isEmpty
  · refine ⟨fun _ => some .notFitted, fun _ => 0, fun x => ?_⟩
    simp [predict, probabilities, hweights]
  · refine ⟨fun width => if width ≠ p.width then some (.shape (.features p.width width)) else none,
      fun r => Classes.best p.classes (Network.forward p.training.activation p.layers r), fun x => ?_⟩
    by_cases hwidth : x.width = p.width <;>
      simp [predict, probabilities, hweights, hwidth,
        Network.rows_probabilities, Function.comp_def]

theorem NaiveBayes.predict_rowwise (b : NaiveBayes α) : Rowwise b.predict := by
  by_cases hclasses : b.classes.isEmpty
  · refine ⟨fun _ => some .notFitted, fun _ => 0, fun x => ?_⟩
    simp [predict, joint, hclasses]
  · refine ⟨fun width => if width ≠ b.width then some (.shape (.features b.width width)) else none,
      fun r => Classes.best b.classes (b.jointLogLikelihood r), fun x => ?_⟩
    by_cases hwidth : x.width = b.width <;>
      simp [predict, joint, hclasses, hwidth, Function.comp_def]

theorem VectorMachine.predict_rowwise (m : VectorMachine α) : Rowwise m.predict := by
  by_cases hclasses : m.classes.isEmpty
  · refine ⟨fun _ => some .notFitted, fun _ => 0, fun x => ?_⟩
    simp [predict, decisions, hclasses]
  · refine ⟨fun width => if width ≠ m.support.width && !m.support.rows.isEmpty then
        some (.shape (.features m.support.width width)) else none,
      fun r => m.classes.getD (if Scalar.less 0 (m.decide r) then 1 else 0) 0, fun x => ?_⟩
    by_cases hwidth : x.width = m.support.width <;> by_cases hrows : m.support.rows = [] <;>
      simp [predict, decisions, hclasses, hwidth, hrows]

/-- Every classifier answers row by row. -/
theorem Classifier.predict_rowwise (k : Classifier α) : Rowwise k.predict := by
  cases k with
  | forest f => exact f.predict_rowwise
  | perceptron p => exact p.predict_rowwise
  | naiveBayes b => exact b.predict_rowwise
  | vectorMachine m => exact m.predict_rowwise

/-- The label of one sample is that of its class in any batch. -/
theorem Classifier.predictOne_eq {k : Classifier α} {x : Matrix α} {classes : List α}
    (h : k.predict x = .ok classes) {i : Nat} {r : List α} (hr : x.rows[i]? = some r) :
    ∃ c, classes[i]? = some c ∧ k.predictOne r = .ok (.ofClass c) := by
  obtain ⟨c, hc, hone⟩ := k.predict_rowwise.single h hr
  exact ⟨c, hc, by simp [predictOne, hone]⟩

end PackageTriage
