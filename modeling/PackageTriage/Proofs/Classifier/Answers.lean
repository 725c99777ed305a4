import PackageTriage.Proofs.Classifier.Classes
import PackageTriage.Proofs.Classifier.Rows
import PackageTriage.Proofs.Network.Shapes

/-!
# Checked answers

A prediction looks up features, scores and classes, and where a place is out of range the definitions take a
default. The answers below look up the same things but give nothing where a place is out of range, where
tables and scores are not as many as the classes, or where a layer does not fit what enters it. So an answer
that is given never fell back on a default, and it is what the model predicts.
-/

namespace PackageTriage

variable {α : Type} [Scalar α]

namespace Classes

/-- The class with the highest score, if every class has a score. -/
def best? (classes scores : List α) : Option α :=
  if scores.length = classes.length then classes[argmax scores]? else none

theorem best_of_best? {classes scores : List α} {c : α} (h : best? classes scores = some c) :
    best classes scores = c := by
  rw [best?] at h
  split at h
  · rw [best, List.getD_eq_getElem?_getD, h, Option.getD_some]
  · cases h

/-- The best score is that of some class, even where scores cannot be compared. -/
theorem exists_best? {classes scores : List α} (hlength : scores.length = classes.length)
    (hclasses : classes ≠ []) : ∃ c ∈ classes, best? classes scores = some c := by
  have hscores : scores ≠ [] := by
    rw [← List.length_pos_iff] at hclasses ⊢
    omega
  have hlt : argmax scores < classes.length := hlength ▸ argmax_lt hscores
  exact ⟨classes[argmax scores], List.getElem_mem hlt, by simp [best?, hlength, hlt]⟩

end Classes

/-- The value of the leaf that a sample comes to, if it has all features that are asked for. -/
def Node.answer? (sample : List α) : Node α → Option α
  | .leaf value _ => some value
  | .split feature threshold left right _ => do
    if Scalar.atMost (← sample[feature]?) threshold then left.answer? sample else right.answer? sample

/-- Where the checked descent arrives at a leaf, the plain one gives its class. -/
theorem Node.predict_of_answer? {sample : List α} {node : Node α} {c : α}
    (h : node.answer? sample = some c) : node.predict sample = c := by
  induction node with
  | leaf value n => exact Option.some.inj h
  | split feature threshold left right n ihl ihr =>
    obtain ⟨v, hv, h⟩ := Option.bind_eq_some_iff.1 h
    rw [predict, goesLeft, List.getD_eq_getElem?_getD, hv, Option.getD_some]
    split at h
    · rw [if_pos ‹_›, ihl h]
    · rw [if_neg ‹_›, ihr h]

def DecisionTree.answer? (t : DecisionTree α) (sample : List α) : Option α := do
  (← t.root).answer? sample

theorem DecisionTree.predict_of_answer? {t : DecisionTree α} {sample : List α} {c : α} {cs : List α}
    (hpredict : t.predict (.ofRow sample) = .ok cs) (h : t.answer? sample = some c) : cs = [c] := by
  obtain ⟨root, hroot, h⟩ := Option.bind_eq_some_iff.1 h
  rw [predict, hroot] at hpredict
  dsimp only at hpredict
  split at hpredict
  · rw [← Except.ok.inj hpredict, ← Node.predict_of_answer? h]
    rfl
  · cases hpredict

namespace Forest

/-- The class with the most votes, if every tree votes and every vote is for a class. -/
def answer? (f : Forest α) (sample : List α) : Option α := do
  let votes ← f.trees.mapM (·.answer? sample)
  let places ← votes.mapM (Classes.index? f.classes)
  Classes.best? f.classes
    ((ClassCounts.ofLabels f.classes.length places).map fun (c : Nat) => (c : α) / (f.trees.length : α))

/-- What the trees predict for one sample are its votes. -/
theorem predictions_of_answers {trees : List (DecisionTree α)} {sample votes : List α}
    {predictions : List (List α)} (hpredict : trees.mapM (·.predict (.ofRow sample)) = .ok predictions)
    (h : trees.mapM (·.answer? sample) = some votes) : predictions = votes.map fun v => [v] := by
  induction trees generalizing votes predictions with
  | nil =>
    obtain rfl : [] = predictions := by simpa using hpredict
    obtain rfl : [] = votes := by simpa using h
    rfl
  | cons t trees ih =>
    obtain ⟨cs, rest, hcs, hrest, rfl⟩ := mapM_cons_eq_ok.1 hpredict
    rw [List.mapM_cons] at h
    obtain ⟨v, hv, h⟩ := Option.bind_eq_some_iff.1 h
    obtain ⟨vs, hvs, h⟩ := Option.bind_eq_some_iff.1 h
    obtain rfl := Option.some.inj h
    rw [t.predict_of_answer? hcs hv, ih hrest hvs, List.map_cons]

theorem predict_of_answer? {f : Forest α} {sample : List α} {c : α} {cs : List α}
    (hpredict : f.predict (.ofRow sample) = .ok cs) (h : f.answer? sample = some c) : cs = [c] := by
  obtain ⟨votes, hvotes, h⟩ := Option.bind_eq_some_iff.1 h
  obtain ⟨places, hplaces, h⟩ := Option.bind_eq_some_iff.1 h
  have htally : tally f.classes votes = ClassCounts.ofLabels f.classes.length places := by
    rw [tally, filterMap_of_mapM hplaces]
    rfl
  rw [predict, probabilities] at hpredict
  split at hpredict
  · cases hpredict
  · obtain ⟨shares, hshares, hlast⟩ := bind_eq_ok.1 hpredict
    obtain ⟨predictions, hpredictions, hshares⟩ := bind_eq_ok.1 hshares
    obtain rfl := predictions_of_answers hpredictions hvotes
    have hrow : votesPerRow (Matrix.ofRow sample).height (votes.map fun v => [v]) = [votes] := by
      simp [votesPerRow, Matrix.ofRow, Matrix.height, List.filterMap_map]
    rw [hrow] at hshares
    rw [← Except.ok.inj hlast, ← Except.ok.inj hshares, List.map_singleton, List.map_singleton, htally,
      Classes.best_of_best? h]

end Forest

/-- The class with the highest density, if every class has a prior, and a mean and a variance for every
feature. -/
def NaiveBayes.answer? (b : NaiveBayes α) (sample : List α) : Option α :=
  if b.priors.length = b.classes.length ∧ b.means.length = b.classes.length ∧
      b.variances.length = b.classes.length ∧
      (∀ m ∈ b.means, m.length = sample.length) ∧ (∀ v ∈ b.variances, v.length = sample.length) then
    Classes.best? b.classes (b.jointLogLikelihood sample)
  else none

theorem NaiveBayes.predict_of_answer? {b : NaiveBayes α} {sample : List α} {c : α} {cs : List α}
    (hpredict : b.predict (.ofRow sample) = .ok cs) (h : b.answer? sample = some c) : cs = [c] := by
  rw [answer?] at h
  split at h
  · obtain ⟨logs, hlogs, hlast⟩ := bind_eq_ok.1 hpredict
    rw [joint] at hlogs
    split_ifs at hlogs
    rw [← Except.ok.inj hlast, ← Except.ok.inj hlogs, Matrix.ofRow, List.map_singleton,
      List.map_singleton, Classes.best_of_best? h]
  · cases h

/-- The likeliest class, if the sample fits the first layer, every layer the one before, and the classes the
last. -/
def Perceptron.answer? (p : Perceptron α) (sample : List α) : Option α :=
  if p.weights.length = p.biases.length ∧ p.layers ≠ [] ∧
      Network.Joins sample.length p.layers p.classes.length then
    Classes.best? p.classes (Network.forward p.training.activation p.layers sample)
  else none

theorem Perceptron.predict_of_answer? {p : Perceptron α} {sample : List α} {c : α} {cs : List α}
    (hpredict : p.predict (.ofRow sample) = .ok cs) (h : p.answer? sample = some c) : cs = [c] := by
  rw [answer?] at h
  split at h
  · obtain ⟨shares, hshares, hlast⟩ := bind_eq_ok.1 hpredict
    rw [probabilities] at hshares
    split_ifs at hshares
    rw [← Except.ok.inj hlast, ← Except.ok.inj hshares, Network.rows_probabilities, Matrix.ofRow,
      List.map_singleton, List.map_singleton, Classes.best_of_best? h]
  · cases h

/-- The class on the sample's side, if every support vector has its coefficient and the sample's features. -/
def VectorMachine.answer? (m : VectorMachine α) (sample : List α) : Option α :=
  if m.coefficients.length = m.support.height ∧ ∀ v ∈ m.support.rows, v.length = sample.length then
    m.classes[if Scalar.less 0 (m.decide sample) then 1 else 0]?
  else none

theorem VectorMachine.predict_of_answer? {m : VectorMachine α} {sample : List α} {c : α} {cs : List α}
    (hpredict : m.predict (.ofRow sample) = .ok cs) (h : m.answer? sample = some c) : cs = [c] := by
  rw [answer?] at h
  split at h
  · obtain ⟨sides, hsides, hlast⟩ := bind_eq_ok.1 hpredict
    rw [decisions] at hsides
    split_ifs at hsides
    rw [← Except.ok.inj hlast, ← Except.ok.inj hsides, Matrix.ofRow, List.map_singleton,
      List.map_singleton, List.getD_eq_getElem?_getD, h, Option.getD_some]
  · cases h

namespace Classifier

/-- The class of a sample, with every place checked. -/
def answer? : Classifier α → List α → Option α
  | forest f, sample => f.answer? sample
  | perceptron p, sample => p.answer? sample
  | naiveBayes b, sample => b.answer? sample
  | vectorMachine m, sample => m.answer? sample

/-- A checked answer is what the model predicts. -/
theorem predict_of_answer? {k : Classifier α} {sample : List α} {c : α} {cs : List α}
    (hpredict : k.predict (.ofRow sample) = .ok cs) (h : k.answer? sample = some c) : cs = [c] := by
  cases k with
  | forest f => exact f.predict_of_answer? hpredict h
  | perceptron p => exact p.predict_of_answer? hpredict h
  | naiveBayes b => exact b.predict_of_answer? hpredict h
  | vectorMachine m => exact m.predict_of_answer? hpredict h

end Classifier

end PackageTriage
