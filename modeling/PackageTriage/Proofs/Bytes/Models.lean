import PackageTriage.Artifact.Basic
import PackageTriage.Proofs.Bytes.Lawful
import PackageTriage.Proofs.Classifier.Fitting

/-!
# Models and scalers are read back

A stored model is read back whole, but for the settings of a support vector machine, which are not
stored.
-/

namespace PackageTriage

open Layout LawfulLayout

variable {α : Type}

section

variable [Scalar α]

def VectorMachine.restored (m : VectorMachine α) : VectorMachine α := { m with settings := default }

namespace Classifier

def restored : Classifier α → Classifier α
  | vectorMachine m => vectorMachine m.restored
  | k => k

/-- Only a vector machine comes back changed: its settings are not stored. -/
theorem restored_of_ne {k : Classifier α} (h : ∀ m, k ≠ vectorMachine m) : k.restored = k := by
  cases k with
  | vectorMachine m => exact absurd rfl (h m)
  | _ => rfl

@[simp] theorem family_restored (k : Classifier α) : k.restored.family = k.family := by
  cases k <;> rfl

/-- The settings of a machine are not asked for when it predicts. -/
@[simp] theorem predict_restored (k : Classifier α) : k.restored.predict = k.predict := by
  cases k <;> rfl

@[simp] theorem predictOne_restored (k : Classifier α) : k.restored.predictOne = k.predictOne := by
  funext sample
  rw [predictOne, predictOne, predict_restored]

end Classifier

def Artifact.restored (a : Artifact α) : Artifact α := { a with classifier := a.classifier.restored }

namespace Layout

variable [Layout α]

theorem readModel_randomForest (bs : List UInt8) : (readModel 0 bs : Option (Classifier α × _)) =
    (read bs).map fun (f, bs) => (.forest f, bs) := rfl

theorem readModel_perceptron (bs : List UInt8) : (readModel 1 bs : Option (Classifier α × _)) =
    (read bs).map fun (p, bs) => (.perceptron p, bs) := rfl

theorem readModel_naiveBayes (bs : List UInt8) : (readModel 2 bs : Option (Classifier α × _)) =
    (read bs).map fun (b, bs) => (.naiveBayes b, bs) := rfl

theorem readModel_vectorMachine (bs : List UInt8) : (readModel 3 bs : Option (Classifier α × _)) =
    (read bs).map fun (m, bs) => (.vectorMachine m, bs) := rfl

end Layout

end

instance : LawfulLayout Family := ofChoice (fun a => by cases a <;> decide) (by decide)

instance : LawfulLayout Method := ofChoice (fun a => by cases a <;> decide) (by decide)

instance : LawfulLayout Activation := ofChoice (fun a => by cases a <;> decide) (by decide)

instance : LawfulLayout Solver := ofChoice (fun a => by cases a <;> decide) (by decide)

variable [Layout α] [LawfulLayout α]

instance : LawfulLayout (Scaler α) where
  Fits s := Fits (s.center, s.scale)
  read_write s h rest := by
    cases s with
    | standard mean scale =>
      show ((readTag (writeTag 0 ++ write (mean, scale) ++ rest)).bind fun q =>
        (read q.2 : Option ((List α × List α) × List UInt8)).bind fun r => _) = _
      rw [List.append_assoc, readTag_writeTag (by decide), Option.bind_some, read_write (mean, scale) h]
      rfl
    | minMax low scale =>
      show ((readTag (writeTag 1 ++ write (low, scale) ++ rest)).bind fun q =>
        (read q.2 : Option ((List α × List α) × List UInt8)).bind fun r => _) = _
      rw [List.append_assoc, readTag_writeTag (by decide), Option.bind_some, read_write (low, scale) h]
      rfl

namespace Layout

/-- All numbers in the nodes of a tree fit their words. -/
def NodeFits : Node α → Prop
  | .leaf value n => Fits (value, n)
  | .split feature threshold left right n =>
    Fits (feature, threshold) ∧ NodeFits left ∧ NodeFits right ∧ Fits n

instance decidableNodeFits : (node : Node α) → Decidable (NodeFits node)
  | .leaf value n => inferInstanceAs (Decidable (Fits (value, n)))
  | .split _ _ left right _ =>
    have := decidableNodeFits left
    have := decidableNodeFits right
    inferInstanceAs (Decidable (_ ∧ _ ∧ _ ∧ _))

/-- Every level of a tree takes bytes. -/
theorem depth_lt_length {β : Type} [Layout β] (node : Node β) : node.depth < (writeNode node).length := by
  induction node with
  | leaf value n => simp [Node.depth, writeNode, writeTag, writeWord]
  | split feature threshold left right n ihl ihr =>
    simp only [Node.depth, writeNode, writeTag, writeWord, List.length_append, List.length_cons]
    omega

/-- A tree is read back once the fuel exceeds its depth. -/
theorem readNode_writeNode {node : Node α} (h : NodeFits node) {fuel : Nat} (hfuel : node.depth < fuel)
    (rest : List UInt8) : readNode fuel (writeNode node ++ rest) = some (node, rest) := by
  induction node generalizing fuel rest with
  | leaf value n =>
    obtain ⟨fuel, rfl⟩ := Nat.exists_eq_add_one_of_ne_zero (Nat.ne_of_gt (Nat.zero_lt_of_lt hfuel))
    rw [writeNode, List.append_assoc, readNode, readTag_writeTag (by decide)]
    simp [read_write _ h]
  | split feature threshold left right n ihl ihr =>
    obtain ⟨fuel, rfl⟩ := Nat.exists_eq_add_one_of_ne_zero (Nat.ne_of_gt (Nat.zero_lt_of_lt hfuel))
    obtain ⟨hhead, hleft, hright, hn⟩ := h
    have hdepth : left.depth < fuel ∧ right.depth < fuel := by
      rw [Node.depth] at hfuel
      omega
    simp only [writeNode, List.append_assoc]
    rw [readNode, readTag_writeTag (by decide)]
    simp [read_write _ hhead, ihl hleft hdepth.1, ihr hright hdepth.2, read_write n hn]

end Layout

instance : LawfulLayout (Node α) where
  Fits := NodeFits
  read_write node h rest := by
    have hdepth := depth_lt_length node
    apply readNode_writeNode h
    show _ < (writeNode node ++ rest).length + 1
    rw [List.length_append]
    omega

instance : LawfulLayout (DecisionTree α) where
  Fits t := Fits (t.root, t.maxDepth, t.minSplit, t.minLeaf, t.maxFeatures, t.seed, t.width, t.classes)
  read_write _ h rest := congrArg (Option.map _) (read_write _ h rest)

instance : LawfulLayout (Forest α) where
  Fits f :=
    Fits (f.trees, f.size, f.maxDepth, f.minSplit, f.minLeaf, f.bootstrap, f.seed, f.width, f.classes)
  read_write _ h rest := congrArg (Option.map _) (read_write _ h rest)

instance : LawfulLayout (NaiveBayes α) where
  Fits b := Fits (b.means, b.variances, b.priors, b.classes, b.smoothing, b.epsilon)
  read_write _ h rest := congrArg (Option.map _) (read_write _ h rest)

instance : LawfulLayout (Training α) where
  Fits t := Fits (t.hidden, t.activation, t.solver, t.rate, t.limit, t.batch, t.alpha, t.seed, t.momentum,
    t.tolerance, t.patience, t.beta1, t.beta2, t.epsilon)
  read_write _ h rest := congrArg (Option.map _) (read_write _ h rest)

instance : LawfulLayout (Perceptron α) where
  Fits p :=
    Fits (p.training, p.weights, p.biases.map AsVector.mk, p.width, p.classes, p.iterations, p.loss)
  read_write p h rest := by
    have hbiases : (p.biases.map AsVector.mk).map AsVector.entries = p.biases := by
      simp [List.map_map, Function.comp_def]
    refine (congrArg (Option.map _) (read_write _ h rest)).trans ?_
    simp only [Option.map_some, hbiases]

variable [Scalar α]

def VectorMachine.stored (m : VectorMachine α) : α × Matrix α × AsVector α × α × List α :=
  (m.gamma, m.support, .mk m.coefficients, m.bias, m.classes)

/-- A machine comes back without its settings, which the layout leaves out. -/
theorem VectorMachine.read_write {m : VectorMachine α} (h : Fits m.stored) (rest : List UInt8) :
    read (write m ++ rest) = some (m.restored, rest) := by
  show (read (write m.stored ++ rest)).map _ = _
  rw [LawfulLayout.read_write _ h, Option.map_some]
  rfl

/-- All lengths and numbers in a model fit their words. -/
def Classifier.Fits : Classifier α → Prop
  | forest f => LawfulLayout.Fits f
  | perceptron p => LawfulLayout.Fits p
  | naiveBayes b => LawfulLayout.Fits b
  | vectorMachine m => LawfulLayout.Fits m.stored

instance : (k : Classifier α) → Decidable k.Fits
  | .forest f => inferInstanceAs (Decidable (LawfulLayout.Fits f))
  | .perceptron p => inferInstanceAs (Decidable (LawfulLayout.Fits p))
  | .naiveBayes b => inferInstanceAs (Decidable (LawfulLayout.Fits b))
  | .vectorMachine m => inferInstanceAs (Decidable (LawfulLayout.Fits m.stored))

/-- The number of the family tells which model is behind it. -/
theorem Classifier.read_write {k : Classifier α} (h : k.Fits) (rest : List UInt8) :
    read (write k ++ rest) = some (k.restored, rest) := by
  have hplace : ∀ place bytes, place < 2 ^ 32 →
      ((readTag (writeTag place ++ bytes ++ rest)).bind fun q => readModel q.1 q.2) =
        (readModel place (bytes ++ rest) : Option (Classifier α × List UInt8)) := by
    intro place bytes hlt
    rw [List.append_assoc, readTag_writeTag hlt, Option.bind_some]
  cases k with
  | forest f =>
    refine (hplace 0 (write f) (by decide)).trans ?_
    rw [readModel_randomForest, LawfulLayout.read_write f h, Option.map_some]
    rfl
  | perceptron p =>
    refine (hplace 1 (write p) (by decide)).trans ?_
    rw [readModel_perceptron, LawfulLayout.read_write p h, Option.map_some]
    rfl
  | naiveBayes b =>
    refine (hplace 2 (write b) (by decide)).trans ?_
    rw [readModel_naiveBayes, LawfulLayout.read_write b h, Option.map_some]
    rfl
  | vectorMachine m =>
    refine (hplace 3 (write m) (by decide)).trans ?_
    rw [readModel_vectorMachine, VectorMachine.read_write h, Option.map_some]
    rfl

def Artifact.Fits (a : Artifact α) : Prop := LawfulLayout.Fits a.hyperparameter ∧ a.classifier.Fits

instance (a : Artifact α) : Decidable a.Fits :=
  inferInstanceAs (Decidable (LawfulLayout.Fits a.hyperparameter ∧ a.classifier.Fits))

/-- An artifact comes back as what `restored` makes of it, and nothing behind it is touched. -/
theorem Artifact.read_write {a : Artifact α} (h : a.Fits) (rest : List UInt8) :
    read (write a ++ rest) = some (a.restored, rest) := by
  show ((read (write a.family ++ (write a.method ++ (write a.hyperparameter ++ write a.classifier)) ++
    rest) : Option ((Family × Method × String × Classifier α) × List UInt8))).map _ = _
  have hparts : (read (write a.family ++ (write a.method ++ (write a.hyperparameter ++
      write a.classifier)) ++ rest) : Option ((Family × Method × String × Classifier α) × List UInt8)) =
      some ((a.family, a.method, a.hyperparameter, a.classifier.restored), rest) := by
    rw [read_pair, List.append_assoc, LawfulLayout.read_write a.family trivial, Option.bind_some,
      read_pair, List.append_assoc, LawfulLayout.read_write a.method trivial, Option.bind_some,
      read_pair, List.append_assoc, LawfulLayout.read_write a.hyperparameter h.1, Option.bind_some,
      Classifier.read_write h.2]
    rfl
  rw [hparts]
  rfl

/-- An artifact that fits is read back from its slot. -/
theorem Artifact.decode_write {a : Artifact α} (h : a.Fits) : decode? (write a) = some a.restored := by
  have hread := a.read_write h []
  rw [List.append_nil] at hread
  rw [decode?, hread, Option.map_some]

end PackageTriage
