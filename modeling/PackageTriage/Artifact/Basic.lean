import PackageTriage.Bytes.Models

/-!
# Artifacts

A fitted classifier with what is needed to feed it: the family and the preprocessing method of its
training run. It also carries the label of its hyperparameters.
-/

namespace PackageTriage

structure Artifact (α : Type) where
  family : Family
  method : Method
  hyperparameter : String
  classifier : Classifier α

instance {α : Type} [Layout α] [Scalar α] : Layout (Artifact α) :=
  .via (fun a => (a.family, a.method, a.hyperparameter, a.classifier))
    fun (family, method, hyperparameter, classifier) => ⟨family, method, hyperparameter, classifier⟩

end PackageTriage
