import PackageTriage.Feature.Value
import PackageTriage.Label
import PackageTriage.Matrix

/-!
# Datasets

The samples of a training run in order, and the matrix of their numbers with their class codes.
-/

namespace PackageTriage

/-- One package: the name of its feature file, the values in it, and its label. -/
structure Sample where
  name : String
  values : List FeatureValue
  label : Label
  deriving DecidableEq, Repr

namespace Sample

/-- The numbers of a sample that has to have `width` features. -/
def numbers (width : Nat) (s : Sample) : Except Error (List Float) :=
  if s.values.length = width then FeatureValue.numbers s.name s.values
  else .error (.shape (.sample width s.values.length s.name))

theorem length_numbersFrom {sample : String} {vs : List FeatureValue} {column : Nat} {xs : List Float}
    (h : FeatureValue.numbersFrom sample column vs = .ok xs) : xs.length = vs.length := by
  induction vs generalizing column xs with
  | nil => simp_all [FeatureValue.numbersFrom]
  | cons v vs ih =>
    simp only [FeatureValue.numbersFrom] at h
    split at h
    · simp at h
    · cases hr : FeatureValue.numbersFrom sample (column + 1) vs with
      | error e => simp [hr, Except.map] at h
      | ok ys =>
        simp only [hr, Except.map, Except.ok.injEq] at h
        rw [← h, List.length_cons, List.length_cons, ih hr]

end Sample

namespace Dataset

def count (samples : List Sample) (l : Label) : Nat := (samples.filter (·.label = l)).length

/-- The numbers of every sample, in order. The first sample that is too wide, too narrow or not
numeric is the fault. -/
def rows (width : Nat) : List Sample → Except Error { rs : List (List Float) // ∀ r ∈ rs, r.length = width }
  | [] => .ok ⟨[], by simp⟩
  | s :: ss =>
    match h : s.numbers width with
    | .error e => .error e
    | .ok r =>
      match rows width ss with
      | .error e => .error e
      | .ok ⟨rs, hrs⟩ => .ok ⟨r :: rs, by
          intro t ht
          rcases List.mem_cons.1 ht with rfl | ht
          · unfold Sample.numbers at h
            split at h
            · next hw => rw [Sample.length_numbersFrom h, hw]
            · simp at h
          · exact hrs t ht⟩

/-- The matrix of the samples' numbers and the vector of their class codes; the first sample sets
the width. -/
def toMatrix (samples : List Sample) : Except Error (Matrix Float × List Float) :=
  match samples with
  | [] => .error (.data .noSamples)
  | first :: _ =>
    let width := first.values.length
    match rows width samples with
    | .error e => .error e
    | .ok ⟨rs, h⟩ => .ok (⟨width, rs, h⟩, samples.map fun s => s.label.toClass)

end Dataset

end PackageTriage
