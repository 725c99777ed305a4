import PackageTriage.Bytes.Layout
import PackageTriage.Matrix

/-!
# Layout of matrices and vectors

A matrix is laid out as a format number, its height, its width, and its entries row by row; a vector
has its length in the place of height and width. The list of entries has a length of its own, which
must agree.
-/

namespace PackageTriage

namespace Matrix

variable {α : Type}

def cut (width : Nat) : (height : Nat) → List α → List (List α)
  | 0, _ => []
  | height + 1, as => as.take width :: cut width height (as.drop width)

theorem length_of_mem_cut {width height : Nat} {as : List α} (h : as.length = height * width) :
    ∀ r ∈ cut width height as, r.length = width := by
  induction height generalizing as with
  | zero => simp [cut]
  | succ n ih =>
    rw [Nat.add_mul, Nat.one_mul] at h
    intro r hr
    rcases List.mem_cons.1 hr with rfl | hr
    · rw [List.length_take, h]
      omega
    · exact ih (by rw [List.length_drop, h]; omega) r hr

/-- The matrix of a shape with these entries, if there are as many as the shape asks for. -/
def ofEntries? (height width : Nat) (as : List α) : Option (Matrix α) :=
  if h : as.length = height * width then some ⟨width, cut width height as, length_of_mem_cut h⟩
  else none

end Matrix

namespace Layout

/-- Matrices and vectors have a format number. -/
def arrayFormat : UInt8 := 1

/-- Shapes that count more than the memory can hold are refused, empty sides not counted. Rows without
entries take no bytes, so of them no more than a million are believed. -/
def isShape (height width : Nat) : Bool :=
  max height 1 * max width 1 < Nat.pow 2 63 && (0 < width || height ≤ 1000000)

instance {α : Type} [Layout α] : Layout (Matrix α) where
  write x := arrayFormat :: write (x.height, x.width, x.entries)
  read
    | [] => none
    | b :: bs => do
      guard (b = arrayFormat)
      let ((height, width, entries), bs) ← (read bs : Option ((Nat × Nat × List α) × List UInt8))
      guard (isShape height width)
      let x ← Matrix.ofEntries? height width entries
      return (x, bs)

structure AsVector (α : Type) where
  entries : List α

instance {α : Type} [Layout α] : Layout (AsVector α) where
  write v := arrayFormat :: write (v.entries.length, v.entries)
  read
    | [] => none
    | b :: bs => do
      guard (b = arrayFormat)
      let ((length, entries), bs) ← (read bs : Option ((Nat × List α) × List UInt8))
      guard (entries.length = length)
      return (⟨entries⟩, bs)

end Layout

end PackageTriage
