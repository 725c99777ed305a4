import PackageTriage.Error
import PackageTriage.Scalar

/-!
# Matrices

Rows of one width. A matrix without rows has a width too.
-/

namespace PackageTriage

structure Matrix (α : Type) where
  width : Nat
  rows : List (List α)
  rows_width : ∀ r ∈ rows, r.length = width

namespace Matrix

variable {α β : Type}

def height (x : Matrix α) : Nat := x.rows.length

def empty (width : Nat) : Matrix α := ⟨width, [], by simp⟩

instance : Inhabited (Matrix α) := ⟨empty 0⟩

def ofRow (r : List α) : Matrix α := ⟨r.length, [r], by simp⟩

/-- The matrix with these rows, if all of them have the width. -/
def ofRows? (width : Nat) (rows : List (List α)) : Option (Matrix α) :=
  if h : ∀ r ∈ rows, r.length = width then some ⟨width, rows, h⟩ else none

def replicate (height width : Nat) (a : α) : Matrix α where
  width := width
  rows := List.replicate height (List.replicate width a)
  rows_width := by
    intro r hr
    rw [List.eq_of_mem_replicate hr]
    simp

def map (f : α → β) (x : Matrix α) : Matrix β where
  width := x.width
  rows := x.rows.map (List.map f)
  rows_width := by
    intro r hr
    obtain ⟨s, hs, rfl⟩ := List.mem_map.1 hr
    rw [List.length_map, x.rows_width s hs]

/-- Apply a function that keeps lengths to every row. -/
def mapRows (f : List α → List β) (h : ∀ r, (f r).length = r.length) (x : Matrix α) : Matrix β where
  width := x.width
  rows := x.rows.map f
  rows_width := by
    intro r hr
    obtain ⟨s, hs, rfl⟩ := List.mem_map.1 hr
    rw [h, x.rows_width s hs]

/-- Combine two matrices entry by entry; both have the same shape. -/
def zip (f : α → α → α) (x y : Matrix α) : Matrix α where
  width := min x.width y.width
  rows := List.zipWith (List.zipWith f) x.rows y.rows
  rows_width := by
    intro r hr
    rw [← List.map_uncurry_zip_eq_zipWith] at hr
    obtain ⟨⟨a, b⟩, hab, rfl⟩ := List.mem_map.1 hr
    show (List.zipWith f a b).length = min x.width y.width
    rw [List.length_zipWith, x.rows_width a (List.of_mem_zip hab).1,
      y.rows_width b (List.of_mem_zip hab).2]

def select (x : Matrix α) (indices : List Nat) : Matrix α where
  width := x.width
  rows := indices.filterMap (x.rows[·]?)
  rows_width := by
    intro r hr
    obtain ⟨i, -, hi⟩ := List.mem_filterMap.1 hr
    exact x.rows_width r (List.mem_of_getElem? hi)

def column (x : Matrix α) (j : Nat) : List α := x.rows.filterMap (·[j]?)

def columns (x : Matrix α) : List (List α) := (List.range x.width).map x.column

def entries (x : Matrix α) : List α := x.rows.flatten

section Linear

variable [Scalar α]

/-- The sum of rows, each times its coefficient, added to `start` from the first one on. -/
def combineFrom (start : List α) : (coefficients : List α) → (rows : List (List α)) → List α
  | c :: cs, r :: rs => combineFrom (List.zipWith (fun s v => s + c * v) start r) cs rs
  | _, _ => start

theorem length_combineFrom (start : List α) (cs : List α) (rows : List (List α))
    (h : ∀ r ∈ rows, r.length = start.length) :
    (combineFrom start cs rows).length = start.length := by
  induction cs generalizing start rows with
  | nil => simp [combineFrom]
  | cons c cs ih =>
    cases rows with
    | nil => simp [combineFrom]
    | cons r rs =>
      have hr : (List.zipWith (fun s v => s + c * v) start r).length = start.length := by
        rw [List.length_zipWith, h r (by simp), Nat.min_self]
      rw [combineFrom, ih, hr]
      intro t ht
      rw [hr]
      exact h t (by simp [ht])

def combine (x : Matrix α) (coefficients : List α) : List α :=
  combineFrom (List.replicate x.width 0) coefficients x.rows

theorem length_combine (x : Matrix α) (cs : List α) : (x.combine cs).length = x.width := by
  rw [combine, length_combineFrom, List.length_replicate]
  intro r hr
  rw [x.rows_width r hr, List.length_replicate]

/-- The matrix with one combination of rows for every list of coefficients. -/
def combinations (x : Matrix α) (coefficients : List (List α)) : Matrix α where
  width := x.width
  rows := coefficients.map x.combine
  rows_width := by
    intro r hr
    obtain ⟨cs, -, rfl⟩ := List.mem_map.1 hr
    exact x.length_combine cs

def mul (x w : Matrix α) : Matrix α := w.combinations x.rows

/-- The product of `x` with its columns as rows, and `d`. -/
def transposeMul (x d : Matrix α) : Matrix α := d.combinations x.columns

/-- The product of `d` and `w` with its columns as rows. -/
def mulTranspose (d w : Matrix α) : Matrix α where
  width := w.height
  rows := d.rows.map fun r => w.rows.map (Scalar.dot r)
  rows_width := by
    intro r hr
    obtain ⟨s, -, rfl⟩ := List.mem_map.1 hr
    simp [height]

def columnSums (x : Matrix α) : List α :=
  x.rows.foldl (List.zipWith (· + ·)) (List.replicate x.width 0)

end Linear

end Matrix

end PackageTriage
