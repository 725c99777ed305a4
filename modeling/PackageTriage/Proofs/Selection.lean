import PackageTriage.Matrix
import PackageTriage.Proofs.Sequences
import Mathlib.Data.List.Basic

/-!
# Selected rows

Places within a matrix select as many rows as there are places, one that occurs twice twice. A column has an entry of
every row.
-/

namespace PackageTriage

variable {β : Type}

theorem filterMap_getElem?_eq_map {xs : List β} {places : List Nat} (h : ∀ i ∈ places, i < xs.length)
    (default : β) : places.filterMap (xs[·]?) = places.map fun i => xs.getD i default := by
  rw [← List.filterMap_eq_map]
  refine List.filterMap_congr fun i hi => ?_
  simp [h i hi]

theorem mapM_getElem? {xs : List β} {places : List Nat} (h : ∀ i ∈ places, i < xs.length) (default : β) :
    places.mapM (xs[·]?) = some (places.map fun i => xs.getD i default) :=
  mapM_eq_some_map fun i hi => by simp [h i hi]

/-- All places in their order select everything. -/
theorem map_getD_range (xs : List β) (default : β) : ((List.range xs.length).map fun i => xs.getD i default) = xs := by
  apply List.ext_getElem
  · simp
  · intro i hi hi'
    simp [hi']

namespace Matrix

variable {x : Matrix β} {places : List Nat}

theorem rows_select (h : ∀ i ∈ places, i < x.height) :
    (x.select places).rows = places.map fun i => x.rows.getD i [] :=
  filterMap_getElem?_eq_map h []

theorem height_select (h : ∀ i ∈ places, i < x.height) : (x.select places).height = places.length := by
  rw [height, rows_select h, List.length_map]

/-- All places in any order select all rows in that order. -/
theorem rows_select_perm (h : places.Perm (List.range x.height)) : (x.select places).rows.Perm x.rows := by
  rw [rows_select fun i hi => List.mem_range.1 (h.mem_iff.1 hi)]
  have hmap := h.map fun i => x.rows.getD i []
  rwa [height, map_getD_range] at hmap

theorem column_eq_map (default : β) {j : Nat} (hj : j < x.width) : x.column j = x.rows.map (·.getD j default) := by
  rw [column, ← List.filterMap_eq_map]
  refine List.filterMap_congr fun row hrow => ?_
  have hlt : j < row.length := (x.rows_width row hrow).symm ▸ hj
  simp [hlt]

end Matrix

end PackageTriage
