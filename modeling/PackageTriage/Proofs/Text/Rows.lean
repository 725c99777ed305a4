import PackageTriage.Text.Lines
import Mathlib

/-!
# Rows of a text

Where every carriage return stands directly before a line feed, a text is made of rows: each is ended by a line
feed, alone or behind a carriage return, and the last one perhaps by the end of the text. These rows are the lines
without the carriage returns, and a line is blank exactly if nothing stands in its row.
-/

namespace PackageTriage.Text

variable {line row text : List Char} {rows : List (List Char)}

theorem splitLines_of_not_mem (h : '\n' ∉ line) (hne : line ≠ []) : splitLines line = [line] := by
  induction line with
  | nil => exact absurd rfl hne
  | cons c line ih =>
    have hc : c ≠ '\n' := fun hc => h (hc ▸ List.mem_cons_self)
    rcases eq_or_ne line [] with rfl | hline
    · rw [splitLines_cons, splitLines_nil, consLine, if_neg hc]
    · rw [splitLines_cons, ih (fun hmem => h (List.mem_cons_of_mem c hmem)) hline, consLine, if_neg hc]

/-- A line and the line feed behind it stand before the lines of what follows. -/
theorem splitLines_append (h : '\n' ∉ line) (text : List Char) :
    splitLines (line ++ '\n' :: text) = line :: splitLines text := by
  induction line with
  | nil => rfl
  | cons c line ih =>
    have hc : c ≠ '\n' := fun hc => h (hc ▸ List.mem_cons_self)
    rw [List.cons_append, splitLines_cons, ih fun hmem => h (List.mem_cons_of_mem c hmem), consLine, if_neg hc]

def dropReturn (line : List Char) : List Char := if line.getLast? = some '\r' then line.dropLast else line

/-- The lines of a text, where a carriage return before the line feed belongs to the end of the line. -/
def rowsOf (text : List Char) : List (List Char) := (splitLines text).map dropReturn

structure Unbroken (row : List Char) : Prop where
  no_return : '\r' ∉ row
  no_feed : '\n' ∉ row

inductive MadeOf : (text : List Char) → (rows : List (List Char)) → Prop
  | nil : MadeOf [] []
  | last {row : List Char} (hrow : Unbroken row) (hne : row ≠ []) : MadeOf row [row]
  | feed {row text : List Char} {rows : List (List Char)} (hrow : Unbroken row) (hrest : MadeOf text rows) :
      MadeOf (row ++ '\n' :: text) (row :: rows)
  | returnFeed {row text : List Char} {rows : List (List Char)} (hrow : Unbroken row) (hrest : MadeOf text rows) :
      MadeOf (row ++ '\r' :: '\n' :: text) (row :: rows)

theorem Unbroken.dropReturn_eq (h : Unbroken row) : dropReturn row = row := by
  rw [dropReturn, if_neg]
  intro hlast
  exact h.no_return (List.mem_of_getLast? hlast)

theorem dropReturn_concat (row : List Char) : dropReturn (row ++ ['\r']) = row := by
  rw [dropReturn, if_pos List.getLast?_concat, List.dropLast_concat]

theorem isBlankLine_concat (row : List Char) : isBlankLine (row ++ ['\r']) = isBlankLine row := by
  simp [isBlankLine]

theorem Unbroken.isBlankLine_eq (h : Unbroken row) : isBlankLine row = row.isEmpty := by
  cases row with
  | nil => rfl
  | cons c row =>
    have hc : c ≠ '\r' := fun hc => h.no_return (hc ▸ List.mem_cons_self)
    simp [isBlankLine, hc]

/-- The lines of a text, by the rows it is made of. -/
theorem MadeOf.splitLines_eq (h : MadeOf text rows) :
    rowsOf text = rows ∧ (splitLines text).map isBlankLine = rows.map List.isEmpty := by
  rw [rowsOf]
  induction h with
  | nil => exact ⟨rfl, rfl⟩
  | last hrow hne =>
    rw [splitLines_of_not_mem hrow.no_feed hne]
    simp [hrow.dropReturn_eq, hrow.isBlankLine_eq]
  | feed hrow _ ih =>
    rw [splitLines_append hrow.no_feed, List.map_cons, List.map_cons, List.map_cons, ih.1, ih.2, hrow.dropReturn_eq,
      hrow.isBlankLine_eq]
    exact ⟨rfl, rfl⟩
  | @returnFeed row text rows hrow _ ih =>
    have hfeed : '\n' ∉ row ++ ['\r'] := by simpa using hrow.no_feed
    rw [List.append_cons, splitLines_append hfeed, List.map_cons, List.map_cons, List.map_cons, ih.1, ih.2,
      dropReturn_concat, isBlankLine_concat, hrow.isBlankLine_eq]
    exact ⟨rfl, rfl⟩

def ReturnsBeforeFeeds (text : List Char) : Prop := ∀ i : Nat, text[i]? = some '\r' → text[i + 1]? = some '\n'

instance (text : List Char) : Decidable (ReturnsBeforeFeeds text) :=
  decidable_of_iff (∀ i < text.length, text[i]? = some '\r' → text[i + 1]? = some '\n')
    ⟨fun h i hi => h i (List.getElem?_eq_some_iff.1 hi).1 hi, fun h i _ => h i⟩

theorem ReturnsBeforeFeeds.of_append {front : List Char} (h : ReturnsBeforeFeeds (front ++ text)) :
    ReturnsBeforeFeeds text := by
  intro i hi
  have hthere := h (front.length + i)
  rw [Nat.add_assoc, List.getElem?_append_right (Nat.le_add_right _ _),
    List.getElem?_append_right (Nat.le_add_right _ _),
    Nat.add_sub_cancel_left, Nat.add_sub_cancel_left] at hthere
  exact hthere hi

/-- A text in which carriage returns stand only there is made of its rows. The first row reaches up to the first
character that ends a line. -/
theorem ReturnsBeforeFeeds.madeOf (h : ReturnsBeforeFeeds text) : MadeOf text (rowsOf text) := by
  suffices hrows : ∃ rows, MadeOf text rows by
    obtain ⟨rows, hrows⟩ := hrows
    exact hrows.splitLines_eq.1 ▸ hrows
  induction hn : text.length using Nat.strong_induction_on generalizing text with
  | _ n ih =>
    subst hn
    set ends : Char → Bool := fun c => c == '\r' || c == '\n' with hends
    have hsplit : text = text.takeWhile (!ends ·) ++ text.dropWhile (!ends ·) := List.takeWhile_append_dropWhile.symm
    have hrow : Unbroken (text.takeWhile (!ends ·)) := by
      constructor <;> intro hmem <;> simpa [hends] using List.mem_takeWhile_imp hmem
    cases hrest : text.dropWhile (!ends ·) with
    | nil =>
      rw [hrest, List.append_nil] at hsplit
      rcases eq_or_ne text [] with rfl | hne
      · exact ⟨[], .nil⟩
      · exact ⟨[text], .last (hsplit ▸ hrow) hne⟩
    | cons c rest =>
      have hc : ends c = true := by simpa [hrest] using List.head?_dropWhile_not (!ends ·) text
      rw [hrest] at hsplit
      rw [hsplit] at h ih ⊢
      generalize text.takeWhile (!ends ·) = row at hrow h ih ⊢
      rcases (by simpa [hends] using hc : c = '\r' ∨ c = '\n') with rfl | rfl
      · -- Directly behind the carriage return stands the line feed.
        have hnext : rest[0]? = some '\n' := h.of_append 0 rfl
        obtain ⟨d, rest, rfl⟩ : ∃ d rest', rest = d :: rest' := by
          cases rest with
          | nil => cases hnext
          | cons d rest => exact ⟨d, rest, rfl⟩
        obtain rfl : d = '\n' := by simpa using hnext
        have hbehind : ReturnsBeforeFeeds rest := by
          have hthere := h
          rw [List.append_cons, List.append_cons] at hthere
          exact hthere.of_append
        obtain ⟨rows, hrows⟩ := ih rest.length (by simp; omega) hbehind rfl
        exact ⟨row :: rows, .returnFeed hrow hrows⟩
      · have hbehind : ReturnsBeforeFeeds rest := by
          have hthere := h
          rw [List.append_cons] at hthere
          exact hthere.of_append
        obtain ⟨rows, hrows⟩ := ih rest.length (by simp; omega) hbehind rfl
        exact ⟨row :: rows, .feed hrow hrows⟩

end PackageTriage.Text
