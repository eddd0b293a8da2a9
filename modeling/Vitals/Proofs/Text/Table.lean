/-
  The drawing of a table, line by line.

  * `OneLine`: a text without a line break. `cellLines_of_oneLine`: as a cell it is one line.
  * `getElem?_lines`: in a table of such cells each row is one line of the drawing, and the lines of
    two rows stand two apart.
-/
import Mathlib.Data.String.Basic
import Vitals.Text.Table

namespace Vitals.Text

/-! ## Texts of one line -/

/-- A text without a line break. -/
def OneLine (s : String) : Prop := '\n' ∉ s.toList

instance (s : String) : Decidable (OneLine s) := inferInstanceAs (Decidable (¬ _))

theorem newline_notMem_toDigits (n : Nat) : '\n' ∉ Nat.toDigits 10 n :=
  fun h => absurd (Nat.isDigit_of_mem_toDigits (by decide) (by decide) h) (by decide)

namespace OneLine

variable {s t : String}

theorem append (hs : OneLine s) (ht : OneLine t) : OneLine (s ++ t) := by
  unfold OneLine
  rw [String.toList_append, List.mem_append]
  exact fun h => h.elim hs ht

theorem ofList {cs : List Char} (h : '\n' ∉ cs) : OneLine (String.ofList cs) := by
  unfold OneLine
  rwa [String.toList_ofList]

theorem ofNat (n : Nat) : OneLine (toString n) := ofList (newline_notMem_toDigits n)

end OneLine

open String in
theorem splitOnAux_of_notMem (before after : List Char) (h : '\n' ∉ after) :
    splitOnAux (ofList (before ++ after)) "\n" 0 ⟨utf8Len before⟩ 0 [] =
      [ofList (before ++ after)] := by
  induction after generalizing before with
  | nil =>
    have hwhole := extract_of_valid [] before []
    rw [List.nil_append, utf8Len_nil, Nat.zero_add] at hwhole
    rw [splitOnAux, if_pos ((atEnd_of_valid before []).2 rfl), List.append_nil] at *
    exact congrArg ([·]) hwhole
  | cons c after ih =>
    rw [List.mem_cons, not_or] at h
    have hend : ¬ Pos.Raw.atEnd (ofList (before ++ c :: after)) ⟨utf8Len before⟩ :=
      fun hend => by cases (atEnd_of_valid before (c :: after)).1 hend
    have hc : ((c :: after).headD default == Pos.Raw.get "\n" 0) = false :=
      beq_eq_false_iff_ne.2 (Ne.symm h.1)
    have hnext : Pos.Raw.next (ofList (before ++ c :: after))
        (Pos.Raw.unoffsetBy ⟨utf8Len before⟩ 0) = ⟨utf8Len (before ++ [c])⟩ := by
      rw [utf8Len_append, utf8Len_cons, utf8Len_nil, Nat.zero_add]
      exact next_of_valid before c after
    have hrest := ih (before ++ [c]) h.2
    rw [List.append_assoc, List.singleton_append] at hrest
    rw [splitOnAux, if_neg hend, get_of_valid before (c :: after), hc, if_neg Bool.false_ne_true,
      hnext, hrest]

namespace Table

theorem cellLines_of_oneLine {cell : String} (h : OneLine cell) : cellLines cell = [cell] := by
  have hsplit := splitOnAux_of_notMem [] cell.toList h
  rw [List.nil_append, String.ofList_toList] at hsplit
  exact hsplit

variable {widths : List Nat} {row : List String} {rows : List (List String)} {t : Table}

theorem foldl_max_ones (cells : List String) : (cells.map fun _ => 1).foldl max 1 = 1 := by
  induction cells with
  | nil => rfl
  | cons cell cells ih => exact ih

/-- Cells of one line make a row of one line. -/
theorem drawRow_of_oneLine (h : ∀ cell ∈ row, OneLine cell) (hne : row ≠ []) :
    drawRow widths row = [drawLine widths row] := by
  have hcells : row.map cellLines = row.map fun cell => [cell] :=
    List.map_congr_left fun cell hcell => cellLines_of_oneLine (h cell hcell)
  have hheight : ((row.map fun cell => [cell]).map List.length).foldl max 0 = 1 := by
    obtain ⟨cell, cells, rfl⟩ := List.exists_cons_of_ne_nil hne
    rw [List.map_map]
    exact foldl_max_ones cells
  have htexts : (row.map fun cell => [cell]).map (fun lines => lines.getD 0 "") = row := by
    rw [List.map_map]
    exact List.map_id row
  unfold drawRow
  dsimp only
  rw [hcells, hheight]
  exact congrArg (fun cells => [drawLine widths cells]) htexts

/-- What is put between the members of a list moves each to twice its place. -/
theorem getElem?_intercalate {α β : Type} (between : β) (f : α → β) (xs : List α) (i : Nat) :
    ([between].intercalate (xs.map fun x => [f x]))[2 * i]? = xs[i]?.map f := by
  induction xs generalizing i with
  | nil => rfl
  | cons x xs ih =>
    cases xs with
    | nil => cases i <;> rfl
    | cons y ys =>
      cases i with
      | zero => rfl
      | succ i => exact ih i

theorem drawRows_of_oneLine (h : ∀ row ∈ rows, row ≠ [] ∧ ∀ cell ∈ row, OneLine cell) :
    drawRows widths rows =
      [between.draw widths].intercalate (rows.map fun row => [drawLine widths row]) := by
  unfold drawRows
  rw [List.map_congr_left fun row hrow => drawRow_of_oneLine (h row hrow).2 (h row hrow).1]

/-- **In a table of cells of one line each row is one line.** -/
theorem getElem?_lines (hheader : t.header ≠ [] ∧ ∀ cell ∈ t.header, OneLine cell)
    (hrows : ∀ row ∈ t.rows, row ≠ [] ∧ ∀ cell ∈ row, OneLine cell) {i : Nat}
    (hrow : t.rows[i]? = some row) : t.lines[2 * i + 3]? = some (drawLine t.columnWidths row) := by
  have hbody : (drawRows t.columnWidths t.rows)[2 * i]? = some (drawLine t.columnWidths row) := by
    rw [drawRows_of_oneLine hrows, getElem?_intercalate, hrow]
    rfl
  have hlt := (List.getElem?_eq_some_iff.1 hbody).1
  have hsome : t.rows.isEmpty = false := by
    refine eq_false_of_ne_true fun hempty => ?_
    rw [List.isEmpty_iff.1 hempty] at hrow
    cases hrow
  unfold lines
  dsimp only
  rw [hsome, if_neg Bool.false_ne_true, drawRow_of_oneLine hheader.2 hheader.1,
    List.getElem?_append_left (by simp only [List.length_append, List.length_cons]; omega)]
  exact hbody

end Table

end Vitals.Text
