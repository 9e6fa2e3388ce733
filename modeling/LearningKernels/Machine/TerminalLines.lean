import Mathlib.Tactic.Push
import LearningKernels.Machine.Terminal

/-!
# Lines on a terminal

A line typed from the start of a row, and ended by a new line, stands in the row above the
cursor, and the lines typed before it stand above it, whether the screen scrolls or not
(`Machine.Terminal.Above.typed`). A new line clears nothing, so a row only starts with its
line.
-/

namespace Machine

namespace Terminal

variable {rows cols : Nat} {α : Type}

/-- Write the cells of a line, one after the other. -/
def type (blank : α) (line : List α) (terminal : Terminal rows cols α) : Terminal rows cols α :=
  line.foldl (fun terminal cell => terminal.put blank cell) terminal

/-- The cell with a number, when there is one. -/
def cellAt (terminal : Terminal rows cols α) (index : Nat) : Option α :=
  if inside : index < rows * cols then some (terminal.cells ⟨index, inside⟩) else none

/-- A row starts with the cells of a line. -/
def RowStarts (terminal : Terminal rows cols α) (row : Nat) (text : List α) : Prop :=
  ∀ column cell, text[column]? = some cell → terminal.cellAt (row * cols + column) = some cell

/-- The cursor is at the start of a row, and the lines, the last one first, are above it. -/
structure Above (terminal : Terminal rows cols α) (row : Nat) (lines : List (List α)) :
    Prop where
  cursor : terminal.cursor.val = row * cols
  narrow : ∀ line ∈ lines, line.length < cols
  starts : ∀ {index : Nat} {line : List α}, lines[index]? = some line →
    ∃ place, place + index + 1 = row ∧ terminal.RowStarts place line

variable {terminal : Terminal rows cols α} {blank : α} {row column index : Nat} {line : List α}
  {lines : List (List α)}

theorem type_cons (cell : α) :
    terminal.type blank (cell :: line) = (terminal.put blank cell).type blank line := rfl

theorem moveTo_of_inside {target : Nat} (inside : target < rows * cols) :
    (terminal.moveTo blank target).cursor.val = target ∧
      (terminal.moveTo blank target).cellAt = terminal.cellAt := by
  rw [moveTo, dif_pos inside]
  exact ⟨rfl, rfl⟩

/-- A cell written in front of the last one of the screen. -/
theorem put_of_inside (inside : terminal.cursor.val + 1 < rows * cols) (cell : α) :
    (terminal.put blank cell).cursor.val = terminal.cursor.val + 1 ∧
      (terminal.put blank cell).cellAt =
        Function.update terminal.cellAt terminal.cursor.val (some cell) := by
  rw [put]
  refine ⟨(moveTo_of_inside inside).1, (moveTo_of_inside inside).2.trans ?_⟩
  funext index
  by_cases here : index = terminal.cursor.val
  · subst here
    rw [Function.update_self, cellAt, dif_pos terminal.cursor.isLt]
    exact congrArg some (Function.update_self _ _ _)
  · rw [Function.update_of_ne here, cellAt, cellAt]
    split
    · next bounded =>
        refine congrArg some (Function.update_of_ne ?_ _ _)
        exact fun same => here (congrArg Fin.val same)
    · rfl

/-- The rows move up by one. -/
theorem cellAt_scroll (inside : index + cols < rows * cols) :
    (terminal.scroll blank).cellAt index = terminal.cellAt (index + cols) := by
  have before : index < rows * cols := by omega
  rw [cellAt, dif_pos before, cellAt, dif_pos inside]
  exact congrArg some (dif_pos inside)

/-- A line that ends in the row it starts in. -/
theorem type_within (cursor : terminal.cursor.val = row * cols + column)
    {text : List α} (short : column + text.length < cols) :
    (terminal.type blank text).cursor.val = row * cols + column + text.length ∧
      (∀ index, index < row * cols + column →
        (terminal.type blank text).cellAt index = terminal.cellAt index) ∧
      ∀ offset cell, text[offset]? = some cell →
        (terminal.type blank text).cellAt (row * cols + column + offset) = some cell := by
  induction text generalizing terminal column with
  | nil => exact ⟨cursor, fun _ _ => rfl, fun offset cell found => by cases found⟩
  | cons first text ih =>
      rw [List.length_cons] at short
      have inside : terminal.cursor.val + 1 < rows * cols := by
        have here : row * cols + column < rows * cols := cursor ▸ terminal.cursor.isLt
        have whole : row < rows := by
          by_contra beyond
          have above := Nat.mul_le_mul_right cols (Nat.le_of_not_lt beyond)
          omega
        have next := Nat.mul_le_mul_right cols (Nat.succ_le_of_lt whole)
        rw [Nat.succ_mul] at next
        omega
      obtain ⟨moved, written⟩ := put_of_inside inside first
      have start : (terminal.put blank first).cursor.val = row * cols + (column + 1) := by
        rw [moved, cursor, Nat.add_assoc]
      obtain ⟨ended, before, typed⟩ := @ih (terminal.put blank first) (column + 1) start (by omega)
      rw [type_cons, List.length_cons]
      refine ⟨by rw [ended]; omega, ?_, ?_⟩
      · intro index earlier
        rw [before index (by omega), written, Function.update_of_ne (by omega)]
      · intro offset cell found
        cases offset with
        | zero =>
            cases found
            rw [before _ (by omega), written, cursor, Nat.add_zero, Function.update_self]
        | succ offset =>
            have place : row * cols + column + (offset + 1) =
                row * cols + (column + 1) + offset := by omega
            rw [place]
            exact typed offset cell found

/-- A new line from within a row. -/
theorem newline_cases (bounded : column < cols)
    (cursor : terminal.cursor.val = row * cols + column) :
    ((terminal.newline blank).cursor.val = (row + 1) * cols ∧
        (terminal.newline blank).cellAt = terminal.cellAt) ∨
      (row + 1 = rows ∧ terminal.newline blank = terminal.scroll blank) := by
  have quotient : terminal.cursor.val / cols * cols + cols = (row + 1) * cols := by
    rw [cursor, Nat.mul_comm row, Nat.mul_add_div (by omega), Nat.div_eq_of_lt bounded,
      Nat.add_zero, Nat.succ_mul]
  rw [newline, quotient]
  by_cases inside : (row + 1) * cols < rows * cols
  · exact .inl (moveTo_of_inside inside)
  · refine .inr ⟨?_, by rw [moveTo, dif_neg inside]⟩
    have here : row * cols + column < rows * cols := cursor ▸ terminal.cursor.isLt
    have lower : row < rows := by
      by_contra beyond
      have above := Nat.mul_le_mul_right cols (Nat.le_of_not_lt beyond)
      omega
    have upper := Nat.le_of_mul_le_mul_right (Nat.le_of_not_lt inside)
      (show 0 < cols by omega)
    omega

/-- From anywhere, a new line leads to the start of a row. -/
theorem newline_above (terminal : Terminal rows cols α) (blank : α) :
    ∃ row, (terminal.newline blank).Above row [] := by
  have wide : 0 < cols := Nat.pos_of_mul_pos_left (Nat.zero_lt_of_lt terminal.cursor.isLt)
  have cursor : terminal.cursor.val =
      terminal.cursor.val / cols * cols + terminal.cursor.val % cols :=
    (Nat.div_add_mod' _ _).symm
  obtain ⟨moved, -⟩ | ⟨last, scrolled⟩ := newline_cases (Nat.mod_lt _ wide) cursor
  · exact ⟨_, moved, fun _ member => absurd member List.not_mem_nil, fun found => by cases found⟩
  · refine ⟨rows - 1, ?_, fun _ member => absurd member List.not_mem_nil,
      fun found => by cases found⟩
    rw [scrolled]
    rfl

/-- A row above the cursor is not touched by the line. -/
theorem RowStarts.type_below {place : Nat} {shown : List α}
    (starts : terminal.RowStarts place shown) (narrow : shown.length < cols) (below : place < row)
    (same : ∀ index, index < row * cols →
      (terminal.type blank line).cellAt index = terminal.cellAt index) :
    (terminal.type blank line).RowStarts place shown := by
  intro column cell found
  have bounded : column < cols :=
    Nat.lt_trans (List.getElem?_eq_some_iff.mp found).1 narrow
  have next := Nat.mul_le_mul_right cols (Nat.succ_le_of_lt below)
  rw [Nat.succ_mul] at next
  rw [same _ (by omega)]
  exact starts column cell found

/-- A row and the one it becomes when the screen scrolls. -/
theorem RowStarts.scroll {place : Nat} (starts : terminal.RowStarts (place + 1) line) :
    (terminal.scroll blank).RowStarts place line := by
  intro column cell found
  have moved : place * cols + column + cols = (place + 1) * cols + column := by
    rw [Nat.succ_mul]
    omega
  have shown := starts column cell found
  have inside : (place + 1) * cols + column < rows * cols := by
    by_contra beyond
    rw [cellAt, dif_neg beyond] at shown
    cases shown
  rw [cellAt_scroll (by omega), moved, shown]

/-- **A line and the ones before it.** -/
theorem Above.typed (above : terminal.Above row lines) (short : line.length < cols)
    (room : lines.length + 2 ≤ rows) :
    ∃ row, ((terminal.type blank line).newline blank).Above row (line :: lines) := by
  have start : terminal.cursor.val = row * cols + 0 := above.cursor
  obtain ⟨ended, before, typed⟩ := @type_within _ _ _ terminal blank row 0 start line (by omega)
  rw [Nat.add_zero] at ended before
  have narrow : ∀ shown ∈ line :: lines, shown.length < cols :=
    List.forall_mem_cons.mpr ⟨short, above.narrow⟩
  -- where the lines stand before the cursor goes to the next row
  have placed {index : Nat} {shown : List α} (found : (line :: lines)[index]? = some shown) :
      ∃ place, place + index = row ∧ (terminal.type blank line).RowStarts place shown := by
    cases index with
    | zero =>
        cases found
        exact ⟨row, rfl, typed⟩
    | succ index =>
        obtain ⟨place, below, starts⟩ := above.starts found
        refine ⟨place, by omega, starts.type_below ?_ (by omega) before⟩
        exact above.narrow shown (List.mem_of_getElem? found)
  obtain ⟨moved, same⟩ | ⟨last, scrolled⟩ := newline_cases short ended
  · refine ⟨row + 1, moved, narrow, ?_⟩
    intro index shown found
    obtain ⟨place, below, starts⟩ := placed found
    refine ⟨place, by omega, ?_⟩
    intro column cell entry
    rw [same]
    exact starts column cell entry
  · rw [scrolled]
    have cursor : row * cols = (rows - 1) * cols := by rw [← last, Nat.add_sub_cancel]
    refine ⟨row, cursor.symm, narrow, ?_⟩
    intro index shown found
    obtain ⟨place, below, starts⟩ := placed found
    have many : index < lines.length + 1 := (List.getElem?_eq_some_iff.mp found).1
    obtain ⟨higher, rfl⟩ : ∃ higher, place = higher + 1 := ⟨place - 1, by omega⟩
    exact ⟨higher, by omega, starts.scroll⟩

end Terminal

end Machine
