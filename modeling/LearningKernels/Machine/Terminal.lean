import Mathlib.Logic.Function.Basic
import Mathlib.Order.Fin.Basic

/-!
# A terminal of rows and columns

The reference behaviour of a text screen: a cursor moves over the cells row by row, and a
move past the last cell scrolls the screen by one row and goes to the start of the last
one. The cursor is an index of a cell, so it cannot leave the screen.
-/

namespace Machine

/-- A screen of `rows * cols` cells and the cell the cursor stands on. -/
structure Terminal (rows cols : Nat) (α : Type) where
  cells : Fin (rows * cols) → α
  cursor : Fin (rows * cols)

namespace Terminal

variable {rows cols : Nat} {α : Type}

/-- The first cell of the last row. -/
def lastRow (terminal : Terminal rows cols α) : Fin (rows * cols) :=
  ⟨(rows - 1) * cols, by
    have positive := Nat.pos_of_mul_pos_right (Nat.zero_lt_of_lt terminal.cursor.isLt)
    have wide := Nat.pos_of_mul_pos_left (Nat.zero_lt_of_lt terminal.cursor.isLt)
    exact Nat.mul_lt_mul_of_pos_right (Nat.sub_lt positive Nat.one_pos) wide⟩

/-- Move every row up by one, with a blank row at the end, and go to the start of that row. -/
def scroll (blank : α) (terminal : Terminal rows cols α) : Terminal rows cols α where
  cells index :=
    if below : index.val + cols < rows * cols then terminal.cells ⟨index.val + cols, below⟩
    else blank
  cursor := terminal.lastRow

/-- Move the cursor forward, scrolling when there is no such cell. -/
def moveTo (blank : α) (target : Nat) (terminal : Terminal rows cols α) :
    Terminal rows cols α :=
  if inside : target < rows * cols then { terminal with cursor := ⟨target, inside⟩ }
  else terminal.scroll blank

/-- Go to the start of the next row. -/
def newline (blank : α) (terminal : Terminal rows cols α) : Terminal rows cols α :=
  terminal.moveTo blank (terminal.cursor.val / cols * cols + cols)

/-- Write a cell and go to the next one. -/
def put (blank cell : α) (terminal : Terminal rows cols α) : Terminal rows cols α :=
  { terminal with cells := Function.update terminal.cells terminal.cursor cell }.moveTo blank
    (terminal.cursor.val + 1)

/-- Go back one cell and blank it. -/
def erase (blank : α) (terminal : Terminal rows cols α) : Terminal rows cols α :=
  let previous : Fin (rows * cols) :=
    ⟨terminal.cursor.val - 1, Nat.lt_of_le_of_lt (Nat.sub_le _ _) terminal.cursor.isLt⟩
  { cells := Function.update terminal.cells previous blank
    cursor := previous }

end Terminal

end Machine
