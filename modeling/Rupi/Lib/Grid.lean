import Mathlib.Tactic

/-!
A grid of rows of cells with a cursor, which scrolls.

- `Grid`: the rows from the first one on; those above `top` have scrolled off, and the cursor is
  below them.
- `Grid.run`: what commands do to a grid; `Grid.cleared`: the lines at which they clear it.
- `Fresh`: a grid that ends with the empty row of the cursor.
- `fresh_clear`: clearing from the start of a row on; **`fresh_lines`**: lines written below.
-/

namespace Rupi

/-- A grid: its rows, the cursor, the number of rows that have scrolled off, and the number of rows
that it shows. -/
structure Grid (α : Type*) where
  rows : List (List α)
  line : ℕ
  column : ℕ
  top : ℕ
  height : ℕ
  line_lt : line < rows.length
  top_le : top ≤ line
  height_pos : 0 < height

namespace Grid

/-- What is sent to a grid. -/
inductive Command (α : Type*) where
  | print (cells : List α)
  | lineBreak
  | up (lines : ℕ)
  | toColumn (column : ℕ)
  | clearDown
  | resize (height : ℕ)
  deriving DecidableEq, Repr

section Commands

variable {α : Type*} (blank : α)

/-- The cells of a row in front of a column. -/
def front (row : List α) (column : ℕ) : List α :=
  row.take column ++ List.replicate (column - row.length) blank

/-- The row of the cursor. -/
def row (grid : Grid α) : List α := grid.rows.getD grid.line []

/-- Cells at the cursor. -/
def print (grid : Grid α) (cells : List α) : Grid α where
  rows := grid.rows.set grid.line (front blank grid.row grid.column ++ cells ++
    grid.row.drop (grid.column + cells.length))
  line := grid.line
  column := grid.column + cells.length
  top := grid.top
  height := grid.height
  line_lt := by
    rw [List.length_set]
    exact grid.line_lt
  top_le := grid.top_le
  height_pos := grid.height_pos

/-- The start of the next row: below the last one the grid scrolls. -/
def lineBreak (grid : Grid α) : Grid α where
  rows := if grid.line + 1 < grid.rows.length then grid.rows else grid.rows ++ [[]]
  line := grid.line + 1
  column := 0
  top := max grid.top (grid.line + 2 - grid.height)
  height := grid.height
  line_lt := by
    have hline := grid.line_lt
    split_ifs with hnext
    · exact hnext
    · rw [List.length_append, List.length_singleton]
      omega
  top_le := by
    have htop := grid.top_le
    have hheight := grid.height_pos
    omega
  height_pos := grid.height_pos

/-- The start of a row above, of those that have not scrolled off. -/
def up (grid : Grid α) (lines : ℕ) : Grid α where
  rows := grid.rows
  line := max grid.top (grid.line - lines)
  column := 0
  top := grid.top
  height := grid.height
  line_lt := by
    have hline := grid.line_lt
    have htop := grid.top_le
    omega
  top_le := le_max_left _ _
  height_pos := grid.height_pos

def toColumn (grid : Grid α) (column : ℕ) : Grid α := { grid with column }

/-- What is behind the cursor and below it is cleared. -/
def clearDown (grid : Grid α) : Grid α where
  rows := grid.rows.take grid.line ++ [grid.row.take grid.column]
  line := grid.line
  column := grid.column
  top := grid.top
  height := grid.height
  line_lt := by
    have hline := grid.line_lt
    rw [List.length_append, List.length_take, List.length_singleton]
    omega
  top_le := grid.top_le
  height_pos := grid.height_pos

/-- Another height: the last row stays in view, and the cursor. -/
def resize (grid : Grid α) (height : ℕ) : Grid α where
  rows := grid.rows
  line := max grid.line (grid.rows.length - max height 1)
  column := grid.column
  top := max grid.top (grid.rows.length - max height 1)
  height := max height 1
  line_lt := by
    have hline := grid.line_lt
    omega
  top_le := by
    have htop := grid.top_le
    omega
  height_pos := by omega

def exec (grid : Grid α) : Command α → Grid α
  | .print cells => grid.print blank cells
  | .lineBreak => grid.lineBreak
  | .up lines => grid.up lines
  | .toColumn column => grid.toColumn column
  | .clearDown => grid.clearDown
  | .resize height => grid.resize height

def run (grid : Grid α) (commands : List (Command α)) : Grid α := commands.foldl (exec blank) grid

/-- The lines at which commands clear a grid. -/
def cleared : Grid α → List (Command α) → List ℕ
  | _, [] => []
  | grid, .clearDown :: commands => grid.line :: cleared (grid.exec blank .clearDown) commands
  | grid, command :: commands => cleared (grid.exec blank command) commands

/-- Lines, each with its line break. -/
def lines (texts : List (List α)) : List (Command α) :=
  texts.flatMap fun text => [.print text, .lineBreak]

end Commands

/-- A grid that ends with the empty row that the cursor is at the start of. -/
structure Fresh {α : Type*} (past : List (List α)) (grid : Grid α) : Prop where
  rows : grid.rows = past ++ [[]]
  line : grid.line = past.length
  column : grid.column = 0

section Fresh

variable {α : Type*} {blank : α} {grid : Grid α} {past behind texts : List (List α)}
  {commands more : List (Command α)}

lemma run_append : grid.run blank (commands ++ more) = (grid.run blank commands).run blank more :=
  List.foldl_append

lemma cleared_append : grid.cleared blank (commands ++ more) =
    grid.cleared blank commands ++ (grid.run blank commands).cleared blank more := by
  induction commands generalizing grid with
  | nil => rfl
  | cons command commands ih =>
    cases command with
    | clearDown => exact congrArg (_ :: ·) ih
    | print | lineBreak | up | toColumn | resize => exact ih

lemma rows_lineBreak : grid.lineBreak.rows =
    if grid.line + 1 < grid.rows.length then grid.rows else grid.rows ++ [[]] := rfl

lemma rows_print (text : List α) : (grid.print blank text).rows =
    grid.rows.set grid.line (front blank grid.row grid.column ++ text ++
      grid.row.drop (grid.column + text.length)) := rfl

lemma Fresh.row (h : Fresh past grid) : grid.row = [] := by
  rw [Grid.row, h.rows, h.line, List.getD_eq_getElem?_getD, List.getElem?_append_right le_rfl,
    Nat.sub_self]
  rfl

/-- The start of a row is cleared, and what is below it. -/
lemma fresh_clear (hrows : grid.rows = past ++ behind) (hline : grid.line = past.length) :
    Fresh past (grid.toColumn 0).clearDown := by
  refine ⟨?_, hline, rfl⟩
  have hcleared : (grid.toColumn 0).clearDown.rows = grid.rows.take grid.line ++ [[]] := rfl
  rw [hcleared, hrows, hline, List.take_left]

lemma fresh_line (h : Fresh past grid) (text : List α) :
    Fresh (past ++ [text]) (grid.print blank text).lineBreak := by
  have hrows : (grid.print blank text).rows = past ++ [text] := by
    rw [rows_print, h.row, h.rows, h.line, h.column, List.set_append_right _ _ le_rfl, Nat.sub_self]
    simp [front]
  have hline : (grid.print blank text).line = past.length := h.line
  refine ⟨?_, ?_, rfl⟩
  · rw [rows_lineBreak, hrows, hline, if_neg (by simp)]
  · have hbreak : (grid.print blank text).lineBreak.line = (grid.print blank text).line + 1 := rfl
    rw [hbreak, hline, List.length_append, List.length_singleton]

/-- **Lines written to a fresh grid** are its last rows; they scroll it as far as they must. -/
theorem fresh_lines (h : Fresh past grid) (texts : List (List α)) :
    Fresh (past ++ texts) (grid.run blank (lines texts)) ∧
      (grid.run blank (lines texts)).height = grid.height ∧
        (grid.run blank (lines texts)).top ≤
          max grid.top (past.length + texts.length + 1 - grid.height) := by
  induction texts generalizing past grid with
  | nil =>
    rw [List.append_nil]
    exact ⟨h, rfl, le_max_left _ _⟩
  | cons text texts ih =>
    obtain ⟨hfresh, hheight, htop⟩ := ih (fresh_line h text)
    rw [List.append_assoc] at hfresh
    refine ⟨hfresh, hheight, htop.trans ?_⟩
    have hline := h.line
    have hbreak : (grid.print blank text).lineBreak.top =
        max grid.top (grid.line + 2 - grid.height) := rfl
    have hsame : (grid.print blank text).lineBreak.height = grid.height := rfl
    rw [hbreak, hsame, hline, List.length_append, List.length_singleton, List.length_cons]
    omega

lemma cleared_lines (texts : List (List α)) : grid.cleared blank (lines texts) = [] := by
  induction texts generalizing grid with
  | nil => rfl
  | cons text texts ih => exact ih

/-- The cursor moves over rows that stay. -/
lemma rows_moved (lines column : ℕ) : ((grid.up lines).toColumn column).rows = grid.rows := rfl

lemma line_moved (lines column : ℕ) :
    ((grid.up lines).toColumn column).line = (grid.up lines).line := rfl

lemma column_moved (lines column : ℕ) : ((grid.up lines).toColumn column).column = column := rfl

lemma top_moved (lines column : ℕ) : ((grid.up lines).toColumn column).top = grid.top := rfl

lemma height_moved (lines column : ℕ) :
    ((grid.up lines).toColumn column).height = grid.height := rfl

/-- The way up to a row that has not scrolled off. -/
lemma line_up {line lines : ℕ} (hline : grid.line = line + lines) (htop : grid.top ≤ line) :
    (grid.up lines).line = line := by
  have hup : (grid.up lines).line = max grid.top (grid.line - lines) := rfl
  rw [hup, hline]
  omega

end Fresh

end Grid

end Rupi
