import Rupi.Tui.Width

/-!
The display rows of an edited text.

- `lineRows`: the rows of one line, as spans of characters; a row breaks between clusters.
- `Tiles`: spans that follow one another from one place to another; `tiles_lineRows`: the rows of
  a line tile it.
- `bufferRows`: the rows of all lines; `caretRow`, `columnAt`: the row that a caret is on, and
  the caret of a row at a column.
-/

namespace Rupi.Tui

/-- `Cursor`: a line, and a number of characters into it. -/
structure Cursor where
  line : ℕ
  column : ℕ
  deriving DecidableEq, Repr

/-- `Row`. -/
structure Row where
  line : ℕ
  start : ℕ
  stop : ℕ
  deriving DecidableEq, Repr

/-- `is_regional_indicator`. -/
def isRegionalIndicator (c : Char) : Bool := 0x1f1e6 ≤ c.toNat && c.toNat ≤ 0x1f1ff

/-- `continues_cluster`. -/
def continuesCluster (previous next : Char) : Bool :=
  previous.toNat = 0x200d || (isRegionalIndicator previous && isRegionalIndicator next) ||
    [0x200c, 0x200d, 0x20e3, 0xfe0e, 0xfe0f].contains next.toNat ||
    (0x0300 ≤ next.toNat && next.toNat ≤ 0x036f)

/-- What follows a character in its cluster. -/
def clusterTail (previous : Char) : List Char → List Char
  | [] => []
  | c :: rest => if continuesCluster previous c then c :: clusterTail c rest else []

/-- The loop of `line_rows`, in front of `rest` at `index`. -/
def rowsFrom (width : ℕ) (start column index : ℕ) : List Char → List (ℕ × ℕ)
  | [] => [(start, index)]
  | c :: rest =>
      let tail := clusterTail c rest
      let columns := displayWidth (c :: tail)
      let behind := rest.drop tail.length
      let after := index + 1 + tail.length
      if width < column + columns ∧ start < index then
        (start, index) :: rowsFrom width index columns after behind
      else rowsFrom width start (column + columns) after behind
termination_by rest => rest.length
decreasing_by
  all_goals simp only [List.length_cons, List.length_drop]; omega

/-- `line_rows`. -/
def lineRows (line : List Char) (width : ℕ) : List (ℕ × ℕ) := rowsFrom (max width 1) 0 0 0 line

/-- `buffer_rows`. -/
def bufferRows (lines : List (List Char)) (width : ℕ) : List Row :=
  lines.zipIdx.flatMap fun (text, line) =>
    (lineRows text width).map fun (start, stop) => ⟨line, start, stop⟩

/-- The text of a line between two places. -/
def between (line : List Char) (start stop : ℕ) : List Char := (line.drop start).take (stop - start)

/-- The loop of `caret_row`, from a row on. -/
def caretRowFrom (lines : List (List Char)) (cursor : Cursor) : ℕ → List Row → ℕ × ℕ
  | _, [] => (0, 0)
  | index, row :: rows =>
      let lastOfLine := rows.head?.all fun next => next.line ≠ row.line
      if row.line = cursor.line ∧ row.start ≤ cursor.column ∧
          (cursor.column < row.stop ∨ lastOfLine) then
        (index, displayWidth (between (lines.getD row.line []) row.start cursor.column))
      else caretRowFrom lines cursor (index + 1) rows

/-- `caret_row`. -/
def caretRow (rows : List Row) (lines : List (List Char)) (cursor : Cursor) : ℕ × ℕ :=
  caretRowFrom lines cursor 0 rows

/-- The loop of `column_at`, at a character and the column it starts at. -/
def columnFrom (stop wanted : ℕ) : ℕ → ℕ → List Char → ℕ
  | _, _, [] => stop
  | position, column, c :: rest =>
      if wanted < column + charWidth c then position
      else if wanted ≤ column + charWidth c then position + 1
      else columnFrom stop wanted (position + 1) (column + charWidth c) rest

/-- `column_at`. -/
def columnAt (line : List Char) (start stop wanted : ℕ) : ℕ :=
  columnFrom stop wanted start 0 (between line start stop)

/-! ### Tiles -/

/-- Spans that follow one another from one place to another; none but the last is empty. -/
def Tiles (start stop : ℕ) : List (ℕ × ℕ) → Prop
  | [] => False
  | [span] => span = (start, stop) ∧ start ≤ stop
  | span :: spans => span.1 = start ∧ start < span.2 ∧ Tiles span.2 stop spans

section Tiles

variable {width start stop column index : ℕ} {spans : List (ℕ × ℕ)} {span : ℕ × ℕ}

lemma tiles_cons (hspans : Tiles span.2 stop spans) :
    Tiles start stop (span :: spans) ↔ span.1 = start ∧ start < span.2 := by
  cases spans with
  | nil => exact hspans.elim
  | cons next spans =>
    rw [Tiles]
    · exact ⟨fun h => ⟨h.1, h.2.1⟩, fun h => ⟨h.1, h.2, hspans⟩⟩
    · exact List.cons_ne_nil _ _

lemma length_clusterTail (c : Char) (rest : List Char) :
    (clusterTail c rest).length ≤ rest.length := by
  induction rest generalizing c with
  | nil => exact le_rfl
  | cons next rest ih =>
    rw [clusterTail]
    split_ifs
    · exact Nat.succ_le_succ (ih next)
    · exact Nat.zero_le _

lemma tiles_rowsFrom (rest : List Char) (h : start ≤ index) :
    Tiles start (index + rest.length) (rowsFrom width start column index rest) := by
  fun_induction rowsFrom width start column index rest with
  | case1 => exact ⟨rfl, h⟩
  | case2 start column index c rest tail columns behind after hbreak ih =>
    have hlength := length_clusterTail c rest
    have hstop : after + behind.length = index + (rest.length + 1) := by
      simp only [after, behind, tail, List.length_drop]
      omega
    rw [hstop] at ih
    exact (tiles_cons (ih (by omega))).2 ⟨rfl, hbreak.2⟩
  | case3 start column index c rest tail columns behind after hbreak ih =>
    have hlength := length_clusterTail c rest
    have hstop : after + behind.length = index + (rest.length + 1) := by
      simp only [after, behind, tail, List.length_drop]
      omega
    rw [hstop] at ih
    exact ih (by omega)

/-- **The rows of a line** tile it. -/
theorem tiles_lineRows (line : List Char) (width : ℕ) :
    Tiles 0 line.length (lineRows line width) := by
  have h := @tiles_rowsFrom (max width 1) 0 0 0 line le_rfl
  rwa [Nat.zero_add] at h

lemma Tiles.le (h : Tiles start stop spans) : start ≤ stop := by
  induction spans generalizing start with
  | nil => exact h.elim
  | cons span spans ih =>
    cases spans with
    | nil => exact h.2
    | cons next spans =>
      obtain ⟨-, hlt, hspans⟩ := h
      exact hlt.le.trans (ih hspans)

lemma Tiles.mem (h : Tiles start stop spans) (hspan : span ∈ spans) :
    start ≤ span.1 ∧ span.1 ≤ span.2 ∧ span.2 ≤ stop := by
  induction spans generalizing start with
  | nil => cases hspan
  | cons first spans ih =>
    cases spans with
    | nil =>
      obtain ⟨rfl, hle⟩ := h
      cases List.mem_singleton.1 hspan
      exact ⟨le_rfl, hle, le_rfl⟩
    | cons next spans =>
      obtain ⟨rfl, hlt, hspans⟩ := h
      obtain rfl | hspan := List.mem_cons.1 hspan
      · exact ⟨le_rfl, hlt.le, hspans.le⟩
      · obtain ⟨hstart, hle, hstop⟩ := ih hspans hspan
        exact ⟨hlt.le.trans hstart, hle, hstop⟩

end Tiles

/-! ### Carets of a row -/

section Carets

variable {lines : List (List Char)} {width start stop wanted position column : ℕ}

/-- A row of the buffer is a row of one of its lines. -/
lemma mem_bufferRows {row : Row} (h : row ∈ bufferRows lines width) :
    ∃ text, lines[row.line]? = some text ∧ (row.start, row.stop) ∈ lineRows text width := by
  obtain ⟨⟨text, line⟩, hline, hrow⟩ := List.mem_flatMap.1 h
  obtain ⟨⟨start, stop⟩, hspan, rfl⟩ := List.mem_map.1 hrow
  exact ⟨text, List.mem_zipIdx_iff_getElem?.1 hline, hspan⟩

lemma columnFrom_le {rest : List Char} (h : position + rest.length = stop) :
    position ≤ columnFrom stop wanted position column rest ∧
      columnFrom stop wanted position column rest ≤ stop := by
  induction rest generalizing position column with
  | nil => exact ⟨h.le, le_rfl⟩
  | cons c rest ih =>
    rw [List.length_cons] at h
    rw [columnFrom]
    split_ifs
    · exact ⟨le_rfl, by omega⟩
    · exact ⟨Nat.le_succ _, by omega⟩
    · obtain ⟨hle, hstop⟩ := @ih (position + 1) (column + charWidth c) (by omega)
      exact ⟨(Nat.le_succ _).trans hle, hstop⟩

lemma length_between {line : List Char} (h : stop ≤ line.length) :
    (between line start stop).length = stop - start := by
  rw [between, List.length_take, List.length_drop]
  omega

/-- The caret of a row is in the row. -/
lemma columnAt_le {line : List Char} (hle : start ≤ stop) (hstop : stop ≤ line.length) :
    start ≤ columnAt line start stop wanted ∧ columnAt line start stop wanted ≤ stop :=
  columnFrom_le (by rw [length_between hstop]; omega)

end Carets

end Rupi.Tui
