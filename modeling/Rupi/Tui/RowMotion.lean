import Rupi.Tui.DisplayRows

/-!
Vertical motion of the caret.

- `columnOf`: the column in front of a character of a row; `IsCaret`: the places of the caret that
  are shown on the row.
- `Stops`: where `column_at` stops in a row; `stops_columnAt`.
- `Reaches`: when that is the last caret of the row that is not behind the column
  (`isLargest_iff`).
- `Editor.RowMotion`: vertical motion goes a row at a time and comes back.
- `rowMotion_iff`: when it does, from any caret that is in a line.
- `placed_run`: every run leaves the caret in a line; **`rowMotion_run_iff`**.
-/

namespace Rupi.Tui

/-! ### Columns of a row -/

/-- The column in front of a character. -/
def columnOf (chars : List Char) (position : ℕ) : ℕ := displayWidth (chars.take position)

/-- A place of the caret that is shown on a row: the end of the row is one when the row is the last
of its line. -/
def IsCaret (chars : List Char) (last : Bool) (position : ℕ) : Prop :=
  position < chars.length ∨ (position = chars.length ∧ last)

/-- The last caret of a row that is not behind a column. -/
def IsLargest (chars : List Char) (last : Bool) (wanted position : ℕ) : Prop :=
  IsCaret chars last position ∧ columnOf chars position ≤ wanted ∧
    ∀ other, IsCaret chars last other → columnOf chars other ≤ wanted → other ≤ position

/-- The first place, behind a character, that is at a column, or the place that the next character
takes past it. -/
structure Stops (chars : List Char) (wanted position : ℕ) : Prop where
  le : position ≤ chars.length
  column : columnOf chars position ≤ wanted
  first : ∀ other, 1 ≤ other → other < position → columnOf chars other < wanted
  stop : position = chars.length ∨ wanted < columnOf chars (position + 1) ∨
    (1 ≤ position ∧ columnOf chars position = wanted)

/-- A row that reaches past a column, or is the last of its line, and has no character without
width there between two of its carets. -/
structure Reaches (chars : List Char) (last : Bool) (wanted : ℕ) : Prop where
  wide : last ∨ wanted < displayWidth chars ∨
    (2 ≤ chars.length ∧ columnOf chars (chars.length - 1) = wanted)
  single : ∀ position, 1 ≤ position → IsCaret chars last (position + 1) →
    columnOf chars position = wanted → columnOf chars (position + 1) ≠ wanted

section Columns

variable {chars front rest : List Char} {last : Bool} {wanted position other : ℕ}

lemma columnOf_mono (h : position ≤ other) : columnOf chars position ≤ columnOf chars other := by
  have htake := List.take_append_drop position (chars.take other)
  rw [List.take_take, min_eq_left h] at htake
  rw [columnOf, columnOf, ← htake, displayWidth_append]
  exact Nat.le_add_right _ _

lemma columnOf_length : columnOf chars chars.length = displayWidth chars := by
  rw [columnOf, List.take_length]

lemma columnOf_append : columnOf (front ++ rest) front.length = displayWidth front := by
  rw [columnOf, List.take_left]

lemma stops_columnFrom {start : ℕ} (hcolumn : displayWidth front ≤ wanted)
    (hfirst : ∀ other, 1 ≤ other → other ≤ front.length →
      columnOf (front ++ rest) other < wanted) :
    ∃ position, columnFrom (start + (front ++ rest).length) wanted (start + front.length)
      (displayWidth front) rest = start + position ∧ Stops (front ++ rest) wanted position := by
  induction rest generalizing front with
  | nil =>
    refine ⟨front.length, ?_, ?_⟩
    · rw [columnFrom, List.append_nil]
    · refine ⟨by simp, ?_, fun other hone hlt => hfirst other hone hlt.le, Or.inl (by simp)⟩
      rwa [columnOf_append]
  | cons c rest ih =>
    have hnext : columnOf (front ++ c :: rest) (front.length + 1) =
        displayWidth front + charWidth c := by
      have happend := @columnOf_append (front ++ [c]) rest
      rw [List.append_assoc, List.length_append, displayWidth_append, displayWidth_cons,
        displayWidth_nil, Nat.add_zero] at happend
      exact happend
    rw [columnFrom]
    split_ifs with hover hmeets
    · refine ⟨front.length, rfl, by simp, ?_, fun other hone hlt => hfirst other hone hlt.le,
        Or.inr (Or.inl (hnext ▸ hover))⟩
      rwa [columnOf_append]
    · have heq : columnOf (front ++ c :: rest) (front.length + 1) = wanted := by omega
      exact ⟨front.length + 1, rfl, by simp, heq.le,
        fun other hone hlt => hfirst other hone (Nat.lt_succ_iff.1 hlt),
        Or.inr (Or.inr ⟨Nat.succ_pos _, heq⟩)⟩
    · have hrest := @ih (front ++ [c])
      rw [List.append_assoc, displayWidth_append, displayWidth_cons, displayWidth_nil,
        Nat.add_zero, List.length_append, ← Nat.add_assoc] at hrest
      refine hrest (by omega) fun other hone hle => ?_
      rw [List.length_singleton] at hle
      obtain hlt | rfl := Nat.lt_or_eq_of_le hle
      · exact hfirst other hone (Nat.lt_succ_iff.1 hlt)
      · exact hnext.trans_lt (by omega)

/-- `column_at` stops in the row. -/
lemma stops_columnAt {line : List Char} {start stop : ℕ} (hle : start ≤ stop)
    (hstop : stop ≤ line.length) : ∃ position, columnAt line start stop wanted = start + position ∧
      Stops (between line start stop) wanted position := by
  have hlength : start + (between line start stop).length = stop := by
    rw [length_between hstop]
    omega
  have hstops := @stops_columnFrom [] (between line start stop) wanted start (Nat.zero_le _)
    fun other hone hle => absurd (hone.trans hle) (by simp)
  rw [List.nil_append, hlength] at hstops
  exact hstops

lemma Stops.unique (h : Stops chars wanted position) (h' : Stops chars wanted other) :
    position = other := by
  have hle : ∀ {p q}, Stops chars wanted p → Stops chars wanted q → q ≤ p := by
    intro p q hp hq
    by_contra hlt
    rw [not_le] at hlt
    obtain hend | hover | ⟨hone, hcolumn⟩ := hp.stop
    · exact absurd hq.le (by omega)
    · exact absurd ((columnOf_mono hlt).trans hq.column) (not_le.2 hover)
    · exact absurd hcolumn (hq.first p hone hlt).ne
  exact le_antisymm (hle h' h) (hle h h')

/-- **The caret at a column** is the last one that is not behind it exactly when the row reaches
the column. -/
theorem isLargest_iff (h : Stops chars wanted position) :
    IsLargest chars last wanted position ↔ Reaches chars last wanted := by
  constructor
  · rintro ⟨hcaret, hcolumn, hlargest⟩
    refine ⟨?_, fun q hone hnext hq hsame => ?_⟩
    · by_contra hnot
      rw [not_or, not_or, not_lt] at hnot
      obtain ⟨hlast, hnarrow, hend⟩ := hnot
      obtain hlt | ⟨-, hlast'⟩ := hcaret
      · have hwhole : columnOf chars chars.length ≤ wanted := columnOf_length.trans_le hnarrow
        have hle := hlargest (chars.length - 1) (Or.inl (by omega))
          ((columnOf_mono (Nat.sub_le _ _)).trans hwhole)
        obtain rfl : position = chars.length - 1 := by omega
        obtain hstop | hover | ⟨hone, hmeets⟩ := h.stop
        · omega
        · rw [Nat.sub_add_cancel (by omega)] at hover
          exact absurd hwhole (not_le.2 hover)
        · exact hend ⟨by omega, hmeets⟩
      · exact hlast hlast'
    · have hle := hlargest (q + 1) hnext hsame.le
      exact absurd hq (h.first q hone (by omega)).ne
  · rintro ⟨hwide, hsingle⟩
    have hcaret : IsCaret chars last position := by
      obtain hlt | rfl := Nat.lt_or_eq_of_le h.le
      · exact Or.inl hlt
      · obtain hlast | hpast | ⟨htwo, hmeets⟩ := hwide
        · exact Or.inr ⟨rfl, hlast⟩
        · rw [← columnOf_length] at hpast
          exact absurd h.column (not_le.2 hpast)
        · exact absurd hmeets (h.first _ (by omega) (by omega)).ne
    refine ⟨hcaret, h.column, fun q hq hle => ?_⟩
    by_contra hlt
    rw [not_le] at hlt
    have hlength : q ≤ chars.length := by
      obtain hlt | ⟨rfl, -⟩ := hq
      · exact hlt.le
      · exact le_rfl
    obtain rfl | hover | ⟨hone, hmeets⟩ := h.stop
    · omega
    · exact absurd ((columnOf_mono hlt).trans hle) (not_le.2 hover)
    · have hnext : IsCaret chars last (position + 1) := by
        obtain hq | ⟨hq, hlast⟩ := hq
        · exact Or.inl (by omega)
        · obtain hless | hend := Nat.lt_or_eq_of_le (hlt.trans_eq hq)
          · exact Or.inl hless
          · exact Or.inr ⟨hend, hlast⟩
      have hsame : columnOf chars (position + 1) = wanted :=
        le_antisymm ((columnOf_mono hlt).trans hle)
          (hmeets.symm.trans_le (columnOf_mono (Nat.le_succ _)))
      exact hsingle position hone hnext hmeets hsame

end Columns

/-! ### Motion -/

namespace Editor

variable (alphanumeric : Char → Bool) (prompt : List Char)

/-- The text of a row. -/
def rowText (editor : Editor) (row : Row × Bool) : List Char :=
  between (editor.lines.getD row.1.line []) row.1.start row.1.stop

/-- The column that vertical motion aims at: the one it remembers, or the one of the caret. -/
def remembered (editor : Editor) : ℕ := editor.desired.getD (editor.display []).cursor.column

/-- An answer that puts the caret on a row, at the last place that is not behind the column. -/
structure Lands (editor : Editor) (i : ℕ) (answer : Outcome × Editor) : Prop where
  changed : answer.1 = .changed
  lines : answer.2.lines = editor.lines
  shown : (answer.2.display prompt).cursor.line = i
  largest : ∃ row position, editor.displayRows[i]? = some row ∧
    answer.2.cursor = ⟨row.1.line, row.1.start + position⟩ ∧
      IsLargest (editor.rowText row) row.2 editor.remembered position

/-- The row of the caret has a place at the column that is remembered. -/
def Reachable (editor : Editor) : Prop :=
  ∃ row position, editor.displayRows[(editor.display prompt).cursor.line]? = some row ∧
    IsCaret (editor.rowText row) row.2 position ∧
      columnOf (editor.rowText row) position = editor.remembered

/-- The editor behind a number of moves up. -/
def climb (editor : Editor) : ℕ → Editor
  | 0 => editor
  | n + 1 => ((climb editor n).apply alphanumeric .moveUp).2

/-- Vertical motion from a caret: down a row; up a row, and up to the first row and the history in
as many steps as there are rows above; down and up again, and up and down again. -/
structure RowMotion (editor : Editor) : Prop where
  down : (editor.display prompt).cursor.line + 1 < editor.displayRows.length →
    editor.Lands prompt ((editor.display prompt).cursor.line + 1)
      (editor.apply alphanumeric .moveDown)
  up : ∀ k < (editor.display prompt).cursor.line,
    editor.Lands prompt ((editor.display prompt).cursor.line - (k + 1))
      ((editor.climb alphanumeric k).apply alphanumeric .moveUp)
  history : (editor.climb alphanumeric (editor.display prompt).cursor.line).apply alphanumeric
    .moveUp = { editor.climb alphanumeric (editor.display prompt).cursor.line with
      completion := none }.recallOlder
  downUp : (editor.display prompt).cursor.line + 1 < editor.displayRows.length →
    editor.Reachable prompt → ((editor.apply alphanumeric .moveDown).2.apply alphanumeric
      .moveUp).2.cursor = editor.cursor
  upDown : 0 < (editor.display prompt).cursor.line → editor.Reachable prompt →
    ((editor.apply alphanumeric .moveUp).2.apply alphanumeric .moveDown).2.cursor = editor.cursor

/-- The rows above and the next one reach the column that is remembered, and the caret is the first
of its row behind a character to be there, if the row has such a place. -/
structure Parked (editor : Editor) : Prop where
  rows : ∀ i row, editor.displayRows[i]? = some row →
    i < (editor.display prompt).cursor.line ∨ i = (editor.display prompt).cursor.line + 1 →
      Reaches (editor.rowText row) row.2 editor.remembered
  caret : 1 < editor.displayRows.length → editor.Reachable prompt →
    ∀ row, editor.displayRows[(editor.display prompt).cursor.line]? = some row →
      Stops (editor.rowText row) editor.remembered (editor.cursor.column - row.1.start)

section Motion

variable {alphanumeric : Char → Bool} {prompt : List Char} {editor moved : Editor}
  {row : Row × Bool} {i position : ℕ}

lemma display_line (h : editor.cursor.line < editor.lines.length) :
    (editor.display prompt).cursor.line = editor.rowIndex := by
  obtain ⟨row, -, hcursor⟩ := display_cursor h prompt
  rw [hcursor]

/-- A row of the lines, and its text. -/
lemma rowOf_displayRows (hrow : editor.displayRows[i]? = some row) :
    ∃ text, editor.lines[row.1.line]? = some text ∧ RowOf row.1.line text.length row := by
  rw [displayRows_eq] at hrow
  obtain ⟨n, text, hline, hof, -⟩ := rowOf_linesRows (List.mem_of_getElem? hrow)
  have hn := hof.line
  rw [Nat.zero_add] at hn hof
  rw [← hn] at hline
  exact ⟨text, hline, hn ▸ hof⟩

lemma length_rowText (hrow : editor.displayRows[i]? = some row) :
    (editor.rowText row).length = row.1.stop - row.1.start := by
  obtain ⟨text, hline, hof⟩ := rowOf_displayRows hrow
  rw [rowText, List.getD_eq_getElem?_getD, hline, Option.getD_some, length_between hof.stop]

/-- Where `move_row` puts the caret. -/
lemma moveToRow_eq (hrow : editor.displayRows[i]? = some row) (column : ℕ) : ∃ position,
    editor.moveToRow column i = (.changed, { editor with
      desired := some (editor.desired.getD column)
      cursor := ⟨row.1.line, row.1.start + position⟩ }) ∧
    Stops (editor.rowText row) (editor.desired.getD column) position := by
  obtain ⟨text, hline, hof⟩ := rowOf_displayRows hrow
  have htext : editor.lines.getD row.1.line [] = text := by
    rw [List.getD_eq_getElem?_getD, hline, Option.getD_some]
  have hget : (bufferRows editor.lines editor.width).getD i ⟨0, 0, 0⟩ = row.1 := by
    rw [← map_fst_displayRows, List.getD_eq_getElem?_getD, List.getElem?_map, hrow]
    rfl
  obtain ⟨position, hcolumn, hstops⟩ :=
    @stops_columnAt (editor.desired.getD column) _ _ _ hof.le hof.stop
  refine ⟨position, ?_, ?_⟩
  · rw [moveToRow, hget, htext, hcolumn]
  · rwa [rowText, htext]

/-- An editor with the rows of another one, the column it remembers, and a caret in its lines. -/
structure Alike (editor moved : Editor) : Prop where
  lines : moved.lines = editor.lines
  width : moved.width = editor.width
  remembered : moved.remembered = editor.remembered
  caret : moved.cursor.line < moved.lines.length

lemma Alike.displayRows (h : Alike editor moved) : moved.displayRows = editor.displayRows := by
  rw [displayRows_eq, displayRows_eq, h.lines, h.width]

lemma Alike.rowText (h : Alike editor moved) : moved.rowText row = editor.rowText row := by
  rw [Editor.rowText, Editor.rowText, h.lines]

/-- What a vertical move leaves: the caret at a place where it stops in a row. -/
def MovesToRow (editor : Editor) (i : ℕ) (answer : Outcome × Editor) : Prop :=
  ∃ row position, editor.displayRows[i]? = some row ∧
    Stops (editor.rowText row) editor.remembered position ∧
    answer.1 = .changed ∧ Alike editor answer.2 ∧
      answer.2.cursor = ⟨row.1.line, row.1.start + position⟩

lemma caretRow_remembered (h : Alike editor moved) :
    ∃ column, moved.desired.getD column = editor.remembered ∧
      caretRow (bufferRows moved.lines moved.width) moved.lines moved.cursor =
        (moved.rowIndex, column) :=
  ⟨_, h.remembered, caretRow_eq h.caret⟩

lemma movesToRow_moveToRow (h : Alike editor moved) {column : ℕ}
    (hcolumn : moved.desired.getD column = editor.remembered)
    (hrow : editor.displayRows[i]? = some row) :
    MovesToRow editor i ({ moved with completion := none }.moveToRow column i) := by
  have hrow' : { moved with completion := none }.displayRows[i]? = some row := by
    rw [← hrow, ← h.displayRows]
    rfl
  obtain ⟨position, hmove, hstops⟩ := moveToRow_eq hrow' column
  obtain ⟨text, hline, -⟩ := rowOf_displayRows hrow
  refine ⟨row, position, hrow, ?_, ?_⟩
  · rw [← hcolumn, ← h.rowText]
    exact hstops
  · rw [hmove]
    refine ⟨rfl, ⟨h.lines, h.width, hcolumn, ?_⟩, rfl⟩
    have hlt := (List.getElem?_eq_some_iff.1 hline).1
    rwa [← h.lines] at hlt

lemma movesToRow_down (h : Alike editor moved)
    (hnext : moved.rowIndex + 1 < editor.displayRows.length) :
    MovesToRow editor (moved.rowIndex + 1) (moved.apply alphanumeric .moveDown) := by
  obtain ⟨column, hcolumn, hcaret⟩ := caretRow_remembered h
  have hlength : (bufferRows moved.lines moved.width).length = editor.displayRows.length := by
    rw [← map_fst_displayRows, h.displayRows, List.length_map]
  have happly : moved.apply alphanumeric .moveDown =
      { moved with completion := none }.moveToRow column (moved.rowIndex + 1) := by
    have hdown : moved.apply alphanumeric .moveDown =
        { moved with completion := none }.rowDown := rfl
    rw [hdown, rowDown]
    dsimp only
    rw [hcaret, hlength, if_pos hnext]
  rw [happly]
  exact movesToRow_moveToRow h hcolumn (List.getElem?_eq_getElem hnext)

lemma movesToRow_up (h : Alike editor moved) (hrow : moved.rowIndex = i + 1) :
    MovesToRow editor i (moved.apply alphanumeric .moveUp) := by
  obtain ⟨column, hcolumn, hcaret⟩ := caretRow_remembered h
  obtain ⟨own, hown, -⟩ := exists_onRow h.caret
  rw [hrow, h.displayRows] at hown
  have hlt : i < editor.displayRows.length :=
    (Nat.lt_succ_self i).trans (List.getElem?_eq_some_iff.1 hown).1
  have happly : moved.apply alphanumeric .moveUp =
      { moved with completion := none }.moveToRow column i := by
    have hup : moved.apply alphanumeric .moveUp = { moved with completion := none }.rowUp := rfl
    rw [hup, rowUp.eq_def]
    dsimp only
    rw [hcaret, hrow]
  rw [happly]
  exact movesToRow_moveToRow h hcolumn (List.getElem?_eq_getElem hlt)

lemma onRow_of_isCaret {cursor : Cursor} (hrow : editor.displayRows[i]? = some row)
    (hcursor : cursor = ⟨row.1.line, row.1.start + position⟩)
    (hcaret : IsCaret (editor.rowText row) row.2 position) : onRow cursor row := by
  rw [IsCaret, length_rowText hrow] at hcaret
  rw [hcursor]
  simp only [onRow, decide_true, Bool.true_and, Nat.le_add_right, Bool.or_eq_true,
    decide_eq_true_eq]
  obtain hlt | ⟨-, hlast⟩ := hcaret
  · exact Or.inl (by omega)
  · exact Or.inr hlast

/-- A vertical move lands on its row exactly when the row reaches the column. -/
lemma lands_iff {answer : Outcome × Editor} (h : MovesToRow editor i answer)
    (hrow : editor.displayRows[i]? = some row) :
    Lands prompt editor i answer ↔ Reaches (editor.rowText row) row.2 editor.remembered := by
  obtain ⟨row', position, hrow', hstops, hchanged, halike, hcursor⟩ := h
  obtain rfl : row' = row := Option.some.inj (hrow'.symm.trans hrow)
  rw [← isLargest_iff hstops]
  constructor
  · rintro ⟨-, -, -, row, other, hsame, hcursor', hlargest⟩
    obtain rfl : row = row' := Option.some.inj (hsame.symm.trans hrow)
    have hcolumn := congrArg Cursor.column (hcursor.symm.trans hcursor')
    obtain rfl : position = other := Nat.add_left_cancel hcolumn
    exact hlargest
  · intro hlargest
    have hon := onRow_of_isCaret hrow hcursor hlargest.1
    rw [← halike.displayRows] at hrow
    exact ⟨hchanged, halike.lines, (display_line halike.caret).trans (rowIndex_eq hrow hon),
      row', position, hrow', hcursor, hlargest⟩

lemma Alike.refl (h : editor.cursor.line < editor.lines.length) : Alike editor editor :=
  ⟨rfl, rfl, rfl, h⟩

/-- A vertical move back to the row of the caret returns to the caret exactly when it stops
there. -/
lemma returns_iff {answer : Outcome × Editor} (h : MovesToRow editor i answer)
    (hrow : editor.displayRows[i]? = some row) (hon : onRow editor.cursor row) :
    answer.2.cursor = editor.cursor ↔
      Stops (editor.rowText row) editor.remembered (editor.cursor.column - row.1.start) := by
  obtain ⟨row', position, hrow', hstops, -, -, hcursor⟩ := h
  obtain rfl : row' = row := Option.some.inj (hrow'.symm.trans hrow)
  simp only [onRow, Bool.and_eq_true, decide_eq_true_eq] at hon
  obtain ⟨⟨hline, hstart⟩, -⟩ := hon
  rw [hcursor]
  constructor
  · intro heq
    have hcolumn : row'.1.start + position = editor.cursor.column := congrArg Cursor.column heq
    rwa [← hcolumn, Nat.add_sub_cancel_left]
  · intro hown
    rw [hstops.unique hown, Nat.add_sub_cancel' hstart, ← hline]

/-! ### Climbing -/

/-- Behind moves that each land on the row above. -/
lemma alike_climb (h : editor.cursor.line < editor.lines.length) {k : ℕ}
    (hk : k ≤ editor.rowIndex) (hup : ∀ j < k, Lands prompt editor (editor.rowIndex - (j + 1))
      ((editor.climb alphanumeric j).apply alphanumeric .moveUp)) :
    Alike editor (editor.climb alphanumeric k) ∧
      (editor.climb alphanumeric k).rowIndex = editor.rowIndex - k := by
  induction k with
  | zero => exact ⟨Alike.refl h, rfl⟩
  | succ k ih =>
    obtain ⟨halike, hindex⟩ := ih ((Nat.le_succ k).trans hk)
      fun j hj => hup j (hj.trans (Nat.lt_succ_self k))
    have hmoves := @movesToRow_up alphanumeric editor _ (editor.rowIndex - (k + 1)) halike
      (by omega)
    obtain ⟨_, _, -, -, -, halike', -⟩ := hmoves
    have hshown := (hup k (Nat.lt_succ_self k)).shown
    exact ⟨halike', (display_line halike'.caret).symm.trans hshown⟩

lemma lands_climb_iff (h : editor.cursor.line < editor.lines.length) {k : ℕ}
    (hk : k < editor.rowIndex) (hup : ∀ j < k, Lands prompt editor (editor.rowIndex - (j + 1))
      ((editor.climb alphanumeric j).apply alphanumeric .moveUp))
    (hrow : editor.displayRows[editor.rowIndex - (k + 1)]? = some row) :
    Lands prompt editor (editor.rowIndex - (k + 1))
      ((editor.climb alphanumeric k).apply alphanumeric .moveUp) ↔
        Reaches (editor.rowText row) row.2 editor.remembered := by
  obtain ⟨halike, hindex⟩ := alike_climb h hk.le hup
  exact lands_iff (movesToRow_up halike (by omega)) hrow

/-- **Every move up lands** exactly when each row above reaches the column. -/
lemma climbs_iff (h : editor.cursor.line < editor.lines.length) :
    (∀ k < editor.rowIndex, Lands prompt editor (editor.rowIndex - (k + 1))
      ((editor.climb alphanumeric k).apply alphanumeric .moveUp)) ↔
    ∀ i row, editor.displayRows[i]? = some row → i < editor.rowIndex →
      Reaches (editor.rowText row) row.2 editor.remembered := by
  constructor
  · intro hup i row hrow hi
    have hsame : editor.rowIndex - (editor.rowIndex - 1 - i + 1) = i := by omega
    have hlands := @lands_climb_iff alphanumeric prompt editor row h (editor.rowIndex - 1 - i)
      (by omega) (fun j hj => hup j (by omega)) (by rwa [hsame])
    exact hlands.1 (hup _ (by omega))
  · intro hrows k hk
    induction k using Nat.strong_induction_on with
    | _ k ih =>
      obtain ⟨own, hown, -⟩ := exists_onRow h
      have hlt := (List.getElem?_eq_some_iff.1 hown).1
      obtain ⟨row, hrow⟩ : ∃ row, editor.displayRows[editor.rowIndex - (k + 1)]? = some row :=
        ⟨_, List.getElem?_eq_getElem (by omega)⟩
      exact (lands_climb_iff h hk (fun j hj => ih j hj (hj.trans hk)) hrow).2
        (hrows _ _ hrow (by omega))

/-- A move up from the first row recalls. -/
lemma recalls_of_first (h : Alike editor moved) (hrow : moved.rowIndex = 0) :
    moved.apply alphanumeric .moveUp = { moved with completion := none }.recallOlder := by
  obtain ⟨column, -, hcaret⟩ := caretRow_remembered h
  have hup : moved.apply alphanumeric .moveUp = { moved with completion := none }.rowUp := rfl
  rw [hup, rowUp.eq_def]
  dsimp only
  rw [hcaret, hrow]

/-! ### Round trips -/

/-- **Vertical motion is row motion** exactly when the rows above and the next one reach the column
that is remembered, and the caret is where motion stops in its row. -/
theorem rowMotion_iff (h : editor.cursor.line < editor.lines.length) :
    RowMotion alphanumeric prompt editor ↔ Parked prompt editor := by
  obtain ⟨own, hown, hon⟩ := exists_onRow h
  have hshown : (editor.display prompt).cursor.line = editor.rowIndex := display_line h
  have hlt := (List.getElem?_eq_some_iff.1 hown).1
  have hdown : ∀ row, editor.displayRows[editor.rowIndex + 1]? = some row →
      (Lands prompt editor (editor.rowIndex + 1) (editor.apply alphanumeric .moveDown) ↔
        Reaches (editor.rowText row) row.2 editor.remembered) := fun row hrow =>
    lands_iff (movesToRow_down (Alike.refl h) (List.getElem?_eq_some_iff.1 hrow).1) hrow
  have hdownUp : editor.rowIndex + 1 < editor.displayRows.length →
      Lands prompt editor (editor.rowIndex + 1) (editor.apply alphanumeric .moveDown) →
        (((editor.apply alphanumeric .moveDown).2.apply alphanumeric .moveUp).2.cursor =
          editor.cursor ↔
        Stops (editor.rowText own) editor.remembered (editor.cursor.column - own.1.start)) := by
    intro hnext hlands
    obtain ⟨_, _, -, -, -, halike, -⟩ :=
      @movesToRow_down alphanumeric editor editor (Alike.refl h) hnext
    have hindex := (display_line halike.caret).symm.trans hlands.shown
    exact returns_iff (movesToRow_up halike hindex) hown hon
  have hupDown : 0 < editor.rowIndex →
      Lands prompt editor (editor.rowIndex - 1) (editor.apply alphanumeric .moveUp) →
        (((editor.apply alphanumeric .moveUp).2.apply alphanumeric .moveDown).2.cursor =
          editor.cursor ↔
        Stops (editor.rowText own) editor.remembered (editor.cursor.column - own.1.start)) := by
    intro hpos hlands
    obtain ⟨_, _, -, -, -, halike, -⟩ :=
      @movesToRow_up alphanumeric editor editor (editor.rowIndex - 1) (Alike.refl h) (by omega)
    have hindex := (display_line halike.caret).symm.trans hlands.shown
    have hsame : (editor.apply alphanumeric .moveUp).2.rowIndex + 1 = editor.rowIndex := by omega
    have hmoves := @movesToRow_down alphanumeric editor _ halike (by omega)
    rw [hsame] at hmoves
    exact returns_iff hmoves hown hon
  constructor
  · rintro ⟨hd, hup, -, hdu, hud⟩
    rw [hshown] at hd hup hdu hud
    refine ⟨fun i row hrow hi => ?_, fun hmany hreachable row hrow => ?_⟩
    · rw [hshown] at hi
      obtain hi | rfl := hi
      · exact (climbs_iff h).1 hup i row hrow hi
      · exact (hdown row hrow).1 (hd (List.getElem?_eq_some_iff.1 hrow).1)
    · rw [hshown] at hrow
      obtain rfl : row = own := Option.some.inj (hrow.symm.trans hown)
      by_cases hnext : editor.rowIndex + 1 < editor.displayRows.length
      · exact (hdownUp hnext (hd hnext)).1 (hdu hnext hreachable)
      · have hpos : 0 < editor.rowIndex := by omega
        exact (hupDown hpos (hup 0 hpos)).1 (hud hpos hreachable)
  · rintro ⟨hrows, hcaret⟩
    rw [hshown] at hrows hcaret
    have hup := (@climbs_iff alphanumeric prompt editor h).2
      fun i row hrow hi => hrows i row hrow (Or.inl hi)
    have hd : editor.rowIndex + 1 < editor.displayRows.length →
        Lands prompt editor (editor.rowIndex + 1) (editor.apply alphanumeric .moveDown) := by
      intro hnext
      obtain ⟨row, hrow⟩ : ∃ row, editor.displayRows[editor.rowIndex + 1]? = some row :=
        ⟨_, List.getElem?_eq_getElem hnext⟩
      exact (hdown row hrow).2 (hrows _ row hrow (Or.inr rfl))
    obtain ⟨halike, hfirst⟩ := alike_climb h le_rfl hup
    rw [Nat.sub_self] at hfirst
    constructor
    · rw [hshown]
      exact hd
    · rw [hshown]
      exact hup
    · rw [hshown]
      exact recalls_of_first halike hfirst
    · rw [hshown]
      exact fun hnext hreachable =>
        (hdownUp hnext (hd hnext)).2 (hcaret (by omega) hreachable own hown)
    · rw [hshown]
      exact fun hpos hreachable =>
        (hupDown hpos (hup 0 hpos)).2 (hcaret (by omega) hreachable own hown)

end Motion

/-! ### The line of the caret -/

/-- The caret is in a line of the buffer. -/
def Placed (editor : Editor) : Prop := editor.cursor.line < editor.lines.length

section Placed

variable {alphanumeric : Char → Bool} {editor : Editor}

lemma placed_spliceFirst (h : editor.Placed) (text : List Char) :
    (editor.spliceFirst text).Placed := by
  rw [spliceFirst]
  split_ifs
  · exact h
  · exact h.trans_eq (List.length_set).symm

lemma placed_splitLine (h : editor.Placed) : editor.splitLine.Placed := by
  have hle : editor.cursor.line + 1 ≤ (editor.lines.set editor.cursor.line
      (editor.line.take editor.cursor.column)).length := h.trans_eq (List.length_set).symm
  rw [Placed, splitLine]
  dsimp only
  rw [List.length_insertIdx_of_le_length hle]
  exact Nat.lt_succ_of_le hle

lemma placed_foldl (h : editor.Placed) (parts : List (List Char)) :
    (parts.foldl (fun editor part => editor.splitLine.spliceFirst part) editor).Placed := by
  induction parts generalizing editor with
  | nil => exact h
  | cons part parts ih => exact ih (placed_spliceFirst (placed_splitLine h) part)

lemma placed_insertStr (h : editor.Placed) (text : List Char) : (editor.insertStr text).Placed := by
  rw [insertStr]
  split
  · exact h
  · rename_i first parts _
    exact placed_foldl (placed_spliceFirst h first) parts

lemma placed_deleteBackward (h : editor.Placed) {deleted : Editor}
    (hdelete : editor.deleteBackward = some deleted) : deleted.Placed := by
  rw [deleteBackward] at hdelete
  split_ifs at hdelete with hcolumn hline
  · cases hdelete
    exact h.trans_eq (List.length_set).symm
  · cases hdelete
    rw [Placed] at h ⊢
    dsimp only
    rw [List.length_set, List.length_eraseIdx_of_lt h]
    omega

lemma placed_deleteAhead (h : editor.Placed) {deleted : Editor}
    (hdelete : editor.deleteAhead = some deleted) : deleted.Placed := by
  rw [deleteAhead] at hdelete
  split_ifs at hdelete with hcolumn hline
  · cases hdelete
    exact h.trans_eq (List.length_set).symm
  · cases hdelete
    rw [Placed] at h ⊢
    dsimp only
    rw [List.length_set, List.length_eraseIdx_of_lt (by omega)]
    omega

lemma placed_deleteToStart (h : editor.Placed) {deleted : Editor}
    (hdelete : editor.deleteToStart = some deleted) : deleted.Placed := by
  rw [deleteToStart] at hdelete
  split_ifs at hdelete
  cases hdelete
  exact h.trans_eq (List.length_set).symm

lemma placed_deleteToEnd (h : editor.Placed) {deleted : Editor}
    (hdelete : editor.deleteToEnd = some deleted) : deleted.Placed := by
  rw [deleteToEnd] at hdelete
  split_ifs at hdelete
  cases hdelete
  exact h.trans_eq (List.length_set).symm

lemma placed_deleteWord (h : editor.Placed) {deleted : Editor}
    (hdelete : editor.deleteWord alphanumeric = some deleted) : deleted.Placed := by
  rw [deleteWord] at hdelete
  split_ifs at hdelete
  · exact placed_deleteBackward h hdelete
  · cases hdelete
    exact h.trans_eq (List.length_set).symm

lemma placed_deletion {delete : Editor → Option Editor} (h : editor.Placed)
    (hdelete : ∀ {editor deleted : Editor}, editor.Placed → delete editor = some deleted →
      deleted.Placed) : (editor.deletion delete).2.Placed := by
  rw [deletion]
  cases hdeleted : delete editor.recallResetOnEdit with
  | some deleted => exact @hdelete editor.recallResetOnEdit deleted h hdeleted
  | none => exact h

lemma wordLeft_le {lines : List (List Char)} {line column : ℕ} :
    (wordLeft alphanumeric lines line column).line ≤ line := by
  fun_induction wordLeft alphanumeric lines line column with
  | case1 => exact le_rfl
  | case2 line ih => exact ih.trans (Nat.le_succ _)
  | case3 => exact le_rfl

lemma wordRight_lt {lines : List (List Char)} {line column : ℕ} (h : line < lines.length) :
    (wordRight alphanumeric lines line column).line < lines.length := by
  fun_induction wordRight alphanumeric lines line column with
  | case1 line column hend ih => exact ih hend.2
  | case2 => exact h

lemma placed_load (text : List Char) : (editor.load text).Placed := by
  have hpos : 0 < (text.splitOn '\n').length :=
    List.length_pos_iff.2 (List.splitOn_ne_nil _ _)
  rw [Placed, load, bufferEnd]
  exact Nat.sub_lt hpos Nat.one_pos

lemma placed_recallOlder (h : editor.Placed) : editor.recallOlder.2.Placed := by
  rw [recallOlder]
  split_ifs
  · exact h
  · exact placed_load _
  · exact placed_load _

lemma placed_recallNewer (h : editor.Placed) : editor.recallNewer.2.Placed := by
  rw [recallNewer]
  split
  · exact h
  · exact placed_load _
  · exact placed_load _

lemma placed_moveToRow (h : editor.Placed) (column target : ℕ) :
    (editor.moveToRow column target).2.Placed := by
  rw [moveToRow, Placed]
  dsimp only
  rw [List.getD_eq_getElem?_getD]
  cases hrow : (bufferRows editor.lines editor.width)[target]? with
  | none => exact (Nat.zero_le _).trans_lt h
  | some row =>
    obtain ⟨text, hline, -⟩ := mem_bufferRows (List.mem_of_getElem? hrow)
    exact (List.getElem?_eq_some_iff.1 hline).1

lemma placed_rowUp (h : editor.Placed) : editor.rowUp.2.Placed := by
  rw [rowUp.eq_def]
  split
  · exact placed_recallOlder h
  · exact placed_moveToRow h _ _

lemma placed_rowDown (h : editor.Placed) : editor.rowDown.2.Placed := by
  rw [rowDown]
  dsimp only
  split_ifs
  · exact placed_moveToRow h _ _
  · exact placed_recallNewer h

lemma placed_complete (h : editor.Placed) : editor.complete.2.Placed := by
  rw [complete]
  dsimp only
  split_ifs
  · exact h
  · exact h
  · split
    · exact h
    · split_ifs
      · exact h
      · exact (Nat.zero_le _).trans_lt (h.trans_eq (List.length_set).symm)

/-- **Every intent** leaves the caret in a line. -/
lemma placed_apply (h : editor.Placed) (intent : Intent) :
    (editor.apply alphanumeric intent).2.Placed := by
  have hclosed : (if intent = .complete then editor
      else { editor with completion := none }).Placed := by
    split_ifs <;> exact h
  rw [apply]
  generalize (if intent = .complete then editor
    else { editor with completion := none }) = closed at hclosed ⊢
  cases intent with
  | complete => exact placed_complete hclosed
  | insert c => exact @placed_insertStr closed.recallResetOnEdit hclosed [c]
  | paste text =>
    rw [dispatch]
    split_ifs
    · exact hclosed
    · exact @placed_insertStr closed.recallResetOnEdit hclosed text
  | insertNewline => exact @placed_splitLine closed.recallResetOnEdit hclosed
  | backspace => exact placed_deletion hclosed fun h => placed_deleteBackward h
  | deleteForward => exact placed_deletion hclosed fun h => placed_deleteAhead h
  | deleteToLineStart => exact placed_deletion hclosed fun h => placed_deleteToStart h
  | deleteToLineEnd => exact placed_deletion hclosed fun h => placed_deleteToEnd h
  | deleteWordBackward => exact placed_deletion hclosed fun h => placed_deleteWord h
  | moveLeft =>
    rw [dispatch, moveLeft]
    split_ifs
    · exact hclosed
    · exact (Nat.sub_le _ _).trans_lt hclosed
    · exact hclosed
  | moveRight =>
    rw [dispatch, moveRight]
    split_ifs with _ hnext
    · exact hclosed
    · exact hnext
    · exact hclosed
  | moveWordLeft => exact wordLeft_le.trans_lt hclosed
  | moveWordRight => exact wordRight_lt hclosed
  | moveLineStart => exact hclosed
  | moveLineEnd => exact hclosed
  | moveUp => exact placed_rowUp hclosed
  | moveDown => exact placed_rowDown hclosed
  | moveBufferStart => exact (Nat.zero_le _).trans_lt hclosed
  | moveBufferEnd => exact Nat.sub_lt ((Nat.zero_le _).trans_lt hclosed) Nat.one_pos
  | submit =>
    rw [dispatch, submit]
    split_ifs
    · exact hclosed
    · exact Nat.one_pos
    · exact Nat.one_pos
  | cancel =>
    rw [dispatch]
    split_ifs
    · exact hclosed
    · exact Nat.one_pos
  | noop => exact hclosed

lemma placed_run (h : editor.Placed) (ops : List Op) : (editor.run alphanumeric ops).Placed := by
  induction ops generalizing editor with
  | nil => exact h
  | cons op ops ih =>
    refine ih ?_
    cases op with
    | intent intent => exact placed_apply h intent
    | setWidth | setCompletions => exact h

end Placed

/-- **Vertical motion behind any run** is row motion exactly when the caret is parked: the editor is
anything that intents, widths and completions lead to. -/
theorem rowMotion_run_iff (alphanumeric : Char → Bool) (prompt : List Char) (width : ℕ)
    (ops : List Op) :
    RowMotion alphanumeric prompt (run alphanumeric (withWidth width) ops) ↔
      Parked prompt (run alphanumeric (withWidth width) ops) :=
  rowMotion_iff (placed_run (show (withWidth width).Placed from Nat.one_pos) ops)

/-- A move up from the end of a line of two full rows stays in its row: the end of the first row is
the start of the second one. -/
theorem full_rows_stay : ¬∀ (alphanumeric : Char → Bool) (prompt : List Char) (width : ℕ)
    (ops : List Op), RowMotion alphanumeric prompt (run alphanumeric (withWidth width) ops) := by
  intro h
  have hup := (h (fun _ => true) ['>', ' '] 3
    [.intent (.paste ['a', 'b', 'c', 'd', 'e', 'f'])]).up 0 (by decide +kernel)
  exact absurd hup.shown (by decide +kernel)

end Editor

end Rupi.Tui
