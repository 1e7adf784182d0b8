import Rupi.Tui.EditorRuns

/-!
The row that a caret is displayed on.

- `linesRows`: the display rows of some lines, each with whether it is the last of its line, built
  a line at a time; `displayRows_eq`: they are the rows that `display` walks over.
- `Before`: the order of the rows; `findIdx_eq_of_onRow`: a caret is on one row only.
- `exists_onRow`: a caret of the lines is on some row.
- `honest_apply`: an intent that answers so shows nothing differently.
- `caretRow_eq`: the row that `caret_row` finds is the one that `display` shows.
-/

namespace Rupi.Tui

open Editor

/-- The rows of a line, and whether each is the last of its line. -/
def flaggedRows (line : ℕ) : List (ℕ × ℕ) → List (Row × Bool)
  | [] => []
  | [span] => [(⟨line, span.1, span.2⟩, true)]
  | span :: next :: spans => (⟨line, span.1, span.2⟩, false) :: flaggedRows line (next :: spans)

/-- The rows of lines, of which the first has a number. -/
def linesRows (width : ℕ) : ℕ → List (List Char) → List (Row × Bool)
  | _, [] => []
  | line, text :: lines => flaggedRows line (lineRows text width) ++ linesRows width (line + 1) lines

section Rows

variable {width line : ℕ} {lines : List (List Char)} {spans : List (ℕ × ℕ)}
  {rows : List (Row × Bool)} {row : Row × Bool} {cursor : Cursor}

lemma flaggedRows_eq (spans : List (ℕ × ℕ)) (n : ℕ) :
    (spans.zipIdx n).map (fun ((start, stop), index) =>
      ((⟨line, start, stop⟩ : Row), decide (index + 1 = n + spans.length))) =
        flaggedRows line spans := by
  induction spans generalizing n with
  | nil => rfl
  | cons span spans ih =>
    cases spans with
    | nil => simp [flaggedRows]
    | cons next spans =>
      have hrest := ih (n + 1)
      rw [List.zipIdx_cons, List.map_cons, flaggedRows, ← hrest]
      have hlength : n + 1 + (next :: spans).length = n + (span :: next :: spans).length := by
        simp only [List.length_cons]
        omega
      rw [hlength]
      have hflag : decide (n + 1 = n + (span :: next :: spans).length) = false := by
        simp only [List.length_cons]
        exact decide_eq_false (by omega)
      exact congrArg (fun flag => ((⟨line, span.1, span.2⟩ : Row), flag) :: _) hflag

lemma linesRows_eq (lines : List (List Char)) (line : ℕ) :
    ((lines.zipIdx line).flatMap fun (text, line) =>
      (lineRows text width).zipIdx.map fun ((start, stop), index) =>
        ((⟨line, start, stop⟩ : Row), decide (index + 1 = (lineRows text width).length))) =
      linesRows width line lines := by
  induction lines generalizing line with
  | nil => rfl
  | cons text lines ih =>
    rw [List.zipIdx_cons, List.flatMap_cons, ih, linesRows]
    have hrows := @flaggedRows_eq line (lineRows text width) 0
    rw [Nat.zero_add] at hrows
    rw [← hrows]

lemma displayRows_eq (editor : Editor) :
    editor.displayRows = linesRows editor.width 0 editor.lines :=
  linesRows_eq editor.lines 0

lemma map_fst_flaggedRows (spans : List (ℕ × ℕ)) :
    (flaggedRows line spans).map Prod.fst = spans.map fun (start, stop) => ⟨line, start, stop⟩ := by
  fun_induction flaggedRows line spans with
  | case1 => rfl
  | case2 => rfl
  | case3 span next spans ih =>
    rw [List.map_cons, ih]
    rfl

/-- Without the flags the rows are those of `buffer_rows`. -/
lemma map_fst_linesRows (lines : List (List Char)) (line : ℕ) :
    (linesRows width line lines).map Prod.fst = (lines.zipIdx line).flatMap fun (text, line) =>
      (lineRows text width).map fun (start, stop) => ⟨line, start, stop⟩ := by
  induction lines generalizing line with
  | nil => rfl
  | cons text lines ih =>
    rw [linesRows, List.map_append, map_fst_flaggedRows, ih, List.zipIdx_cons, List.flatMap_cons]

lemma map_fst_displayRows (editor : Editor) :
    editor.displayRows.map Prod.fst = bufferRows editor.lines editor.width := by
  rw [displayRows_eq, map_fst_linesRows]
  rfl

/-! ### The order of the rows -/

/-- A row stands before another: in an earlier line, or in an earlier part of the line. -/
def Before (row next : Row × Bool) : Prop :=
  row.1.line < next.1.line ∨
    (row.1.line = next.1.line ∧ row.2 = false ∧ row.1.stop ≤ next.1.start)

/-- A row of a line of a length: it is in the line, and the last one ends with it. -/
structure RowOf (line length : ℕ) (row : Row × Bool) : Prop where
  line : row.1.line = line
  le : row.1.start ≤ row.1.stop
  stop : row.1.stop ≤ length
  last : row.2 → row.1.stop = length
  wide : row.2 = false → row.1.start < row.1.stop

lemma rowOf_flaggedRows {start length : ℕ} (h : Tiles start length spans)
    (hrow : row ∈ flaggedRows line spans) : RowOf line length row ∧ start ≤ row.1.start := by
  fun_induction flaggedRows line spans generalizing start with
  | case1 => exact h.elim
  | case2 span =>
    obtain ⟨rfl, hle⟩ := h
    cases List.mem_singleton.1 hrow
    exact ⟨⟨rfl, hle, le_rfl, fun _ => rfl, nofun⟩, le_rfl⟩
  | case3 span next spans ih =>
    obtain ⟨rfl, hlt, hrest⟩ := h
    obtain rfl | hrow := List.mem_cons.1 hrow
    · exact ⟨⟨rfl, hlt.le, hrest.le, nofun, fun _ => hlt⟩, le_rfl⟩
    · obtain ⟨hof, hstart⟩ := ih hrest hrow
      exact ⟨hof, hlt.le.trans hstart⟩

lemma pairwise_flaggedRows {start stop : ℕ} (h : Tiles start stop spans) :
    (flaggedRows line spans).Pairwise Before := by
  fun_induction flaggedRows line spans generalizing start with
  | case1 => exact h.elim
  | case2 => exact List.pairwise_singleton _ _
  | case3 span next spans ih =>
    obtain ⟨-, -, hrest⟩ := h
    refine List.pairwise_cons.2 ⟨fun later hlater => Or.inr ?_, ih hrest⟩
    obtain ⟨hof, hstart⟩ := rowOf_flaggedRows hrest hlater
    exact ⟨hof.line.symm, rfl, hstart⟩

/-- A place of a line is on one of its rows. -/
lemma exists_onRow_flaggedRows {start stop column : ℕ} (h : Tiles start stop spans)
    (hstart : start ≤ column) :
    ∃ row ∈ flaggedRows line spans, onRow ⟨line, column⟩ row := by
  fun_induction flaggedRows line spans generalizing start with
  | case1 => exact h.elim
  | case2 span =>
    obtain ⟨rfl, -⟩ := h
    refine ⟨_, List.mem_singleton_self _, ?_⟩
    simp only [onRow, decide_true, Bool.or_true, Bool.and_true, hstart]
  | case3 span next spans ih =>
    obtain ⟨rfl, -, hrest⟩ := h
    by_cases hcolumn : column < span.2
    · refine ⟨_, List.mem_cons_self, ?_⟩
      simp only [onRow, decide_true, Bool.true_and, hstart, hcolumn, Bool.true_or]
    · obtain ⟨row, hrow, hon⟩ := ih hrest (not_lt.1 hcolumn)
      exact ⟨row, List.mem_cons_of_mem _ hrow, hon⟩

/-! ### The rows of all lines -/

lemma rowOf_linesRows (hrow : row ∈ linesRows width line lines) :
    ∃ n text, lines[n]? = some text ∧ RowOf (line + n) text.length row ∧
      (row.1.start, row.1.stop) ∈ lineRows text width := by
  induction lines generalizing line with
  | nil => cases hrow
  | cons text lines ih =>
    obtain hrow | hrow := List.mem_append.1 hrow
    · refine ⟨0, text, rfl, (rowOf_flaggedRows (tiles_lineRows text width) hrow).1, ?_⟩
      have hspan := List.mem_map_of_mem (f := Prod.fst) hrow
      rw [map_fst_flaggedRows] at hspan
      obtain ⟨⟨start, stop⟩, hspan, heq⟩ := List.mem_map.1 hspan
      rw [← heq]
      exact hspan
    · obtain ⟨n, other, hline, hof, hspan⟩ := ih hrow
      refine ⟨n + 1, other, hline, ?_, hspan⟩
      rwa [Nat.add_right_comm, Nat.add_assoc] at hof

lemma le_line_of_mem (hrow : row ∈ linesRows width line lines) : line ≤ row.1.line := by
  obtain ⟨n, _, -, hof, -⟩ := rowOf_linesRows hrow
  rw [hof.line]
  exact Nat.le_add_right _ _

lemma pairwise_linesRows (lines : List (List Char)) (line : ℕ) :
    (linesRows width line lines).Pairwise Before := by
  induction lines generalizing line with
  | nil => exact List.Pairwise.nil
  | cons text lines ih =>
    rw [linesRows, List.pairwise_append]
    refine ⟨pairwise_flaggedRows (tiles_lineRows text width), ih _, fun row hrow next hnext => ?_⟩
    have hline := (rowOf_flaggedRows (tiles_lineRows text width) hrow).1.line
    have hnext := le_line_of_mem hnext
    exact Or.inl (by omega)

lemma exists_onRow_linesRows {n : ℕ} (hline : n < lines.length) (column : ℕ) :
    ∃ row ∈ linesRows width line lines, onRow ⟨line + n, column⟩ row := by
  induction lines generalizing line n with
  | nil => cases hline
  | cons first lines ih =>
    cases n with
    | zero =>
      obtain ⟨row, hrow, hon⟩ := @exists_onRow_flaggedRows line _ _ _ column
        (tiles_lineRows first width) (Nat.zero_le _)
      exact ⟨row, List.mem_append_left _ hrow, hon⟩
    | succ n =>
      obtain ⟨row, hrow, hon⟩ := @ih (line + 1) n (Nat.lt_of_succ_lt_succ hline)
      rw [Nat.add_right_comm, Nat.add_assoc] at hon
      exact ⟨row, List.mem_append_right _ hrow, hon⟩

/-! ### The row of a caret -/

/-- A caret is on one row only. -/
lemma findIdx_eq_of_onRow (hrows : rows.Pairwise Before) {i : ℕ} (hi : rows[i]? = some row)
    (hon : onRow cursor row) : rows.findIdx (onRow cursor) = i := by
  obtain ⟨hlt, rfl⟩ := List.getElem?_eq_some_iff.1 hi
  refine (List.findIdx_eq hlt).2 ⟨hon, fun j hj => ?_⟩
  have hbefore := List.pairwise_iff_getElem.1 hrows j i (hj.trans hlt) hlt hj
  rw [← Bool.not_eq_true]
  intro hearlier
  simp only [onRow, Bool.and_eq_true, Bool.or_eq_true, decide_eq_true_eq] at hon hearlier
  obtain hline | ⟨-, hflag, hstop⟩ := hbefore
  · omega
  · rw [hflag] at hearlier
    simp only [Bool.false_eq_true, or_false] at hearlier
    omega

/-- Each row is the last of its line when the next row is of another line. -/
def Flagged : List (Row × Bool) → Prop
  | [] => True
  | row :: rows =>
      row.2 = (rows.map Prod.fst).head?.all (fun next => next.line ≠ row.1.line) ∧ Flagged rows

lemma flagged_append (hspans : spans ≠ []) (hrows : Flagged rows)
    (hline : ∀ next ∈ rows, next.1.line ≠ line) : Flagged (flaggedRows line spans ++ rows) := by
  fun_induction flaggedRows line spans with
  | case1 => exact absurd rfl hspans
  | case2 span =>
    refine ⟨?_, hrows⟩
    cases rows with
    | nil => rfl
    | cons next rows =>
      have hnext := hline next List.mem_cons_self
      exact (decide_eq_true hnext).symm
  | case3 span next spans ih =>
    refine ⟨?_, ih (List.cons_ne_nil _ _)⟩
    have hhead : ((flaggedRows line (next :: spans) ++ rows).map Prod.fst).head?.all
        (fun other => other.line ≠ line) = false := by
      cases spans <;> simp [flaggedRows]
    exact hhead.symm

lemma flagged_linesRows (lines : List (List Char)) (line : ℕ) :
    Flagged (linesRows width line lines) := by
  induction lines generalizing line with
  | nil => trivial
  | cons text lines ih =>
    have hspans : lineRows text width ≠ [] := fun hnil => by
      have htiles := tiles_lineRows text width
      rw [hnil] at htiles
      exact htiles
    refine flagged_append hspans (ih _) fun next hnext => ?_
    have hle := le_line_of_mem hnext
    omega

lemma caretRowFrom_eq (hrows : Flagged rows) (lines : List (List Char)) (index : ℕ)
    (hon : ∃ row ∈ rows, onRow cursor row) :
    ∃ row, rows[rows.findIdx (onRow cursor)]? = some row ∧
      caretRowFrom lines cursor index (rows.map Prod.fst) = (index + rows.findIdx (onRow cursor),
        displayWidth (between (lines.getD row.1.line []) row.1.start cursor.column)) := by
  induction rows generalizing index with
  | nil =>
    obtain ⟨row, hrow, -⟩ := hon
    cases hrow
  | cons first rows ih =>
    obtain ⟨hflag, hrest⟩ := hrows
    have hcondition : (first.1.line = cursor.line ∧ first.1.start ≤ cursor.column ∧
        (cursor.column < first.1.stop ∨
          (rows.map Prod.fst).head?.all (fun next => next.line ≠ first.1.line))) ↔
        onRow cursor first := by
      rw [← hflag]
      simp only [onRow, Bool.and_eq_true, Bool.or_eq_true, decide_eq_true_eq, and_assoc,
        eq_comm (a := first.1.line)]
    rw [List.map_cons, caretRowFrom, List.findIdx_cons]
    by_cases hfirst : onRow cursor first
    · rw [if_pos (hcondition.2 hfirst), hfirst]
      exact ⟨first, rfl, rfl⟩
    · rw [if_neg fun h => hfirst (hcondition.1 h), Bool.eq_false_iff.2 hfirst]
      have hlater : ∃ row ∈ rows, onRow cursor row := by
        obtain ⟨row, hrow, hon⟩ := hon
        obtain rfl | hrow := List.mem_cons.1 hrow
        · exact absurd hon hfirst
        · exact ⟨row, hrow, hon⟩
      obtain ⟨row, hrow, hcaret⟩ := ih hrest (index + 1) hlater
      refine ⟨row, hrow, hcaret.trans ?_⟩
      rw [Nat.add_assoc, Nat.add_comm 1]
      rfl

lemma find_zipIdx (p : Row × Bool → Bool) (rows : List (Row × Bool)) (n : ℕ) :
    (rows.zipIdx n).find? (fun (row, _) => p row) =
      rows[rows.findIdx p]?.map fun row => (row, n + rows.findIdx p) := by
  induction rows generalizing n with
  | nil => rfl
  | cons first rows ih =>
    rw [List.zipIdx_cons, List.find?_cons, List.findIdx_cons]
    cases hfirst : p first with
    | true =>
      simp only [hfirst, cond_true]
      rfl
    | false =>
      simp only [hfirst, cond_false, ih, List.getElem?_cons_succ, Nat.add_assoc, Nat.add_comm 1]

end Rows

/-! ### The caret of an editor -/

namespace Editor

/-- The row that the caret is on. -/
def rowIndex (editor : Editor) : ℕ := editor.displayRows.findIdx (onRow editor.cursor)

section Carets

variable {editor : Editor}

lemma exists_onRow (h : editor.cursor.line < editor.lines.length) :
    ∃ row, editor.displayRows[editor.rowIndex]? = some row ∧ onRow editor.cursor row := by
  have hon := @exists_onRow_linesRows editor.width 0 _ _ h editor.cursor.column
  rw [← displayRows_eq, Nat.zero_add] at hon
  exact ⟨_, List.findIdx_getElem?_eq_getElem_of_exists hon, List.findIdx_getElem⟩

lemma rowIndex_eq {i : ℕ} {row : Row × Bool} (hi : editor.displayRows[i]? = some row)
    (hon : onRow editor.cursor row) : editor.rowIndex = i := by
  rw [displayRows_eq] at hi
  rw [rowIndex, displayRows_eq]
  exact findIdx_eq_of_onRow (pairwise_linesRows _ _) hi hon

/-- **The caret is shown** on its row, at the columns in front of it. -/
theorem display_cursor (h : editor.cursor.line < editor.lines.length) (prompt : List Char) :
    ∃ row, editor.displayRows[editor.rowIndex]? = some row ∧
      (editor.display prompt).cursor = ⟨editor.rowIndex,
        displayWidth (decoration prompt editor.rowIndex) +
          displayWidth (between (editor.lines.getD row.1.line []) row.1.start
            editor.cursor.column)⟩ := by
  obtain ⟨row, hrow, -⟩ := exists_onRow h
  refine ⟨row, hrow, ?_⟩
  have hfind := find_zipIdx (onRow editor.cursor) editor.displayRows 0
  rw [Nat.zero_add] at hfind
  rw [display]
  dsimp only
  rw [hfind]
  rw [rowIndex] at hrow ⊢
  rw [hrow]
  rfl

/-- `caret_row` finds the row that the caret is shown on. -/
theorem caretRow_eq (h : editor.cursor.line < editor.lines.length) :
    caretRow (bufferRows editor.lines editor.width) editor.lines editor.cursor =
      (editor.rowIndex, (editor.display []).cursor.column) := by
  obtain ⟨row, hrow, hdisplay⟩ := display_cursor h []
  obtain ⟨row', hrow', hon⟩ := exists_onRow h
  have hflags := @flagged_linesRows editor.width editor.lines 0
  rw [← displayRows_eq] at hflags
  obtain ⟨found, hfound, hcaret⟩ := caretRowFrom_eq hflags editor.lines 0
    ⟨row', List.mem_of_getElem? hrow', hon⟩
  rw [map_fst_displayRows, Nat.zero_add] at hcaret
  obtain rfl : found = row := Option.some.inj (hfound.symm.trans hrow)
  have hempty : displayWidth (decoration [] editor.rowIndex) = 0 := by
    rw [decoration]
    split_ifs <;> rfl
  rw [caretRow, hcaret, hdisplay, hempty, Nat.zero_add]
  rfl

end Carets

/-! ### What is shown -/

/-- An editor that shows what another one shows. -/
structure Same (editor other : Editor) : Prop where
  lines : other.lines = editor.lines
  cursor : other.cursor = editor.cursor
  width : other.width = editor.width

/-- An answer that leaves what is shown as it is when it says so. -/
def Honest (editor : Editor) (answer : Outcome × Editor) : Prop :=
  answer.1 = .unchanged → Same editor answer.2

section Same

variable {alphanumeric : Char → Bool} {editor other : Editor} {intent : Intent}

lemma Same.displayRows (h : Same editor other) : other.displayRows = editor.displayRows := by
  rw [displayRows_eq, displayRows_eq, h.lines, h.width]

lemma Same.display (h : Same editor other) (prompt : List Char) :
    other.display prompt = editor.display prompt := by
  rw [Editor.display, Editor.display, h.displayRows, h.lines, h.cursor]

lemma honest_changed {answer : Editor} : Honest editor (.changed, answer) := by
  rintro ⟨⟩

lemma honest_deletion (delete : Editor → Option Editor) : Honest editor (editor.deletion delete) := by
  rw [deletion]
  split
  · exact honest_changed
  · exact fun _ => ⟨rfl, rfl, rfl⟩

lemma honest_placeCaret (cursor : Cursor) : Honest editor (editor.placeCaret cursor) := by
  intro h
  rw [placeCaret, moved] at h ⊢
  dsimp only at h ⊢
  split_ifs at h with hcursor
  exact ⟨rfl, hcursor, rfl⟩

lemma honest_recallOlder : Honest editor editor.recallOlder := by
  rw [recallOlder]
  split_ifs
  · exact fun _ => ⟨rfl, rfl, rfl⟩
  · exact honest_changed
  · exact honest_changed

lemma honest_recallNewer : Honest editor editor.recallNewer := by
  rw [recallNewer]
  split
  · exact fun _ => ⟨rfl, rfl, rfl⟩
  · exact honest_changed
  · exact honest_changed

lemma honest_rowUp : Honest editor editor.rowUp := by
  rw [rowUp.eq_def]
  split
  · exact honest_recallOlder
  · exact honest_changed

lemma honest_rowDown : Honest editor editor.rowDown := by
  rw [rowDown]
  dsimp only
  split_ifs
  · exact honest_changed
  · exact honest_recallNewer

lemma honest_complete : Honest editor editor.complete := by
  rw [complete]
  dsimp only
  split_ifs
  · exact fun _ => ⟨rfl, rfl, rfl⟩
  · exact fun _ => ⟨rfl, rfl, rfl⟩
  · split
    · exact fun _ => ⟨rfl, rfl, rfl⟩
    · split_ifs
      · exact fun _ => ⟨rfl, rfl, rfl⟩
      · exact honest_changed

/-- **Nothing is shown differently** behind an intent that answers so. -/
theorem honest_apply (editor : Editor) (intent : Intent) :
    Honest editor (editor.apply alphanumeric intent) := by
  have hclosed : ∀ answer, Honest { editor with completion := none } answer → Honest editor answer :=
    fun answer h hunchanged => ⟨(h hunchanged).lines, (h hunchanged).cursor, (h hunchanged).width⟩
  cases intent with
  | complete => exact honest_complete
  | insert | insertNewline => exact honest_changed
  | paste text =>
    refine hclosed _ ?_
    rw [apply, if_neg (Intent.noConfusion), dispatch]
    split_ifs
    · exact fun _ => ⟨rfl, rfl, rfl⟩
    · exact honest_changed
  | backspace | deleteForward | deleteToLineStart | deleteToLineEnd | deleteWordBackward =>
    exact hclosed _ (honest_deletion _)
  | moveLeft =>
    refine hclosed _ ?_
    rw [apply, if_neg (by decide), dispatch, moveLeft]
    split_ifs
    · exact honest_changed
    · exact honest_changed
    · exact fun _ => ⟨rfl, rfl, rfl⟩
  | moveRight =>
    refine hclosed _ ?_
    rw [apply, if_neg (by decide), dispatch, moveRight]
    split_ifs
    · exact honest_changed
    · exact honest_changed
    · exact fun _ => ⟨rfl, rfl, rfl⟩
  | moveWordLeft | moveWordRight | moveLineStart | moveLineEnd | moveBufferStart | moveBufferEnd =>
    exact hclosed _ (honest_placeCaret _)
  | moveUp => exact hclosed _ honest_rowUp
  | moveDown => exact hclosed _ honest_rowDown
  | submit =>
    refine hclosed _ ?_
    rw [apply, if_neg (by decide), dispatch, submit]
    split_ifs
    · exact fun _ => ⟨rfl, rfl, rfl⟩
    · rintro ⟨⟩
    · rintro ⟨⟩
  | cancel =>
    refine hclosed _ ?_
    rw [apply, if_neg (by decide), dispatch]
    split_ifs
    · exact fun _ => ⟨rfl, rfl, rfl⟩
    · rintro ⟨⟩
  | noop => exact fun _ => ⟨rfl, rfl, rfl⟩

end Same

lemma display_cursor_le (editor : Editor) (prompt : List Char) :
    (editor.display prompt).cursor.line ≤ (editor.display prompt).rows.length := by
  have hlength : (editor.display prompt).rows.length = editor.displayRows.length := by
    rw [display, List.length_map, List.length_zipIdx]
  rw [hlength, display]
  dsimp only
  split
  · rename_i row last number hfind
    have hmem := List.mem_zipIdx_iff_getElem?.1 (List.mem_of_find?_eq_some hfind)
    exact (List.getElem?_eq_some_iff.1 hmem).1.le
  · exact Nat.zero_le _

end Editor

end Rupi.Tui
