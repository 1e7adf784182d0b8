import Rupi.Tui.Complete
import Rupi.Tui.Rows

/-!
The buffer that a user types into.

- `Editor`: lines, a caret, the column that vertical motion aims at, what was sent before and
  which of it is recalled, and what Tab is cycling through.
- `Editor.apply`: what an `Intent` does to it, and the `Outcome`.
- `Editor.display`: the rows to print and where the caret is among them.
- `run`: the editor behind a sequence of intents, resizes and lists of completions.

Which characters are alphanumeric is a parameter.
-/

namespace Rupi.Tui

/-- `Intent`. -/
inductive Intent where
  | insert (c : Char)
  | paste (text : List Char)
  | insertNewline
  | backspace
  | deleteForward
  | deleteToLineStart
  | deleteToLineEnd
  | deleteWordBackward
  | moveLeft
  | moveRight
  | moveWordLeft
  | moveWordRight
  | moveLineStart
  | moveLineEnd
  | moveUp
  | moveDown
  | moveBufferStart
  | moveBufferEnd
  | submit
  | complete
  | cancel
  | noop
  deriving DecidableEq, Repr

/-- `Outcome`. -/
inductive Outcome where
  | unchanged
  | changed
  | submit (text : List Char)
  | cancelled
  deriving DecidableEq, Repr

/-- `Editor`. -/
structure Editor where
  lines : List (List Char)
  cursor : Cursor
  desired : Option ℕ
  width : ℕ
  history : List (List Char)
  recalled : Option ℕ
  draft : Option (List Char)
  completions : Completions
  completion : Option (List Char × ℕ)
  deriving DecidableEq, Repr

namespace Editor

/-- `Editor::with_width`. -/
def withWidth (width : ℕ) : Editor where
  lines := [[]]
  cursor := ⟨0, 0⟩
  desired := none
  width := max width 1
  history := []
  recalled := none
  draft := none
  completions := ⟨[]⟩
  completion := none

/-- `Editor::set_width`. -/
def setWidth (editor : Editor) (width : ℕ) : Editor :=
  { editor with width := max width 1, desired := none }

/-- `Editor::set_completions`. -/
def setCompletions (editor : Editor) (words : List (List Char)) : Editor :=
  { editor with completions := Completions.new words, completion := none }

/-- `Editor::text`. -/
def text (editor : Editor) : List Char := ['\n'].intercalate editor.lines

/-- `Editor::is_empty`. -/
def isEmpty (editor : Editor) : Bool := editor.lines = [[]]

/-- The line the caret is in. -/
def line (editor : Editor) : List Char := editor.lines.getD editor.cursor.line []

/-- A caret answer: whether it moved. -/
def moved (before after : Editor) : Outcome × Editor :=
  (if after.cursor = before.cursor then .unchanged else .changed, after)

/-! ### Edits -/

/-- `splice_first`. -/
def spliceFirst (editor : Editor) (text : List Char) : Editor :=
  if text.isEmpty then editor
  else
    { editor with
      lines := editor.lines.set editor.cursor.line
        (editor.line.take editor.cursor.column ++ text ++ editor.line.drop editor.cursor.column)
      cursor := ⟨editor.cursor.line, editor.cursor.column + text.length⟩ }

/-- `split_line`. -/
def splitLine (editor : Editor) : Editor :=
  { editor with
    lines := (editor.lines.set editor.cursor.line
      (editor.line.take editor.cursor.column)).insertIdx (editor.cursor.line + 1)
        (editor.line.drop editor.cursor.column)
    cursor := ⟨editor.cursor.line + 1, 0⟩ }

/-- `insert_str`. -/
def insertStr (editor : Editor) (text : List Char) : Editor :=
  match (text.filter (· ≠ '\r')).splitOn '\n' with
  | [] => editor
  | first :: parts => parts.foldl (fun editor part => editor.splitLine.spliceFirst part)
      (editor.spliceFirst first)

/-- `delete_backward`. -/
def deleteBackward (editor : Editor) : Option Editor :=
  if 0 < editor.cursor.column then
    some { editor with
      lines := editor.lines.set editor.cursor.line (editor.line.eraseIdx (editor.cursor.column - 1))
      cursor := ⟨editor.cursor.line, editor.cursor.column - 1⟩ }
  else if editor.cursor.line = 0 then none
  else
    let above := editor.lines.getD (editor.cursor.line - 1) []
    some { editor with
      lines := (editor.lines.eraseIdx editor.cursor.line).set (editor.cursor.line - 1)
        (above ++ editor.line)
      cursor := ⟨editor.cursor.line - 1, above.length⟩ }

/-- `delete_ahead`. -/
def deleteAhead (editor : Editor) : Option Editor :=
  if editor.cursor.column < editor.line.length then
    some { editor with
      lines := editor.lines.set editor.cursor.line (editor.line.eraseIdx editor.cursor.column) }
  else if editor.lines.length ≤ editor.cursor.line + 1 then none
  else
    some { editor with
      lines := (editor.lines.eraseIdx (editor.cursor.line + 1)).set editor.cursor.line
        (editor.line ++ editor.lines.getD (editor.cursor.line + 1) []) }

/-- `delete_to_start`. -/
def deleteToStart (editor : Editor) : Option Editor :=
  if editor.cursor.column = 0 then none
  else
    some { editor with
      lines := editor.lines.set editor.cursor.line (editor.line.drop editor.cursor.column)
      cursor := ⟨editor.cursor.line, 0⟩ }

/-- `delete_to_end`. -/
def deleteToEnd (editor : Editor) : Option Editor :=
  if editor.line.length ≤ editor.cursor.column then none
  else
    some { editor with
      lines := editor.lines.set editor.cursor.line (editor.line.take editor.cursor.column) }

section Words

variable (alphanumeric : Char → Bool)

/-- `is_word_char`. -/
def isWordChar (c : Char) : Bool := alphanumeric c || c = '_'

/-- `word_boundary`. -/
def wordBoundary (line : List Char) (column : ℕ) : ℕ :=
  (((line.take column).rdropWhile (!isWordChar alphanumeric ·)).rdropWhile
    (isWordChar alphanumeric)).length

/-- `word_end`. -/
def wordEnd (line : List Char) (column : ℕ) : Option ℕ :=
  let rest := line.drop column
  let blank := rest.takeWhile (!isWordChar alphanumeric ·)
  let word := (rest.dropWhile (!isWordChar alphanumeric ·)).takeWhile (isWordChar alphanumeric)
  if 0 < blank.length + word.length then some (column + (blank.length + word.length)) else none

/-- `delete_word`. -/
def deleteWord (editor : Editor) : Option Editor :=
  if editor.cursor.column = 0 then editor.deleteBackward
  else
    let target := wordBoundary alphanumeric editor.line editor.cursor.column
    some { editor with
      lines := editor.lines.set editor.cursor.line
        (editor.line.take target ++ editor.line.drop editor.cursor.column)
      cursor := ⟨editor.cursor.line, target⟩ }

/-! ### Moves -/

/-- The loop of `move_word` to the left. -/
def wordLeft (lines : List (List Char)) : ℕ → ℕ → Cursor
  | 0, column => ⟨0, wordBoundary alphanumeric (lines.getD 0 []) column⟩
  | line + 1, column =>
      if column = 0 then wordLeft lines line (lines.getD line []).length
      else ⟨line + 1, wordBoundary alphanumeric (lines.getD (line + 1) []) column⟩

/-- The loop of `move_word` to the right. -/
def wordRight (lines : List (List Char)) (line column : ℕ) : Cursor :=
  if column = (lines.getD line []).length ∧ line + 1 < lines.length then
    wordRight lines (line + 1) 0
  else ⟨line, (wordEnd alphanumeric (lines.getD line []) column).getD column⟩
termination_by lines.length - line

/-- `move_left`. -/
def moveLeft (editor : Editor) : Outcome × Editor :=
  if 0 < editor.cursor.column then
    (.changed, { editor with
      desired := none, cursor := ⟨editor.cursor.line, editor.cursor.column - 1⟩ })
  else if 0 < editor.cursor.line then
    (.changed, { editor with
      desired := none
      cursor := ⟨editor.cursor.line - 1, (editor.lines.getD (editor.cursor.line - 1) []).length⟩ })
  else (.unchanged, { editor with desired := none })

/-- `move_right`. -/
def moveRight (editor : Editor) : Outcome × Editor :=
  if editor.cursor.column < editor.line.length then
    (.changed, { editor with
      desired := none, cursor := ⟨editor.cursor.line, editor.cursor.column + 1⟩ })
  else if editor.cursor.line + 1 < editor.lines.length then
    (.changed, { editor with desired := none, cursor := ⟨editor.cursor.line + 1, 0⟩ })
  else (.unchanged, { editor with desired := none })

/-- A move that places the caret, and forgets the column it aimed at. -/
def placeCaret (editor : Editor) (cursor : Cursor) : Outcome × Editor :=
  moved editor { editor with desired := none, cursor }

/-- `indent_width`. -/
def indentWidth (line : List Char) : ℕ := (line.takeWhile isWhitespace).length

/-- `move_line_start`. -/
def moveLineStart (editor : Editor) : Outcome × Editor :=
  let skip := indentWidth editor.line
  editor.placeCaret ⟨editor.cursor.line,
    if editor.cursor.column = 0 then editor.line.length
    else if editor.cursor.column ≤ skip then 0
    else skip⟩

/-- `move_line_end`. -/
def moveLineEnd (editor : Editor) : Outcome × Editor :=
  editor.placeCaret ⟨editor.cursor.line, editor.line.length⟩

/-- The end of the buffer. -/
def bufferEnd (lines : List (List Char)) : Cursor :=
  ⟨lines.length - 1, (lines.getLastD []).length⟩

/-- `load`. -/
def load (editor : Editor) (text : List Char) : Editor :=
  { editor with
    lines := text.splitOn '\n'
    cursor := bufferEnd (text.splitOn '\n')
    desired := none }

/-- The entry at a distance from the newest one. -/
def historyAt (history : List (List Char)) (distance : ℕ) : List Char :=
  history.getD (history.length - 1 - distance) []

/-- `recall` of older input. -/
def recallOlder (editor : Editor) : Outcome × Editor :=
  let next := editor.recalled.elim 0 (· + 1)
  if editor.history.length ≤ next then (.unchanged, editor)
  else
    (.changed, { editor with
      draft := if editor.recalled.isNone then some editor.text else editor.draft
      recalled := some next }.load (historyAt editor.history next))

/-- `recall` of newer input. -/
def recallNewer (editor : Editor) : Outcome × Editor :=
  match editor.recalled with
  | none => (.unchanged, editor)
  | some 0 =>
      (.changed, { editor with draft := none, recalled := none }.load (editor.draft.getD []))
  | some (newer + 1) =>
      (.changed, { editor with recalled := some newer }.load (historyAt editor.history newer))

/-- `move_row` to a row. -/
def moveToRow (editor : Editor) (column target : ℕ) : Outcome × Editor :=
  let wanted := editor.desired.getD column
  let row := (bufferRows editor.lines editor.width).getD target ⟨0, 0, 0⟩
  (.changed, { editor with
    desired := some wanted
    cursor := ⟨row.line,
      columnAt (editor.lines.getD row.line []) row.start row.stop wanted⟩ })

/-- `move_row` up. -/
def rowUp (editor : Editor) : Outcome × Editor :=
  match caretRow (bufferRows editor.lines editor.width) editor.lines editor.cursor with
  | (0, _) => editor.recallOlder
  | (target + 1, column) => editor.moveToRow column target

/-- `move_row` down. -/
def rowDown (editor : Editor) : Outcome × Editor :=
  let rows := bufferRows editor.lines editor.width
  let (index, column) := caretRow rows editor.lines editor.cursor
  if index + 1 < rows.length then editor.moveToRow column (index + 1) else editor.recallNewer

/-! ### Completion -/

/-- `cycle_still_open`. -/
def cycleStillOpen (editor : Editor) (base word : List Char) : Bool :=
  base.isPrefixOf word ||
    (editor.completions.matching (withoutSlashes base)).contains (withoutSlashes word)

/-- The word that Tab started from, and how many presses it has had. -/
def cycle (editor : Editor) (word : List Char) : List Char × ℕ :=
  match editor.completion with
  | some (base, presses) =>
      if editor.cycleStillOpen base word then (base, presses + 1) else (word, 0)
  | none => (word, 0)

/-- `complete`. -/
def complete (editor : Editor) : Outcome × Editor :=
  let first := editor.lines.getD 0 []
  let word := first.takeWhile (!isWhitespace ·)
  if editor.completions.isEmpty then (.unchanged, editor)
  else if editor.cursor.line ≠ 0 ∨ editor.cursor.column ≠ word.length ∨ word.head? ≠ some '/' then
    (.unchanged, { editor with completion := none })
  else
    let (base, press) := editor.cycle word
    match editor.completions.step base press with
    | none => (.unchanged, { editor with completion := none })
    | some replacement =>
        if replacement = word then (.unchanged, { editor with completion := some (base, press) })
        else
          (.changed, { editor with
            completion := some (base, press)
            lines := editor.lines.set 0 (replacement ++ first.drop word.length)
            cursor := ⟨0, replacement.length⟩
            desired := none })

/-! ### Intents -/

/-- `reset`. -/
def reset (editor : Editor) : Editor :=
  { editor with lines := [[]], cursor := ⟨0, 0⟩, desired := none, recalled := none, draft := none }

/-- `recall_reset_on_edit`. -/
def recallResetOnEdit (editor : Editor) : Editor :=
  { editor with desired := none, recalled := none, draft := none }

/-- A deletion, which ends a recall whether or not there is something to delete. -/
def deletion (delete : Editor → Option Editor) (editor : Editor) : Outcome × Editor :=
  match delete editor.recallResetOnEdit with
  | some deleted => (.changed, deleted)
  | none => (.unchanged, editor.recallResetOnEdit)

/-- `Intent::Submit`. -/
def submit (editor : Editor) : Outcome × Editor :=
  let text := trimChars editor.text
  if text.isEmpty then (.unchanged, editor)
  else
    (.submit text, { editor with
      history :=
        if editor.history.getLast? = some text then editor.history
        else editor.history ++ [text] }.reset)

/-- The arms of `Editor::apply`. -/
def dispatch (editor : Editor) : Intent → Outcome × Editor
  | .complete => editor.complete
  | .insert c => (.changed, editor.recallResetOnEdit.insertStr [c])
  | .paste text =>
      if text.isEmpty then (.unchanged, editor)
      else (.changed, editor.recallResetOnEdit.insertStr text)
  | .insertNewline => (.changed, editor.recallResetOnEdit.splitLine)
  | .backspace => editor.deletion deleteBackward
  | .deleteForward => editor.deletion deleteAhead
  | .deleteToLineStart => editor.deletion deleteToStart
  | .deleteToLineEnd => editor.deletion deleteToEnd
  | .deleteWordBackward => editor.deletion (deleteWord alphanumeric)
  | .moveLeft => editor.moveLeft
  | .moveRight => editor.moveRight
  | .moveWordLeft =>
      editor.placeCaret (wordLeft alphanumeric editor.lines editor.cursor.line editor.cursor.column)
  | .moveWordRight =>
      editor.placeCaret
        (wordRight alphanumeric editor.lines editor.cursor.line editor.cursor.column)
  | .moveLineStart => editor.moveLineStart
  | .moveLineEnd => editor.moveLineEnd
  | .moveUp => editor.rowUp
  | .moveDown => editor.rowDown
  | .moveBufferStart => editor.placeCaret ⟨0, 0⟩
  | .moveBufferEnd => editor.placeCaret (bufferEnd editor.lines)
  | .submit => editor.submit
  | .cancel => if editor.isEmpty then (.unchanged, editor) else (.cancelled, editor.reset)
  | .noop => (.unchanged, editor)

/-- `Editor::apply`: any intent but `complete` ends the cycle of Tab. -/
def apply (editor : Editor) (intent : Intent) : Outcome × Editor :=
  (if intent = .complete then editor else { editor with completion := none }).dispatch
    alphanumeric intent

end Words

/-! ### Display -/

/-- `Layout`. -/
structure Layout where
  rows : List (List Char)
  cursor : Cursor
  deriving DecidableEq, Repr

/-- The rows that `display` walks over, and whether each is the last of its line. -/
def displayRows (editor : Editor) : List (Row × Bool) :=
  editor.lines.zipIdx.flatMap fun (text, line) =>
    let spans := lineRows text editor.width
    spans.zipIdx.map fun ((start, stop), index) => (⟨line, start, stop⟩, index + 1 = spans.length)

/-- What stands in front of a row. -/
def decoration (prompt : List Char) (number : ℕ) : List Char :=
  if number = 0 then prompt else List.replicate (displayWidth prompt) ' '

/-- `on_this_row`. -/
def onRow (cursor : Cursor) (row : Row × Bool) : Bool :=
  cursor.line = row.1.line && row.1.start ≤ cursor.column &&
    (cursor.column < row.1.stop || row.2)

/-- `Editor::display`. -/
def display (editor : Editor) (prompt : List Char) : Layout where
  rows := editor.displayRows.zipIdx.map fun ((row, _), number) =>
    decoration prompt number ++ between (editor.lines.getD row.line []) row.start row.stop
  cursor :=
    match editor.displayRows.zipIdx.find? fun (row, _) => onRow editor.cursor row with
    | some ((row, _), number) =>
        ⟨number, displayWidth (decoration prompt number) +
          displayWidth (between (editor.lines.getD row.line []) row.start editor.cursor.column)⟩
    | none => ⟨0, 0⟩

/-! ### Runs -/

/-- What a surface does to an editor. -/
inductive Op where
  | intent (intent : Intent)
  | setWidth (width : ℕ)
  | setCompletions (words : List (List Char))
  deriving DecidableEq, Repr

variable (alphanumeric : Char → Bool)

def step (editor : Editor) : Op → Editor
  | .intent intent => (editor.apply alphanumeric intent).2
  | .setWidth width => editor.setWidth width
  | .setCompletions words => editor.setCompletions words

/-- The editor behind a sequence of operations. -/
def run (editor : Editor) (ops : List Op) : Editor := ops.foldl (step alphanumeric) editor

end Editor

end Rupi.Tui
