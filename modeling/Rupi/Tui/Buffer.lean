import Rupi.Tui.Editor

/-!
A text with an insertion point, and what the intents of an editor do to it.

- `Buffer`: the text in front of the insertion point and the text behind it, with line breaks as
  newlines; each edit and each move is a function of the two.
- `Reference`: a buffer with the history, what is recalled of it and what Tab cycles through;
  `Reference.apply` is what an intent does and answers. An intent that finds nothing to do leaves
  the text, the insertion point and the recall.
- `Focus`: the lines around a caret; `Focus.buffer` is their text.
-/

namespace Rupi.Tui

/-- A text with an insertion point. -/
structure Buffer where
  before : List Char
  after : List Char
  deriving DecidableEq, Repr

namespace Buffer

variable (alphanumeric : Char → Bool) (buffer : Buffer)

def text : List Char := buffer.before ++ buffer.after

/-- The lines, of which there is always one. -/
def lines : List (List Char) := buffer.text.splitOn '\n'

/-- What the line holds in front of the insertion point, and what it holds behind it. -/
def lineBefore : List Char := buffer.before.rtakeWhile (· ≠ '\n')

def lineAfter : List Char := buffer.after.takeWhile (· ≠ '\n')

/-- The text in front of the line. -/
def aboveLine : List Char := buffer.before.rdropWhile (· ≠ '\n')

/-- The insertion point, as a line and a number of characters. -/
def cursor : Cursor := ⟨buffer.before.count '\n', buffer.lineBefore.length⟩

/-- The insertion point behind a number of characters of the text. -/
def goto (offset : ℕ) : Buffer := ⟨buffer.text.take offset, buffer.text.drop offset⟩

/-! ### Edits -/

/-- A text inserted, without its carriage returns. -/
def insert (text : List Char) : Buffer :=
  ⟨buffer.before ++ text.filter (· ≠ '\r'), buffer.after⟩

def backspace : Option Buffer :=
  if buffer.before = [] then none else some ⟨buffer.before.dropLast, buffer.after⟩

def deleteForward : Option Buffer :=
  if buffer.after = [] then none else some ⟨buffer.before, buffer.after.tail⟩

def deleteToLineStart : Option Buffer :=
  if buffer.lineBefore = [] then none else some ⟨buffer.aboveLine, buffer.after⟩

def deleteToLineEnd : Option Buffer :=
  if buffer.lineAfter = [] then none
  else some ⟨buffer.before, buffer.after.dropWhile (· ≠ '\n')⟩

/-- A text less its last word and what stands behind that. -/
def withoutWord (text : List Char) : List Char :=
  (text.rdropWhile (!Editor.isWordChar alphanumeric ·)).rdropWhile (Editor.isWordChar alphanumeric)

/-- The word in front of the insertion point, within its line; a line break at the start of one. -/
def deleteWordBackward : Option Buffer :=
  if buffer.lineBefore = [] then buffer.backspace
  else some ⟨buffer.aboveLine ++ withoutWord alphanumeric buffer.lineBefore, buffer.after⟩

/-! ### Moves -/

/-- The start of the word in front, past the line breaks in front. -/
def wordLeft : Buffer :=
  let before := buffer.before.rdropWhile (· = '\n')
  buffer.goto (before.rdropWhile (· ≠ '\n') ++
    withoutWord alphanumeric (before.rtakeWhile (· ≠ '\n'))).length

/-- The end of the word behind, past the line breaks behind. -/
def wordRight : Buffer :=
  let breaks := buffer.after.takeWhile (· = '\n')
  let line := (buffer.after.dropWhile (· = '\n')).takeWhile (· ≠ '\n')
  let blank := line.takeWhile (!Editor.isWordChar alphanumeric ·)
  let word := (line.dropWhile (!Editor.isWordChar alphanumeric ·)).takeWhile
    (Editor.isWordChar alphanumeric)
  buffer.goto (buffer.before.length + breaks.length + (blank.length + word.length))

/-- The indent of the line, then its start, then its end. -/
def lineStart : Buffer :=
  let skip := Editor.indentWidth (buffer.lineBefore ++ buffer.lineAfter)
  buffer.goto (buffer.aboveLine.length +
    if buffer.lineBefore.length = 0 then buffer.lineAfter.length
    else if buffer.lineBefore.length ≤ skip then 0
    else skip)

/-- The insertion point at a line and a number of characters. -/
def place (cursor : Cursor) : Buffer :=
  buffer.goto (((buffer.lines.take cursor.line).flatMap (· ++ ['\n'])).length + cursor.column)

end Buffer

/-! ### The reference -/

/-- A buffer with what an editor remembers. -/
structure Reference where
  buffer : Buffer
  desired : Option ℕ
  width : ℕ
  history : List (List Char)
  recalled : Option ℕ
  draft : Option (List Char)
  completions : Completions
  completion : Option (List Char × ℕ)
  deriving DecidableEq, Repr

namespace Reference

variable (alphanumeric : Char → Bool) (reference : Reference)

/-- An empty buffer. -/
def withWidth (width : ℕ) : Reference where
  buffer := ⟨[], []⟩
  desired := none
  width := max width 1
  history := []
  recalled := none
  draft := none
  completions := ⟨[]⟩
  completion := none

/-- An edit: it ends a recall, and vertical motion forgets its column. -/
def edit (buffer : Buffer) : Outcome × Reference :=
  (.changed, { reference with buffer, desired := none, recalled := none, draft := none })

/-- A deletion of what there is to delete. -/
def delete : Option Buffer → Outcome × Reference
  | some buffer => reference.edit buffer
  | none => (.unchanged, { reference with desired := none })

/-- A move of the insertion point. -/
def move (buffer : Buffer) : Outcome × Reference :=
  (if buffer = reference.buffer then .unchanged else .changed,
    { reference with buffer, desired := none })

/-- A text in place of the buffer, with the insertion point behind it. -/
def load (text : List Char) : Reference :=
  { reference with buffer := ⟨text, []⟩, desired := none }

def recallOlder : Outcome × Reference :=
  let next := reference.recalled.elim 0 (· + 1)
  if reference.history.length ≤ next then (.unchanged, reference)
  else
    (.changed, { reference with
      draft := if reference.recalled.isNone then some reference.buffer.text else reference.draft
      recalled := some next }.load (Editor.historyAt reference.history next))

def recallNewer : Outcome × Reference :=
  match reference.recalled with
  | none => (.unchanged, reference)
  | some 0 => (.changed, { reference with
      draft := none, recalled := none }.load (reference.draft.getD []))
  | some (newer + 1) => (.changed, { reference with
      recalled := some newer }.load (Editor.historyAt reference.history newer))

/-- The insertion point in a display row, at the column that vertical motion aims at. -/
def moveToRow (column target : ℕ) : Outcome × Reference :=
  let wanted := reference.desired.getD column
  let row := (bufferRows reference.buffer.lines reference.width).getD target ⟨0, 0, 0⟩
  (.changed, { reference with
    desired := some wanted
    buffer := reference.buffer.place ⟨row.line,
      columnAt (reference.buffer.lines.getD row.line []) row.start row.stop wanted⟩ })

/-- The display row of the insertion point, and its column there. -/
def caretRow : ℕ × ℕ :=
  Tui.caretRow (bufferRows reference.buffer.lines reference.width) reference.buffer.lines
    reference.buffer.cursor

def rowUp : Outcome × Reference :=
  match reference.caretRow with
  | (0, _) => reference.recallOlder
  | (target + 1, column) => reference.moveToRow column target

def rowDown : Outcome × Reference :=
  let (index, column) := reference.caretRow
  if index + 1 < (bufferRows reference.buffer.lines reference.width).length then
    reference.moveToRow column (index + 1)
  else reference.recallNewer

def cycleStillOpen (base word : List Char) : Bool :=
  base.isPrefixOf word ||
    (reference.completions.matching (withoutSlashes base)).contains (withoutSlashes word)

def cycle (word : List Char) : List Char × ℕ :=
  match reference.completion with
  | some (base, presses) =>
      if reference.cycleStillOpen base word then (base, presses + 1) else (word, 0)
  | none => (word, 0)

/-- The first word of the text, when the insertion point is at its end and it is a command. -/
def complete : Outcome × Reference :=
  let word := reference.buffer.text.takeWhile (!isWhitespace ·)
  if reference.completions.isEmpty then (.unchanged, reference)
  else if reference.buffer.before ≠ word ∨ word.head? ≠ some '/' then
    (.unchanged, { reference with completion := none })
  else
    let (base, press) := reference.cycle word
    match reference.completions.step base press with
    | none => (.unchanged, { reference with completion := none })
    | some replacement =>
        if replacement = word then
          (.unchanged, { reference with completion := some (base, press) })
        else
          (.changed, { reference with
            completion := some (base, press)
            buffer := ⟨replacement, reference.buffer.after⟩
            desired := none })

/-- An empty buffer, and no recall. -/
def reset : Reference :=
  { reference with buffer := ⟨[], []⟩, desired := none, recalled := none, draft := none }

/-- The trimmed text, which the history takes unless it is its last entry. -/
def submit : Outcome × Reference :=
  let text := trimChars reference.buffer.text
  if text = [] then (.unchanged, reference)
  else
    (.submit text, { reference with
      history :=
        if reference.history.getLast? = some text then reference.history
        else reference.history ++ [text] }.reset)

def dispatch : Intent → Outcome × Reference
  | .complete => reference.complete
  | .insert c => reference.edit (reference.buffer.insert [c])
  | .paste text =>
      if text = [] then (.unchanged, reference)
      else reference.edit (reference.buffer.insert text)
  | .insertNewline => reference.edit (reference.buffer.insert ['\n'])
  | .backspace => reference.delete reference.buffer.backspace
  | .deleteForward => reference.delete reference.buffer.deleteForward
  | .deleteToLineStart => reference.delete reference.buffer.deleteToLineStart
  | .deleteToLineEnd => reference.delete reference.buffer.deleteToLineEnd
  | .deleteWordBackward => reference.delete (reference.buffer.deleteWordBackward alphanumeric)
  | .moveLeft => reference.move (reference.buffer.goto (reference.buffer.before.length - 1))
  | .moveRight => reference.move (reference.buffer.goto (reference.buffer.before.length + 1))
  | .moveWordLeft => reference.move (reference.buffer.wordLeft alphanumeric)
  | .moveWordRight => reference.move (reference.buffer.wordRight alphanumeric)
  | .moveLineStart => reference.move reference.buffer.lineStart
  | .moveLineEnd => reference.move (reference.buffer.goto
      (reference.buffer.before.length + reference.buffer.lineAfter.length))
  | .moveUp => reference.rowUp
  | .moveDown => reference.rowDown
  | .moveBufferStart => reference.move (reference.buffer.goto 0)
  | .moveBufferEnd => reference.move (reference.buffer.goto reference.buffer.text.length)
  | .submit => reference.submit
  | .cancel =>
      if reference.buffer.text = [] then (.unchanged, reference)
      else (.cancelled, reference.reset)
  | .noop => (.unchanged, reference)

/-- What an intent does; any but `complete` ends the cycle of Tab. -/
def apply (intent : Intent) : Outcome × Reference :=
  (if intent = .complete then reference else { reference with completion := none }).dispatch
    alphanumeric intent

def step (reference : Reference) : Editor.Op → Reference
  | .intent intent => (reference.apply alphanumeric intent).2
  | .setWidth width => { reference with width := max width 1, desired := none }
  | .setCompletions words =>
      { reference with completions := Completions.new words, completion := none }

/-- The reference behind a sequence of operations. -/
def run (ops : List Editor.Op) : Reference := ops.foldl (step alphanumeric) reference

end Reference

end Rupi.Tui
