import Rupi.Core.Encode

/-!
The buffered writer of a JSONL file, and the lines a file holds.

A file is a list of bytes. A write may fail at any call, after any number of
bytes reached the file.

- `LineWriter.writeLine`, `LineWriter.flush`, `LineWriter.drop`: the writer.
- `lines`: the complete lines of a file.
- `lines_encode_append`, `lines_prefix`: how the lines of a file grow.
-/

namespace Rupi

/-- The bytes of a file. -/
abbrev Bytes := List UInt8

/-! ### Lines of a file -/

/-- The complete lines of a file; `line` is the one being read. A last line
without its line break is no line. -/
def linesFrom : Bytes → Bytes → List Bytes
  | _, [] => []
  | line, b :: bytes =>
    if b = newline then line :: linesFrom [] bytes else linesFrom (line ++ [b]) bytes

def lines (bytes : Bytes) : List Bytes := linesFrom [] bytes

/-- A line as it stands in a file. -/
def encodeLine (line : Bytes) : Bytes := line ++ [newline]

/-- Lines as they stand in a file. -/
def encodeLines (ls : List Bytes) : Bytes := ls.flatMap encodeLine

@[simp] lemma encodeLines_nil : encodeLines [] = [] := rfl

@[simp] lemma encodeLines_append (ls ls' : List Bytes) :
    encodeLines (ls ++ ls') = encodeLines ls ++ encodeLines ls' := by
  simp [encodeLines]

@[simp] lemma encodeLines_singleton (line : Bytes) : encodeLines [line] = encodeLine line := by
  simp [encodeLines]

lemma linesFrom_line {line : Bytes} (hline : newline ∉ line) (acc bytes : Bytes) :
    linesFrom acc (encodeLine line ++ bytes) = (acc ++ line) :: linesFrom [] bytes := by
  induction line generalizing acc with
  | nil => simp [encodeLine, linesFrom]
  | cons b line ih =>
    obtain ⟨hb, hrest⟩ : newline ≠ b ∧ newline ∉ line := by simpa using hline
    have := ih hrest (acc ++ [b])
    simpa [encodeLine, linesFrom, Ne.symm hb] using this

/-- Lines without line breaks are read back from the file they make up. -/
theorem lines_encode_append {ls : List Bytes} (hls : ∀ line ∈ ls, newline ∉ line)
    (bytes : Bytes) : lines (encodeLines ls ++ bytes) = ls ++ lines bytes := by
  induction ls with
  | nil => rfl
  | cons line ls ih =>
    have hline := hls line (by simp)
    have hrest := ih fun l hl => hls l (by simp [hl])
    rw [encodeLines, List.flatMap_cons, List.append_assoc, lines, linesFrom_line hline]
    simpa [lines, encodeLines] using hrest

lemma lines_encode {ls : List Bytes} (hls : ∀ line ∈ ls, newline ∉ line) :
    lines (encodeLines ls) = ls := by
  simpa [lines, linesFrom] using lines_encode_append hls []

lemma linesFrom_prefix (acc bytes bytes' : Bytes) :
    linesFrom acc bytes <+: linesFrom acc (bytes ++ bytes') := by
  induction bytes generalizing acc with
  | nil => exact List.nil_prefix
  | cons b bytes ih =>
    by_cases hb : b = newline
    · simpa [linesFrom, hb] using ih []
    · simpa [linesFrom, hb] using ih (acc ++ [b])

/-- A file that grows keeps the lines it has. -/
theorem lines_prefix {bytes bytes' : Bytes} (h : bytes <+: bytes') :
    lines bytes <+: lines bytes' := by
  obtain ⟨rest, rfl⟩ := h
  exact linesFrom_prefix [] bytes rest

lemma length_linesFrom (acc bytes : Bytes) :
    (linesFrom acc bytes).length = bytes.count newline := by
  induction bytes generalizing acc with
  | nil => rfl
  | cons b bytes ih =>
    by_cases hb : b = newline
    · simp [linesFrom, hb, ih]
    · simp [linesFrom, hb, ih]

/-- A file has as many lines as line breaks. -/
lemma length_lines (bytes : Bytes) : (lines bytes).length = bytes.count newline :=
  length_linesFrom [] bytes

/-! ### The writer -/

/-- What one attempt to write to the file, flush it and sync it comes to: all of
it worked, or it failed after a number of bytes had reached the file. -/
inductive WriteOutcome where
  | done
  | failed (written : Nat) (message : String)
  deriving DecidableEq, Repr

/-- Writer for one JSONL file: the bytes behind the append handle and the lines
accepted since the last flush. -/
structure LineWriter where
  file : Bytes
  buffer : Bytes
  pending : Nat
  bufferedBytes : Nat
  deriving DecidableEq, Repr

namespace LineWriter

def maxBufferedBytes : Nat := 64 * 1024

/-- A writer on a file that ends at a line break, as `create` leaves it. -/
def create (file : Bytes) : LineWriter := ⟨file, [], 0, 0⟩

/-- Write the buffer to the file. The buffer is emptied only when all of it is
durable. -/
def flush (writer : LineWriter) (outcome : WriteOutcome) :
    LineWriter × Except StoreError Unit :=
  if writer.buffer.isEmpty then (writer, .ok ())
  else
    match outcome with
    | .done => (⟨writer.file ++ writer.buffer, [], 0, 0⟩, .ok ())
    | .failed written message =>
      ({ writer with file := writer.file ++ writer.buffer.take written }, .error (.io message))

/-- The buffer a line is accepted into. -/
def accept (writer : LineWriter) (line : Bytes) : LineWriter :=
  { writer with
    buffer := writer.buffer ++ encodeLine line
    pending := writer.pending + 1
    bufferedBytes := writer.bufferedBytes + (line.length + 1) }

@[simp] lemma accept_file (writer : LineWriter) (line : Bytes) :
    (writer.accept line).file = writer.file := rfl

@[simp] lemma accept_buffer (writer : LineWriter) (line : Bytes) :
    (writer.accept line).buffer = writer.buffer ++ encodeLine line := rfl

/-- Write one already-encoded line. A `durable` line is written and flushed
immediately; the line is in the buffer before the write is attempted. -/
def writeLine (writer : LineWriter) (line : Bytes) (durable : Bool) (outcome : WriteOutcome) :
    LineWriter × Except StoreError Unit :=
  let writer := writer.accept line
  if durable || decide (maxBufferedBytes ≤ writer.bufferedBytes) then writer.flush outcome
  else (writer, .ok ())

/-- Dropping the writer flushes what is left, best effort. -/
def drop (writer : LineWriter) (outcome : WriteOutcome) : LineWriter := (writer.flush outcome).1

/-- What a flush does: nothing, all of it, or a prefix. -/
lemma flush_cases (writer : LineWriter) (outcome : WriteOutcome) :
    writer.flush outcome = (writer, .ok ()) ∧ writer.buffer = [] ∨
      outcome = .done ∧ writer.flush outcome = (create (writer.file ++ writer.buffer), .ok ()) ∨
      ∃ written message, outcome = .failed written message ∧
        writer.flush outcome =
          ({ writer with file := writer.file ++ writer.buffer.take written },
            .error (.io message)) := by
  by_cases hbuffer : writer.buffer = []
  · exact .inl ⟨by simp [flush, hbuffer], hbuffer⟩
  · cases outcome with
    | done => exact .inr (.inl ⟨rfl, by simp [flush, hbuffer, create]⟩)
    | failed written message =>
      exact .inr (.inr ⟨written, message, rfl, by simp [flush, hbuffer]⟩)

/-- Whatever a flush comes to, what is durable is a prefix of what was accepted. -/
lemma flush_file_prefix (writer : LineWriter) (outcome : WriteOutcome) :
    (writer.flush outcome).1.file <+: writer.file ++ writer.buffer := by
  rcases writer.flush_cases outcome with ⟨h, -⟩ | ⟨-, h⟩ | ⟨written, message, -, h⟩
  · rw [h]
    exact List.prefix_append _ _
  · rw [h]
    exact List.prefix_rfl
  · rw [h]
    exact List.prefix_append_right_inj _ |>.mpr (List.take_prefix _ _)

/-- A line is accepted into the buffer, and then the buffer may be flushed. -/
lemma writeLine_cases (writer : LineWriter) (line : Bytes) (durable : Bool)
    (outcome : WriteOutcome) :
    writer.writeLine line durable outcome = (writer.accept line, .ok ()) ∨
      writer.writeLine line durable outcome = (writer.accept line).flush outcome := by
  unfold writeLine
  simp only
  split
  · exact .inr rfl
  · exact .inl rfl

end LineWriter

end Rupi
