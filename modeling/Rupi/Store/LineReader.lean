import Rupi.Store.Journal
import Rupi.Store.SessionLog
import Rupi.Lib.Backward

/-!
Reading a JSONL file back, line by line under a bound, and repairing its tail.

A file comes in buffers, cut wherever the operating system cut it.

- `readBoundedLine`, `readLines`: the reader; `readLines_eq` says what it returns,
  whatever the cuts are.
- `readJsonl`: decoding the lines, with the count of those that are unusable.
- `recoverAppendTail`: what an opening writer does to an unfinished last line.
-/

namespace Rupi

open Fallible Backward

/-! ### One bounded line -/

/-- Where the line ends in a buffer: after its line break, or with the buffer. -/
def lineEnd (buffer : Bytes) : Nat :=
  ((buffer.findIdx? (· == newline)).map (· + 1)).getD buffer.length

/-- `read_bounded_line`: the line, whether it was too long, and the buffers left. A
buffer that is used up is filled again; no buffer is the end of the file. -/
def readBoundedLine (maxLineBytes : Nat) :
    Bytes → Bool → List Bytes → Option (Bytes × Bool) × List Bytes
  | line, oversized, [] => (if line.isEmpty && !oversized then none else some (line, oversized), [])
  | line, oversized, buffer :: buffers =>
    if buffer.isEmpty then readBoundedLine maxLineBytes line oversized buffers
    else
      let size := lineEnd buffer
      let (line, oversized) :=
        if oversized then (line, true)
        else if maxLineBytes < line.length + size then ([], true)
        else (line ++ buffer.take size, false)
      if buffer[size - 1]? = some newline then
        (some (line, oversized), buffer.drop size :: buffers)
      else readBoundedLine maxLineBytes line oversized buffers

/-- A line held to the bound: the line, or nothing with the mark that it was too
long. -/
def bounded (maxLineBytes : Nat) (line : Bytes) : Bytes × Bool :=
  if maxLineBytes < line.length then ([], true) else (line, false)

variable {maxLineBytes : Nat}

lemma bounded_of_le {line : Bytes} (h : line.length ≤ maxLineBytes) :
    bounded maxLineBytes line = (line, false) := if_neg (not_lt.mpr h)

lemma bounded_eq_iff {line : Bytes} :
    bounded maxLineBytes line = (line, false) ↔ line.length ≤ maxLineBytes := by
  rw [bounded]
  split_ifs with h
  · simp [not_le.mpr h]
  · simp [not_lt.mp h]

/-- Two ways to cut a text at its first line break are one. -/
lemma split_at_first {front front' back back' : Bytes} (h : newline ∉ front)
    (h' : newline ∉ front') (heq : front ++ newline :: back = front' ++ newline :: back') :
    front = front' ∧ back = back' := by
  have hcut := congrArg lines heq
  have hfront : ∀ {f b : Bytes}, newline ∉ f → lines (f ++ newline :: b) = f :: lines b := by
    intro f b hf
    have hline := linesFrom_line hf [] b
    simpa [lines, encodeLine] using hline
  rw [hfront h, hfront h'] at hcut
  obtain ⟨rfl, -⟩ := List.cons.inj hcut
  exact ⟨rfl, (List.cons.inj (List.append_cancel_left heq)).2⟩

/-- Taking in one more piece of a line. -/
lemma bounded_append (seen piece : Bytes) :
    (if (bounded maxLineBytes seen).2 then ((bounded maxLineBytes seen).1, true)
      else if maxLineBytes < (bounded maxLineBytes seen).1.length + piece.length then ([], true)
      else ((bounded maxLineBytes seen).1 ++ piece, false)) =
      bounded maxLineBytes (seen ++ piece) := by
  by_cases hseen : maxLineBytes < seen.length
  · have hall : maxLineBytes < seen.length + piece.length := by omega
    simp [bounded, hseen, hall]
  · simp [bounded, hseen]

lemma bounded_isEmpty (seen : Bytes) :
    ((bounded maxLineBytes seen).1.isEmpty && !(bounded maxLineBytes seen).2) = seen.isEmpty := by
  rw [bounded]
  split_ifs with h
  · cases seen with
    | nil => exact absurd h (by simp)
    | cons b seen => rfl
  · simp

/-- The cut of a buffer that has a line break. -/
lemma lineEnd_append {front back : Bytes} (h : newline ∉ front) :
    lineEnd (front ++ newline :: back) = front.length + 1 := by
  have hfront : front.findIdx? (· == newline) = none := by
    rw [List.findIdx?_eq_none_iff]
    intro b hb
    exact beq_eq_false_iff_ne.mpr fun heq => h (heq ▸ hb)
  simp [lineEnd, List.findIdx?_append, hfront, List.findIdx?_cons]

/-- A buffer without one is all line. -/
lemma lineEnd_of_notMem {buffer : Bytes} (h : newline ∉ buffer) :
    lineEnd buffer = buffer.length := by
  have hnone : buffer.findIdx? (· == newline) = none := by
    rw [List.findIdx?_eq_none_iff]
    intro b hb
    exact beq_eq_false_iff_ne.mpr fun heq => h (heq ▸ hb)
  simp [lineEnd, hnone]

lemma lineEnd_le (buffer : Bytes) : lineEnd buffer ≤ buffer.length := by
  by_cases h : newline ∈ buffer
  · obtain ⟨front, back, hbuffer, hfront⟩ := List.eq_append_cons_of_mem h
    rw [hbuffer, lineEnd_append hfront, List.length_append, List.length_cons]
    omega
  · exact (lineEnd_of_notMem h).le

/-- One buffer: its part of the line is taken in, and the line ends in it or goes on. -/
lemma readBoundedLine_cons (seen : Bytes) {buffer : Bytes} (h : buffer ≠ [])
    (buffers : List Bytes) :
    readBoundedLine maxLineBytes (bounded maxLineBytes seen).1 (bounded maxLineBytes seen).2
        (buffer :: buffers) =
      if buffer[lineEnd buffer - 1]? = some newline then
        (some (bounded maxLineBytes (seen ++ buffer.take (lineEnd buffer))),
          buffer.drop (lineEnd buffer) :: buffers)
      else
        readBoundedLine maxLineBytes
          (bounded maxLineBytes (seen ++ buffer.take (lineEnd buffer))).1
          (bounded maxLineBytes (seen ++ buffer.take (lineEnd buffer))).2 buffers := by
  have hlength : (buffer.take (lineEnd buffer)).length = lineEnd buffer :=
    List.length_take_of_le (lineEnd_le buffer)
  have hempty : ¬buffer.isEmpty = true := fun he => h (List.isEmpty_iff.mp he)
  have htaken := @bounded_append maxLineBytes seen (buffer.take (lineEnd buffer))
  rw [hlength] at htaken
  rw [readBoundedLine, if_neg hempty, ← htaken]

/-- A buffer without a line break is all line. -/
lemma readBoundedLine_through (seen : Bytes) {buffer : Bytes} (h : newline ∉ buffer)
    (buffers : List Bytes) :
    readBoundedLine maxLineBytes (bounded maxLineBytes seen).1 (bounded maxLineBytes seen).2
        (buffer :: buffers) =
      readBoundedLine maxLineBytes (bounded maxLineBytes (seen ++ buffer)).1
        (bounded maxLineBytes (seen ++ buffer)).2 buffers := by
  by_cases hempty : buffer = []
  · have hused : ([] : Bytes).isEmpty = true := rfl
    rw [hempty, List.append_nil, readBoundedLine, if_pos hused]
  · have hget : buffer[lineEnd buffer - 1]? ≠ some newline :=
      fun heq => h (List.mem_of_getElem? heq)
    rw [readBoundedLine_cons seen hempty, if_neg hget, lineEnd_of_notMem h, List.take_length]

/-- The last line of a file: everything left, when no line break is left. -/
lemma readBoundedLine_last (seen : Bytes) {buffers : List Bytes}
    (h : newline ∉ buffers.flatten) :
    readBoundedLine maxLineBytes (bounded maxLineBytes seen).1 (bounded maxLineBytes seen).2
        buffers =
      (if (seen ++ buffers.flatten).isEmpty then none
        else some (bounded maxLineBytes (seen ++ buffers.flatten)), []) := by
  induction buffers generalizing seen with
  | nil => simp [readBoundedLine, bounded_isEmpty]
  | cons buffer buffers ih =>
    rw [List.flatten_cons, List.mem_append, not_or] at h
    obtain ⟨hbuffer, hrest⟩ := h
    rw [readBoundedLine_through seen hbuffer, ih (seen ++ buffer) hrest, List.flatten_cons,
      List.append_assoc]

/-- A line that ends: it is returned with its line break, and what is left is the
file after it. -/
lemma readBoundedLine_line (seen : Bytes) {buffers : List Bytes} {line rest : Bytes}
    (hline : newline ∉ line) (hflat : buffers.flatten = line ++ newline :: rest) :
    ∃ left : List Bytes, left.flatten = rest ∧
      readBoundedLine maxLineBytes (bounded maxLineBytes seen).1 (bounded maxLineBytes seen).2
          buffers =
        (some (bounded maxLineBytes (seen ++ encodeLine line)), left) := by
  induction buffers generalizing seen line with
  | nil => exact absurd hflat (by simp)
  | cons buffer buffers ih =>
    rw [List.flatten_cons] at hflat
    by_cases hmem : newline ∈ buffer
    · -- the line ends in this buffer
      obtain ⟨front, back, rfl, hfront⟩ := List.eq_append_cons_of_mem hmem
      obtain ⟨rfl, hback⟩ : front = line ∧ back ++ buffers.flatten = rest := by
        rw [List.append_assoc, List.cons_append] at hflat
        exact split_at_first hfront hline hflat
      have hend := @lineEnd_append _ back hline
      refine ⟨back :: buffers, by rw [List.flatten_cons, hback], ?_⟩
      have htake : (front ++ newline :: back).take (front.length + 1) = encodeLine front := by
        simp [encodeLine, List.take_append, List.take_of_length_le]
      rw [readBoundedLine_cons seen (by simp), hend, if_pos (by simp), htake]
      simp
    · -- the line goes on after this buffer
      obtain ⟨more, rfl, hmore⟩ : ∃ more, line = buffer ++ more ∧
          buffers.flatten = more ++ newline :: rest := by
        rcases List.append_eq_append_iff.mp hflat with ⟨more, hl, hf⟩ | ⟨more, hl, hf⟩
        · exact ⟨more, hl, hf⟩
        · cases more with
          | nil => exact ⟨[], by simpa using hl.symm, by simpa using hf.symm⟩
          | cons b more =>
            obtain ⟨rfl, -⟩ := List.cons.inj hf
            exact absurd (hl ▸ by simp) hmem
      have hmoreLine : newline ∉ more := fun h => hline (List.mem_append_right _ h)
      obtain ⟨left, hleft, hread⟩ := ih (seen ++ buffer) hmoreLine hmore
      refine ⟨left, hleft, ?_⟩
      rw [readBoundedLine_through seen hmem, hread, encodeLine, encodeLine, List.append_assoc,
        List.append_assoc]

/-! ### All lines of a file -/

lemma readBoundedLine_start (buffers : List Bytes) :
    readBoundedLine maxLineBytes [] false buffers =
      readBoundedLine maxLineBytes (bounded maxLineBytes []).1 (bounded maxLineBytes []).2
        buffers := by
  rw [bounded_of_le (Nat.zero_le _)]

/-- A line that was read has left the file. -/
lemma readBoundedLine_shrinks {buffers left : List Bytes} {line : Bytes × Bool}
    (h : readBoundedLine maxLineBytes [] false buffers = (some line, left)) :
    left.flatten.length < buffers.flatten.length := by
  rw [readBoundedLine_start] at h
  by_cases hmem : newline ∈ buffers.flatten
  · obtain ⟨front, rest, hflat, hfront⟩ := List.eq_append_cons_of_mem hmem
    obtain ⟨left', hleft, hread⟩ := readBoundedLine_line [] hfront hflat
    obtain ⟨-, rfl⟩ := Prod.mk.inj (hread.symm.trans h)
    rw [hleft, hflat, List.length_append, List.length_cons]
    omega
  · rw [readBoundedLine_last [] hmem, List.nil_append] at h
    obtain ⟨hline, rfl⟩ := Prod.mk.inj h
    split_ifs at hline with hempty
    rw [List.flatten_nil, List.length_nil]
    exact List.length_pos_iff.mpr fun hnil => hempty (List.isEmpty_iff.mpr hnil)

/-- The lines a reader takes from a file, each with the mark that it was too long. -/
def readLines (maxLineBytes : Nat) (buffers : List Bytes) : List (Bytes × Bool) :=
  match _h : readBoundedLine maxLineBytes [] false buffers with
  | (none, _) => []
  | (some line, left) => line :: readLines maxLineBytes left
termination_by buffers.flatten.length
decreasing_by exact readBoundedLine_shrinks _h

/-- **What is read does not depend on how the file was cut**: every line of it with its
line break, then what follows the last line break, each held to the bound. -/
theorem readLines_eq {ls : List Bytes} {tail : Bytes} (hls : ∀ line ∈ ls, newline ∉ line)
    (htail : newline ∉ tail) {buffers : List Bytes}
    (hflat : buffers.flatten = encodeLines ls ++ tail) :
    readLines maxLineBytes buffers =
      ls.map (fun line => bounded maxLineBytes (encodeLine line)) ++
        (if tail.isEmpty then [] else [bounded maxLineBytes tail]) := by
  induction ls generalizing buffers with
  | nil =>
    rw [encodeLines_nil, List.nil_append] at hflat
    have hread := @readBoundedLine_last maxLineBytes [] _ (hflat ▸ htail)
    rw [← readBoundedLine_start, List.nil_append, hflat] at hread
    rw [readLines]
    by_cases hempty : tail.isEmpty = true
    · rw [if_pos hempty] at hread ⊢
      split
      · rfl
      · simp_all
    · rw [if_neg hempty] at hread ⊢
      have hend : readLines maxLineBytes [] = [] := by
        rw [readLines]
        simp [readBoundedLine]
      split
      · simp_all
      · rename_i line left h
        obtain ⟨hline, rfl⟩ := Prod.mk.inj (hread.symm.trans h)
        rw [hend, ← Option.some.inj hline]
        rfl
  | cons line ls ih =>
    have hline := hls line List.mem_cons_self
    have hrest : ∀ l ∈ ls, newline ∉ l := fun l hl => hls l (List.mem_cons_of_mem _ hl)
    have hcut : buffers.flatten = line ++ newline :: (encodeLines ls ++ tail) := by
      rw [hflat, encodeLines, List.flatMap_cons, encodeLine]
      simp [encodeLines]
    obtain ⟨left, hleft, hread⟩ := @readBoundedLine_line maxLineBytes [] _ _ _ hline hcut
    rw [← readBoundedLine_start, List.nil_append] at hread
    rw [readLines]
    split
    · simp_all
    · rename_i read left' h
      obtain ⟨hsame, rfl⟩ := Prod.mk.inj (hread.symm.trans h)
      rw [← Option.some.inj hsame, ih hrest hleft]
      rfl

/-! ### Decoding a file -/

/-- `u8::is_ascii_whitespace`. -/
def isAsciiWhitespace (b : UInt8) : Bool := b == 32 || b == 9 || b == 10 || b == 12 || b == 13

/-- A line without its line ending. -/
def trimEnding (line : Bytes) : Bytes :=
  let line := if line.getLast? = some newline then line.dropLast else line
  if line.getLast? = some 13 then line.dropLast else line

/-- What becomes of one line. -/
inductive LineFate (α : Type) where
  | malformed
  | skipped
  | item (a : α)

/-- A line is unusable when it is too long or does not decode; a blank one is passed
over. -/
def lineFate (decode : Bytes → Option α) (line : Bytes × Bool) : LineFate α :=
  if line.2 then .malformed
  else if (trimEnding line.1).all isAsciiWhitespace then .skipped
  else
    match decode (trimEnding line.1) with
    | some a => .item a
    | none => .malformed

/-- A report with the number of the first unusable line. -/
structure JsonlReport (α : Type) extends ReadReport α where
  firstMalformedLine : Option Nat

/-- One line taken into the report. `number` counts the lines before it. -/
def noteLine (path : String) (maxItems : Nat) (state : JsonlReport α × Nat)
    (fate : LineFate α) : Except StoreError (JsonlReport α × Nat) :=
  let (report, number) := state
  match fate with
  | .skipped => .ok (report, number + 1)
  | .malformed =>
    .ok ({ report with
        malformed := report.malformed + 1
        firstMalformedLine := report.firstMalformedLine.or (some (number + 1)) }, number + 1)
  | .item a =>
    if maxItems ≤ report.items.length then
      .error (.invalid (path ++ " contains more than " ++ toString maxItems ++
        " decoded JSONL entries"))
    else .ok ({ report with items := report.items ++ [a] }, number + 1)

/-- `read_jsonl_with_limits`. -/
def readJsonl (decode : Bytes → Option α) (path : String) (maxLineBytes maxItems : Nat)
    (buffers : List Bytes) : Except StoreError (JsonlReport α) := do
  let (report, _) ←
    scan (noteLine path maxItems) (⟨⟨[], 0⟩, none⟩, 0)
      ((readLines maxLineBytes buffers).map (lineFate decode))
  return report

/-! ### Repairing the tail -/

/-- The size of the chunks a file is searched in. -/
def chunkBytes : Nat := 16 * 1024

/-- `find_last_newline`. -/
def findLastNewline (file : Bytes) : Option Nat :=
  searchBack (· == newline) chunkBytes (by decide) file file.length

/-- `recover_append_tail`: a last line without its line break is completed when it is
JSON, and cut off when it is not or is too long. -/
def recoverAppendTail (isJson : Bytes → Bool) (file : Bytes) : Bytes :=
  if file.isEmpty then file
  else if file.getLast? = some newline then file
  else
    let lineStart := ((findLastNewline file).map (· + 1)).getD 0
    let tail := file.drop lineStart
    if maxJsonlLineBytes < tail.length then file.take lineStart
    else if isJson tail then file ++ [newline]
    else file.take lineStart

lemma findLastNewline_eq (file : Bytes) :
    findLastNewline file = rposition (· == newline) file := by
  rw [findLastNewline, searchBack_eq _ _ _ _ _ le_rfl, List.take_length]

lemma newline_notMem_encodeLines_last {ls : List Bytes} {tail : Bytes} (htail : newline ∉ tail) :
    ((findLastNewline (encodeLines ls ++ tail)).map (· + 1)).getD 0 = (encodeLines ls).length := by
  have hnone : rposition (· == newline) tail = none := by
    rw [rposition_eq_none]
    intro b hb
    exact beq_eq_false_iff_ne.mpr fun heq => htail (heq ▸ hb)
  rw [findLastNewline_eq, rposition_append, hnone]
  rcases List.eq_nil_or_concat' ls with rfl | ⟨front, last, rfl⟩
  · rfl
  · have hend : rposition (· == newline) (encodeLines (front ++ [last])) =
        some (encodeLines front ++ last).length := by
      rw [encodeLines_append, encodeLines_singleton, encodeLine, ← List.append_assoc]
      exact rposition_split rfl (by simp)
    simp only [hend, Option.map_some, Option.getD_some]
    simp [encodeLine, Nat.add_assoc]

/-- **What the repair leaves** of complete lines and an unfinished one. -/
theorem recoverAppendTail_eq (isJson : Bytes → Bool) {ls : List Bytes} {tail : Bytes}
    (htail : newline ∉ tail) :
    recoverAppendTail isJson (encodeLines ls ++ tail) =
      if tail.isEmpty then encodeLines ls
      else if tail.length ≤ maxJsonlLineBytes ∧ isJson tail = true then
        encodeLines (ls ++ [tail])
      else encodeLines ls := by
  rw [recoverAppendTail]
  by_cases hempty : tail = []
  · rw [hempty, List.append_nil, if_pos (by rfl : ([] : Bytes).isEmpty = true)]
    rcases List.eq_nil_or_concat' ls with rfl | ⟨front, last, rfl⟩
    · rfl
    · have hlast : (encodeLines (front ++ [last])).getLast? = some newline := by
        simp [encodeLine]
      rw [if_pos hlast]
      split_ifs <;> rfl
  · have hne : ¬(encodeLines ls ++ tail).isEmpty = true := by
      rw [List.isEmpty_iff, List.append_eq_nil_iff]
      exact fun h => hempty h.2
    have htailNe : ¬tail.isEmpty = true := fun h => hempty (List.isEmpty_iff.mp h)
    have hlast : ¬(encodeLines ls ++ tail).getLast? = some newline := by
      rw [List.getLast?_append_of_ne_nil _ hempty]
      exact fun h => htail (List.mem_of_getLast? h)
    rw [if_neg hne, if_neg hlast, if_neg htailNe, newline_notMem_encodeLines_last htail]
    simp only [List.drop_left, List.take_left]
    have happend : encodeLines (ls ++ [tail]) = encodeLines ls ++ tail ++ [newline] := by
      simp [encodeLine]
    by_cases hlong : maxJsonlLineBytes < tail.length
    · rw [if_pos hlong, if_neg fun h => absurd h.1 (not_le.mpr hlong)]
    · by_cases hjson : isJson tail = true
      · rw [if_neg hlong, if_pos hjson, if_pos ⟨not_lt.mp hlong, hjson⟩, happend]
      · rw [if_neg hlong, if_neg hjson, if_neg fun h => hjson h.2]

end Rupi
