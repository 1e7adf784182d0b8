import Rupi.Store.LineWriter

/-!
A bounded line reader over a source that is read in pieces and may fail in between.

- `Source`: the bytes in the buffer, and what the reader underneath will still give.
- `readLine`: `BoundedLineReader::read_line` with `LineOverflow::Reject`; the line it has
  begun stays with it across a failed read.
- `nextLine`, `linesOf`: the lines of a whole byte string.
- **`readLine_spec`**: whatever the pieces, a read fails, or gives the next line of the
  bytes that are left.
-/

namespace Rupi

/-! ### Sources -/

/-- One read of the underlying reader: at least one byte, or an error. -/
inductive ReadResult where
  | chunk (first : UInt8) (rest : Bytes)
  | failure (message : String)
  deriving DecidableEq, Repr

/-- The bytes of a read. -/
def ReadResult.bytes : ReadResult → Bytes
  | chunk first rest => first :: rest
  | failure _ => []

/-- The bytes of all reads, in order. -/
def bytesOf (reads : List ReadResult) : Bytes := reads.flatMap ReadResult.bytes

@[simp] lemma bytesOf_nil : bytesOf [] = [] := rfl

@[simp] lemma bytesOf_chunk (first : UInt8) (rest : Bytes) (reads : List ReadResult) :
    bytesOf (.chunk first rest :: reads) = first :: (rest ++ bytesOf reads) := rfl

@[simp] lemma bytesOf_failure (message : String) (reads : List ReadResult) :
    bytesOf (.failure message :: reads) = bytesOf reads := rfl

/-- A buffered reader with the line it has begun. -/
structure Source where
  line : Bytes
  buffer : Bytes
  reads : List ReadResult
  deriving DecidableEq

/-- The bytes that were not given out yet. -/
def Source.left (source : Source) : Bytes :=
  source.line ++ (source.buffer ++ bytesOf source.reads)

/-! ### Reading a line -/

/-- What `read_line` returns. -/
inductive LineRead where
  | eof
  | line (bytes : Bytes)
  /-- `line exceeds {limit} bytes` -/
  | overflow
  /-- The error of the reader underneath. -/
  | failure (message : String)
  deriving DecidableEq

/-- What a buffer adds to a line. -/
inductive Taken where
  | complete (line rest : Bytes)
  | more (line : Bytes)
  | overflow
  deriving DecidableEq

/-- The content of the buffer up to the line break goes to the line, if it has room. -/
def takeContent (limit : Nat) (line buffer : Bytes) : Taken :=
  let content := buffer.takeWhile (· ≠ newline)
  if content.length ≤ limit - line.length then
    match buffer.dropWhile (· ≠ newline) with
    | [] => .more (line ++ content)
    | _ :: rest => .complete (line ++ content ++ [newline]) rest
  else .overflow

/-- `BoundedLineReader::read_line`: the line that was begun is filled from the buffer,
and the buffer from the next read. -/
def readLine (limit : Nat) (line buffer : Bytes) (reads : List ReadResult) :
    LineRead × Source :=
  match takeContent limit line buffer with
  | .complete line rest => (.line line, ⟨[], rest, reads⟩)
  | .overflow => (.overflow, ⟨line, buffer, reads⟩)
  | .more line =>
    match reads with
    | [] => if line = [] then (.eof, ⟨[], [], []⟩) else (.line line, ⟨[], [], []⟩)
    | .failure message :: reads => (.failure message, ⟨line, [], reads⟩)
    | .chunk first rest :: reads => readLine limit line (first :: rest) reads

/-! ### The lines of a byte string -/

/-- The next line of a byte string. -/
def nextLine (limit : Nat) (bytes : Bytes) : LineRead × Bytes :=
  let content := bytes.takeWhile (· ≠ newline)
  if limit < content.length then (.overflow, bytes)
  else
    match bytes.dropWhile (· ≠ newline) with
    | [] => if bytes = [] then (.eof, []) else (.line bytes, [])
    | _ :: rest => (.line (content ++ [newline]), rest)

/-- All lines of a byte string, each with its line break; the last may be without. -/
def linesOf : Bytes → List Bytes
  | [] => []
  | b :: bytes =>
    if b = newline then [b] :: linesOf bytes
    else match linesOf bytes with
      | [] => [[b]]
      | line :: lines => (b :: line) :: lines

/-- The bytes of a line in front of its line break. -/
def contentOfLine (line : Bytes) : Bytes := line.takeWhile (· ≠ newline)

/-! ### One line, however it arrives -/

section Lines

variable {limit : Nat} {line buffer tail : Bytes}

/-- A line that was begun: within the limit, and without its end. -/
def Begun (limit : Nat) (line : Bytes) : Prop := newline ∉ line ∧ line.length ≤ limit

lemma takeWhile_of_notMem {bytes : Bytes} (h : newline ∉ bytes) :
    (bytes ++ tail).takeWhile (· ≠ newline) = bytes ++ tail.takeWhile (· ≠ newline) ∧
      (bytes ++ tail).dropWhile (· ≠ newline) = tail.dropWhile (· ≠ newline) := by
  have hall : ∀ b ∈ bytes, decide (b ≠ newline) = true := fun b hb =>
    decide_eq_true fun heq => h (heq ▸ hb)
  exact ⟨List.takeWhile_append_of_pos hall, List.dropWhile_append_of_pos hall⟩

/-- A text ends before its first line break, or divides there. -/
lemma newline_cases (bytes : Bytes) :
    newline ∉ bytes ∨ ∃ content rest, bytes = content ++ newline :: rest ∧ newline ∉ content := by
  by_cases h : newline ∈ bytes
  · obtain ⟨content, rest, hbytes, hcontent⟩ := List.eq_append_cons_of_mem h
    exact .inr ⟨content, rest, hbytes, hcontent⟩
  · exact .inl h

lemma takeContent_line {content rest : Bytes} (hcontent : newline ∉ content) :
    takeContent limit line (content ++ newline :: rest) =
      if content.length ≤ limit - line.length then .complete (line ++ content ++ [newline]) rest
      else .overflow := by
  obtain ⟨htake, hdrop⟩ := @takeWhile_of_notMem (newline :: rest) _ hcontent
  rw [takeContent, htake, hdrop]
  simp

lemma takeContent_open (h : newline ∉ buffer) :
    takeContent limit line buffer =
      if buffer.length ≤ limit - line.length then .more (line ++ buffer) else .overflow := by
  obtain ⟨htake, hdrop⟩ := @takeWhile_of_notMem [] _ h
  rw [List.append_nil, List.takeWhile_nil, List.append_nil] at htake
  rw [List.append_nil, List.dropWhile_nil] at hdrop
  rw [takeContent, htake, hdrop]

lemma nextLine_line {content rest : Bytes} (hcontent : newline ∉ content) :
    nextLine limit (content ++ newline :: rest) =
      if limit < content.length then (.overflow, content ++ newline :: rest)
      else (.line (content ++ [newline]), rest) := by
  obtain ⟨htake, hdrop⟩ := @takeWhile_of_notMem (newline :: rest) _ hcontent
  rw [nextLine, htake, hdrop]
  simp

lemma nextLine_last {bytes : Bytes} (h : newline ∉ bytes) :
    nextLine limit bytes =
      if limit < bytes.length then (.overflow, bytes)
      else if bytes = [] then (.eof, []) else (.line bytes, []) := by
  obtain ⟨htake, hdrop⟩ := @takeWhile_of_notMem [] _ h
  rw [List.append_nil, List.takeWhile_nil, List.append_nil] at htake
  rw [List.append_nil, List.dropWhile_nil] at hdrop
  rw [nextLine, htake, hdrop]

lemma linesOf_line {content rest : Bytes} (hcontent : newline ∉ content) :
    linesOf (content ++ newline :: rest) = (content ++ [newline]) :: linesOf rest := by
  induction content with
  | nil => simp [linesOf]
  | cons b content ih =>
    obtain ⟨hb, hrest⟩ := not_or.mp (List.mem_cons.not.mp hcontent)
    rw [List.cons_append, linesOf, if_neg (Ne.symm hb), ih hrest]
    rfl

lemma linesOf_last {bytes : Bytes} (h : newline ∉ bytes) (hne : bytes ≠ []) :
    linesOf bytes = [bytes] := by
  induction bytes with
  | nil => exact absurd rfl hne
  | cons b bytes ih =>
    obtain ⟨hb, hrest⟩ := not_or.mp (List.mem_cons.not.mp h)
    rw [linesOf, if_neg (Ne.symm hb)]
    cases bytes with
    | nil => rfl
    | cons c bytes => rw [ih hrest (List.cons_ne_nil _ _)]

/-- The next line of a byte string is the first of its lines, when it is short enough. -/
lemma nextLine_spec (limit : Nat) (bytes : Bytes) :
    (bytes = [] ∧ nextLine limit bytes = (.eof, [])) ∨
    ∃ raw rest, linesOf bytes = raw :: linesOf rest ∧ rest.length < bytes.length ∧
      (((contentOfLine raw).length ≤ limit ∧ nextLine limit bytes = (.line raw, rest)) ∨
        (limit < (contentOfLine raw).length ∧ nextLine limit bytes = (.overflow, bytes))) := by
  rcases newline_cases bytes with h | ⟨content, rest, rfl, hcontent⟩
  · by_cases hempty : bytes = []
    · subst hempty
      exact .inl ⟨rfl, rfl⟩
    · have hcontent : contentOfLine bytes = bytes := by
        have htake := (@takeWhile_of_notMem [] _ h).1
        rwa [List.append_nil, List.takeWhile_nil, List.append_nil] at htake
      refine .inr ⟨bytes, [], linesOf_last h hempty, List.length_pos_of_ne_nil hempty, ?_⟩
      rw [nextLine_last h, hcontent, if_neg hempty]
      by_cases hlong : limit < bytes.length
      · exact .inr ⟨hlong, if_pos hlong⟩
      · exact .inl ⟨Nat.not_lt.mp hlong, if_neg hlong⟩
  · have hline : contentOfLine (content ++ [newline]) = content := by
      have htake := (@takeWhile_of_notMem [newline] _ hcontent).1
      rw [contentOfLine, htake]
      simp
    refine .inr ⟨content ++ [newline], rest, linesOf_line hcontent, by simp; omega, ?_⟩
    rw [nextLine_line hcontent, hline]
    by_cases hlong : limit < content.length
    · exact .inr ⟨hlong, if_pos hlong⟩
    · exact .inl ⟨Nat.not_lt.mp hlong, if_neg hlong⟩

/-- A begin that is too long makes the line too long. -/
lemma nextLine_overflow {bytes : Bytes} (h : newline ∉ bytes) (hlong : limit < bytes.length) :
    nextLine limit (bytes ++ tail) = (.overflow, bytes ++ tail) := by
  have htake := (@takeWhile_of_notMem tail _ h).1
  rw [nextLine, htake, if_pos]
  rw [List.length_append]
  omega

/-- A buffer with a line break completes the line, or makes it too long. -/
lemma readLine_content {content rest : Bytes} {reads : List ReadResult}
    (hline : Begun limit line) (hcontent : newline ∉ content) :
    ∃ source, readLine limit line (content ++ newline :: rest) reads =
        ((nextLine limit (line ++ ((content ++ newline :: rest) ++ bytesOf reads))).1, source) ∧
      source.left = (nextLine limit (line ++ ((content ++ newline :: rest) ++ bytesOf reads))).2 ∧
      Begun limit source.line ∧ source.reads.length ≤ reads.length := by
  have hwhole : line ++ ((content ++ newline :: rest) ++ bytesOf reads) =
      (line ++ content) ++ newline :: (rest ++ bytesOf reads) := by
    simp
  have hnext := @nextLine_line limit (line ++ content) (rest ++ bytesOf reads)
    (by simp [hline.1, hcontent])
  rw [List.length_append] at hnext
  rw [readLine.eq_def, takeContent_line hcontent, hwhole, hnext]
  have hfits := hline.2
  by_cases hlong : content.length ≤ limit - line.length
  · rw [if_pos hlong, if_neg (by omega)]
    exact ⟨_, rfl, rfl, ⟨List.not_mem_nil, Nat.zero_le _⟩, le_rfl⟩
  · rw [if_neg hlong, if_pos (by omega)]
    exact ⟨_, rfl, by simp [Source.left], hline, le_rfl⟩

/-- A buffer without a line break goes to the line, or makes it too long. -/
lemma readLine_open {reads : List ReadResult} (hline : Begun limit line)
    (h : newline ∉ buffer) :
    (readLine limit line buffer reads =
        match reads with
        | [] => if line ++ buffer = [] then (.eof, ⟨[], [], []⟩)
          else (.line (line ++ buffer), ⟨[], [], []⟩)
        | .failure message :: reads => (.failure message, ⟨line ++ buffer, [], reads⟩)
        | .chunk first rest :: reads => readLine limit (line ++ buffer) (first :: rest) reads) ∧
      Begun limit (line ++ buffer) ∨
    readLine limit line buffer reads =
        ((nextLine limit (line ++ (buffer ++ bytesOf reads))).1, ⟨line, buffer, reads⟩) ∧
      nextLine limit (line ++ (buffer ++ bytesOf reads)) =
        (.overflow, line ++ (buffer ++ bytesOf reads)) := by
  have hopen : newline ∉ line ++ buffer := by simp [hline.1, h]
  have hfits := hline.2
  by_cases hlong : buffer.length ≤ limit - line.length
  · refine .inl ⟨?_, hopen, by rw [List.length_append]; omega⟩
    rw [readLine.eq_def, takeContent_open h, if_pos hlong]
  · have hnext := @nextLine_overflow limit (bytesOf reads) _ hopen
      (by rw [List.length_append]; omega)
    rw [List.append_assoc] at hnext
    refine .inr ⟨?_, hnext⟩
    rw [readLine.eq_def, takeContent_open h, if_neg hlong, hnext]

/-- **A read fails, or gives the next line** of the bytes that are left; either way
nothing is lost and the line that was begun stays within the limit. -/
theorem readLine_spec (reads : List ReadResult) (hline : Begun limit line) :
    (∃ message source, readLine limit line buffer reads = (.failure message, source) ∧
      source.left = line ++ (buffer ++ bytesOf reads) ∧ Begun limit source.line ∧
      source.reads.length < reads.length) ∨
    ∃ source, readLine limit line buffer reads =
        ((nextLine limit (line ++ (buffer ++ bytesOf reads))).1, source) ∧
      source.left = (nextLine limit (line ++ (buffer ++ bytesOf reads))).2 ∧
      Begun limit source.line ∧ source.reads.length ≤ reads.length := by
  have hnil : Begun limit [] := ⟨List.not_mem_nil, Nat.zero_le _⟩
  induction reads generalizing line buffer with
  | nil =>
    rcases newline_cases buffer with hopen | ⟨content, rest, rfl, hcontent⟩
    · rcases readLine_open hline hopen with ⟨hmore, hbegun⟩ | ⟨hread, hnext⟩
      · refine .inr ⟨⟨[], [], []⟩, ?_⟩
        have hnext := @nextLine_last limit _ hbegun.1
        rw [if_neg (Nat.not_lt.mpr hbegun.2)] at hnext
        rw [hmore, bytesOf_nil, List.append_nil, hnext]
        split_ifs <;> exact ⟨rfl, rfl, hnil, le_rfl⟩
      · exact .inr ⟨_, hread, by rw [hnext]; rfl, hline, le_rfl⟩
    · exact .inr (readLine_content hline hcontent)
  | cons read reads ih =>
    rcases newline_cases buffer with hopen | ⟨content, rest, rfl, hcontent⟩
    · cases read with
      | failure message =>
        rcases readLine_open hline hopen with ⟨hmore, hbegun⟩ | ⟨hread, hnext⟩
        · refine .inl ⟨message, ⟨line ++ buffer, [], reads⟩, hmore, ?_, hbegun,
            Nat.lt_succ_self _⟩
          simp [Source.left]
        · exact .inr ⟨_, hread, by rw [hnext]; rfl, hline, le_rfl⟩
      | chunk first rest =>
        rcases readLine_open hline hopen with ⟨hmore, hbegun⟩ | ⟨hread, hnext⟩
        · have hsame : line ++ (buffer ++ bytesOf (.chunk first rest :: reads)) =
              (line ++ buffer) ++ ((first :: rest) ++ bytesOf reads) := by
            simp
          rw [hmore, hsame]
          rcases @ih (line ++ buffer) (first :: rest) hbegun with
            ⟨message, source, hread, hleft, hsource, hfewer⟩ |
            ⟨source, hread, hleft, hsource, hfewer⟩
          · exact .inl ⟨message, source, hread, hleft, hsource, hfewer.trans (Nat.lt_succ_self _)⟩
          · exact .inr ⟨source, hread, hleft, hsource, hfewer.trans (Nat.le_succ _)⟩
        · exact .inr ⟨_, hread, by rw [hnext]; rfl, hline, le_rfl⟩
    · exact .inr (readLine_content hline hcontent)

/-- A read never goes back: a line leaves the source shorter, a failure with a read less. -/
lemma readLine_progress (limit : Nat) (line buffer : Bytes) (reads : List ReadResult) :
    let result := readLine limit line buffer reads
    result.2.left.length ≤ (line ++ (buffer ++ bytesOf reads)).length ∧
      result.2.reads.length ≤ reads.length ∧
      (∀ bytes, result.1 = .line bytes →
        result.2.left.length < (line ++ (buffer ++ bytesOf reads)).length) ∧
      ∀ message, result.1 = .failure message → result.2.reads.length < reads.length := by
  induction reads generalizing line buffer with
  | nil =>
    rcases newline_cases buffer with hopen | ⟨content, rest, rfl, hcontent⟩
    · rw [readLine.eq_def, takeContent_open hopen]
      split_ifs with hfits
      · dsimp only
        split_ifs with hempty
        · simp [Source.left]
        · have hpos := List.length_pos_of_ne_nil hempty
          simpa [Source.left] using hpos
      · simp [Source.left]
    · rw [readLine.eq_def, takeContent_line hcontent]
      split_ifs <;> simp [Source.left]
      omega
  | cons read reads ih =>
    rcases newline_cases buffer with hopen | ⟨content, rest, rfl, hcontent⟩
    · rw [readLine.eq_def, takeContent_open hopen]
      split_ifs with hfits
      · cases read with
        | failure message => simp [Source.left]
        | chunk first rest =>
          have hrest := ih (line ++ buffer) (first :: rest)
          have hsame : (line ++ buffer) ++ ((first :: rest) ++ bytesOf reads) =
              line ++ (buffer ++ bytesOf (.chunk first rest :: reads)) := by
            simp
          rw [hsame] at hrest
          obtain ⟨hleft, hreads, hline, hfailure⟩ := hrest
          exact ⟨hleft, hreads.trans (Nat.le_succ _), hline,
            fun message h => (hfailure message h).trans (Nat.lt_succ_self _)⟩
      · simp [Source.left]
    · rw [readLine.eq_def, takeContent_line hcontent]
      split_ifs <;> simp [Source.left]
      omega

/-- The reads are taken in order, and a failure is one of them. -/
lemma readLine_reads {reads : List ReadResult} {result : LineRead} {next : Source}
    (h : readLine limit line buffer reads = (result, next)) :
    next.reads <:+ reads ∧ ∀ message, result = .failure message → .failure message ∈ reads := by
  induction reads generalizing line buffer with
  | nil =>
    rw [readLine] at h
    split at h
    all_goals (try split_ifs at h) <;> cases h <;> simp
  | cons read reads ih =>
    rw [readLine.eq_def] at h
    cases htaken : takeContent limit line buffer with
    | complete line rest =>
      rw [htaken] at h
      cases h
      simp
    | overflow =>
      rw [htaken] at h
      cases h
      simp
    | more line =>
      rw [htaken] at h
      cases read with
      | failure message =>
        cases h
        simp
      | chunk first rest =>
        obtain ⟨hsuffix, hfailure⟩ := ih h
        exact ⟨hsuffix.trans (List.suffix_cons _ _),
          fun message heq => List.mem_cons_of_mem _ (hfailure message heq)⟩

end Lines

end Rupi
