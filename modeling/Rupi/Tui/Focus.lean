import Rupi.Tui.Buffer

/-!
The lines around the caret of an editor.

- `Focus`: the lines above, what the line holds on both sides of the caret, and the lines below;
  `Focus.buffer` is their text with the caret as the insertion point.
- `Editor.put`: an editor with the lines and the caret of a focus; what splicing, splitting and
  inserting do to it.
- `deletes_backward` and the others: what a deletion does to the lines is what the reference does
  to the text.
- `movesTo_left` and the others: so with the moves of the caret.
-/

namespace Rupi.Tui

/-- The lines around a caret. -/
structure Focus where
  above : List (List Char)
  left : List Char
  right : List Char
  below : List (List Char)

namespace Focus

def lines (f : Focus) : List (List Char) := f.above ++ (f.left ++ f.right) :: f.below

def cursor (f : Focus) : Cursor := ⟨f.above.length, f.left.length⟩

/-- The text of the lines, with the caret as the insertion point. -/
def buffer (f : Focus) : Buffer :=
  ⟨f.above.flatMap (· ++ ['\n']) ++ f.left, f.right ++ f.below.flatMap ('\n' :: ·)⟩

/-- No line holds a line break. -/
def Clean (f : Focus) : Prop := ∀ line ∈ f.lines, '\n' ∉ line ∧ '\r' ∉ line

/-- The lines around a caret of some lines. -/
def ofCaret (lines : List (List Char)) (cursor : Cursor) : Focus where
  above := lines.take cursor.line
  left := (lines.getD cursor.line []).take cursor.column
  right := (lines.getD cursor.line []).drop cursor.column
  below := lines.drop (cursor.line + 1)

section Buffers

variable {f f' : Focus}

lemma clean_iff : f.Clean ↔ (∀ line ∈ f.above, '\n' ∉ line ∧ '\r' ∉ line) ∧
    (('\n' ∉ f.left ∧ '\r' ∉ f.left) ∧ ('\n' ∉ f.right ∧ '\r' ∉ f.right)) ∧
    ∀ line ∈ f.below, '\n' ∉ line ∧ '\r' ∉ line := by
  rw [Clean, lines, List.forall_mem_append, List.forall_mem_cons, List.mem_append, List.mem_append]
  tauto

lemma intercalate_append_cons (above : List (List Char)) (line : List Char)
    (below : List (List Char)) : ['\n'].intercalate (above ++ line :: below) =
      above.flatMap (· ++ ['\n']) ++ (line ++ below.flatMap ('\n' :: ·)) := by
  induction above with
  | nil =>
    rw [List.nil_append, List.flatMap_nil, List.nil_append]
    induction below generalizing line with
    | nil => exact List.intercalate_singleton.trans (List.append_nil line).symm
    | cons next below ih =>
      rw [List.intercalate_cons_cons, ih next, List.flatMap_cons, List.append_assoc]
      rfl
  | cons first above ih =>
    rw [List.cons_append, List.intercalate_cons_of_ne_nil (by simp), ih, List.flatMap_cons,
      List.append_assoc, List.append_assoc, List.append_assoc]

lemma mem_intercalate {c : Char} {lines : List (List Char)} {line : List Char}
    (hline : line ∈ lines) (hc : c ∈ line) : c ∈ ['\n'].intercalate lines := by
  obtain ⟨above, below, rfl⟩ := List.append_of_mem hline
  rw [intercalate_append_cons]
  exact List.mem_append_right _ (List.mem_append_left _ hc)

lemma not_mem_intercalate {c : Char} (hc : c ≠ '\n') {lines : List (List Char)}
    (h : ∀ line ∈ lines, c ∉ line) : c ∉ ['\n'].intercalate lines := by
  induction lines with
  | nil => exact List.not_mem_nil
  | cons line lines ih =>
    obtain ⟨hline, hlines⟩ := List.forall_mem_cons.1 h
    cases lines with
    | nil => rwa [List.intercalate_singleton]
    | cons next lines =>
      rw [List.intercalate_cons_cons, List.mem_append, List.mem_append, List.mem_singleton]
      exact fun hmem => hmem.elim (fun hmem => hmem.elim hline hc) (ih hlines)

lemma text_buffer (f : Focus) : f.buffer.text = ['\n'].intercalate f.lines := by
  rw [lines, intercalate_append_cons, Buffer.text, buffer, List.append_assoc, List.append_assoc]

/-- The line that a text ends with, behind a text that ends with a line break. -/
lemma rtakeWhile_front {front left : List Char} (hfront : ∀ c ∈ front.getLast?, c = '\n')
    (hleft : '\n' ∉ left) : (front ++ left).rtakeWhile (· ≠ '\n') = left ∧
      (front ++ left).rdropWhile (· ≠ '\n') = front := by
  induction left using List.reverseRecOn with
  | nil =>
    rw [List.append_nil, List.rtakeWhile_eq_nil_iff, List.rdropWhile_eq_self_iff, and_self]
    intro hne
    have hlast := hfront _ (List.getLast?_eq_some_getLast hne)
    simp only [hlast, ne_eq, not_true, decide_false, Bool.false_eq_true, not_false_eq_true]
  | append_singleton left c ih =>
    rw [List.mem_append, List.mem_singleton, not_or] at hleft
    have hc : decide (c ≠ '\n') = true := decide_eq_true (Ne.symm hleft.2)
    obtain ⟨htake, hdrop⟩ := ih hleft.1
    rw [← List.append_assoc, List.rtakeWhile_concat, List.rdropWhile_concat, if_pos hc, if_pos hc,
      htake, hdrop]
    exact ⟨rfl, rfl⟩

lemma getLast_above (above : List (List Char)) :
    ∀ c ∈ (above.flatMap (· ++ ['\n'])).getLast?, c = '\n' := by
  intro c hc
  induction above using List.reverseRecOn with
  | nil => cases hc
  | append_singleton above line ih =>
    rw [List.flatMap_append, List.flatMap_singleton, ← List.append_assoc,
      List.getLast?_concat] at hc
    cases hc
    rfl

lemma lineBefore_buffer (h : f.Clean) : f.buffer.lineBefore = f.left :=
  (rtakeWhile_front (getLast_above f.above) (clean_iff.1 h).2.1.1.1).1

lemma aboveLine_buffer (h : f.Clean) :
    f.buffer.aboveLine = f.above.flatMap (· ++ ['\n']) :=
  (rtakeWhile_front (getLast_above f.above) (clean_iff.1 h).2.1.1.1).2

lemma takeWhile_below {right : List Char} (hright : '\n' ∉ right) (below : List (List Char)) :
    (right ++ below.flatMap ('\n' :: ·)).takeWhile (· ≠ '\n') = right ∧
      (right ++ below.flatMap ('\n' :: ·)).dropWhile (· ≠ '\n') =
        below.flatMap ('\n' :: ·) := by
  have hall : ∀ c ∈ right, decide (c ≠ '\n') = true := fun c hc =>
    decide_eq_true fun heq => hright (heq ▸ hc)
  rw [List.takeWhile_append_of_pos hall, List.dropWhile_append_of_pos hall]
  cases below with
  | nil => exact ⟨List.append_nil _, rfl⟩
  | cons line below => exact ⟨List.append_nil _, rfl⟩

lemma lineAfter_buffer (h : f.Clean) : f.buffer.lineAfter = f.right :=
  (takeWhile_below (clean_iff.1 h).2.1.2.1 f.below).1

lemma lines_buffer (h : f.Clean) : f.buffer.lines = f.lines := by
  rw [Buffer.lines, text_buffer]
  exact List.splitOn_intercalate _ (fun line hline => (h line hline).1) (by simp [lines])

lemma cursor_buffer (h : f.Clean) : f.buffer.cursor = f.cursor := by
  have hbreaks : ∀ above : List (List Char), (∀ line ∈ above, '\n' ∉ line) →
      (above.flatMap (· ++ ['\n'])).count '\n' = above.length := by
    intro above
    induction above with
    | nil => exact fun _ => rfl
    | cons line above ih =>
      intro habove
      obtain ⟨hline, habove⟩ := List.forall_mem_cons.1 habove
      rw [List.flatMap_cons, List.count_append, List.count_append, ih habove,
        List.count_eq_zero.2 hline, List.length_cons, List.count_singleton_self]
      omega
  have hclean := clean_iff.1 h
  rw [Buffer.cursor, lineBefore_buffer h, buffer, List.count_append,
    hbreaks _ fun line hline => (hclean.1 line hline).1, List.count_eq_zero.2 hclean.2.1.1.1]
  rfl

/-- Two carets of the same lines are told apart by their texts. -/
lemma buffer_eq_goto (h : f'.lines = f.lines) :
    f'.buffer = f.buffer.goto f'.buffer.before.length := by
  have htext : f.buffer.text = f'.buffer.text := by rw [text_buffer, text_buffer, h]
  rw [Buffer.goto, htext, Buffer.text, List.take_left, List.drop_left]

lemma clean_of_lines (h : f'.lines = f.lines) (hclean : f.Clean) : f'.Clean := by
  rwa [Clean, h]

lemma length_before (f : Focus) : f.buffer.before.length =
    (f.above.flatMap (· ++ ['\n'])).length + f.left.length :=
  List.length_append

lemma eq_of_cursor (h : f'.lines = f.lines) (hcursor : f'.cursor = f.cursor) : f' = f := by
  obtain ⟨above, left, right, below⟩ := f
  obtain ⟨above', left', right', below'⟩ := f'
  obtain ⟨hline, hcolumn⟩ := Cursor.mk.inj hcursor
  obtain ⟨rfl, hrest⟩ := List.append_inj h hline
  obtain ⟨hhere, rfl⟩ := List.cons_eq_cons.1 hrest
  obtain ⟨rfl, rfl⟩ := List.append_inj hhere hcolumn
  rfl

lemma buffer_eq_iff (hclean : f.Clean) (h : f'.lines = f.lines) :
    f'.buffer = f.buffer ↔ f'.cursor = f.cursor := by
  constructor
  · intro heq
    rw [← cursor_buffer hclean, ← cursor_buffer (clean_of_lines h hclean), heq]
  · exact fun heq => congrArg buffer (eq_of_cursor h heq)

lemma getD_lines (f : Focus) : f.lines.getD f.above.length [] = f.left ++ f.right := by
  rw [lines, List.getD_eq_getElem?_getD, List.getElem?_append_right le_rfl, Nat.sub_self]
  rfl

lemma lines_ofCaret {lines : List (List Char)} {cursor : Cursor}
    (hline : cursor.line < lines.length) : (ofCaret lines cursor).lines = lines := by
  rw [Focus.lines, ofCaret, List.take_append_drop, List.getD_eq_getElem?_getD,
    List.getElem?_eq_getElem hline, Option.getD_some, ← List.drop_eq_getElem_cons hline,
    List.take_append_drop]

lemma cursor_ofCaret {lines : List (List Char)} {cursor : Cursor}
    (hline : cursor.line < lines.length)
    (hcolumn : cursor.column ≤ (lines.getD cursor.line []).length) :
    (ofCaret lines cursor).cursor = cursor := by
  rw [Focus.cursor, ofCaret, List.length_take_of_le hline.le, List.length_take_of_le hcolumn]

lemma ofCaret_lines (f : Focus) : ofCaret f.lines f.cursor = f := by
  have hline : f.above.length < f.lines.length := by
    rw [lines, List.length_append, List.length_cons]
    omega
  have hcolumn : f.left.length ≤ (f.lines.getD f.above.length []).length := by
    rw [getD_lines, List.length_append]
    exact Nat.le_add_right _ _
  exact eq_of_cursor (lines_ofCaret hline) (cursor_ofCaret hline hcolumn)

end Buffers

end Focus

namespace Editor

/-- An editor with the lines and the caret of a focus. -/
def put (editor : Editor) (f : Focus) : Editor := { editor with lines := f.lines, cursor := f.cursor }

section Put

variable {alphanumeric : Char → Bool} {editor : Editor} {f : Focus}

@[simp] lemma put_put (f' : Focus) : (editor.put f).put f' = editor.put f' := rfl

@[simp] lemma line_put : (editor.put f).line = f.left ++ f.right := f.getD_lines

@[simp] lemma lines_put : (editor.put f).lines = f.lines := rfl

@[simp] lemma cursor_put : (editor.put f).cursor = ⟨f.above.length, f.left.length⟩ := rfl

/-- The line of the caret in place of another. -/
lemma set_lines (line : List Char) :
    f.lines.set f.above.length line = f.above ++ line :: f.below := by
  rw [Focus.lines, List.set_append_right _ _ le_rfl, Nat.sub_self]
  rfl

/-! ### Insertion -/

lemma spliceFirst_put (text : List Char) :
    (editor.put f).spliceFirst text = editor.put { f with left := f.left ++ text } := by
  rw [spliceFirst]
  split_ifs with hempty
  · rw [List.isEmpty_iff.1 hempty, List.append_nil]
  · have hlines : f.lines.set f.above.length
        ((f.left ++ f.right).take f.left.length ++ text ++ (f.left ++ f.right).drop f.left.length) =
          { f with left := f.left ++ text }.lines := by
      rw [List.take_left, List.drop_left, set_lines]
      rfl
    have hcursor : (⟨f.above.length, f.left.length + text.length⟩ : Cursor) =
        { f with left := f.left ++ text }.cursor := by
      rw [Focus.cursor, List.length_append]
    rw [line_put, put, put, ← hlines, ← hcursor]
    rfl

lemma splitLine_put :
    (editor.put f).splitLine = editor.put ⟨f.above ++ [f.left], [], f.right, f.below⟩ := by
  have hlines : (f.lines.set f.above.length ((f.left ++ f.right).take f.left.length)).insertIdx
      (f.above.length + 1) ((f.left ++ f.right).drop f.left.length) =
        (⟨f.above ++ [f.left], [], f.right, f.below⟩ : Focus).lines := by
    rw [List.take_left, List.drop_left, set_lines, Focus.lines]
    induction f.above with
    | nil => rfl
    | cons line above ih => exact congrArg (line :: ·) ih
  have hcursor : (⟨f.above.length + 1, 0⟩ : Cursor) =
      (⟨f.above ++ [f.left], [], f.right, f.below⟩ : Focus).cursor := by
    rw [Focus.cursor, List.length_append]
    rfl
  rw [splitLine, line_put, put, put, ← hlines, ← hcursor]
  rfl

/-- The rest of an inserted text, a line at a time. -/
lemma insertParts_put {parts : List (List Char)} (hclean : f.Clean)
    (hparts : ∀ part ∈ parts, '\n' ∉ part ∧ '\r' ∉ part) : ∃ f' : Focus,
      parts.foldl (fun editor part => editor.splitLine.spliceFirst part) (editor.put f) =
        editor.put f' ∧
      f'.buffer = ⟨f.buffer.before ++ parts.flatMap ('\n' :: ·), f.buffer.after⟩ ∧ f'.Clean := by
  induction parts generalizing f with
  | nil => exact ⟨f, rfl, by rw [List.flatMap_nil, List.append_nil], hclean⟩
  | cons part parts ih =>
    obtain ⟨hpart, hparts⟩ := List.forall_mem_cons.1 hparts
    obtain ⟨habove, ⟨hleft, hright⟩, hbelow⟩ := Focus.clean_iff.1 hclean
    obtain ⟨f', hf', hbuffer, hclean'⟩ := @ih ⟨f.above ++ [f.left], part, f.right, f.below⟩
      (Focus.clean_iff.2 ⟨List.forall_mem_append.2 ⟨habove, List.forall_mem_singleton.2 hleft⟩,
        ⟨hpart, hright⟩, hbelow⟩) hparts
    refine ⟨f', ?_, ?_, hclean'⟩
    · rw [List.foldl_cons, splitLine_put, spliceFirst_put]
      exact hf'
    · rw [hbuffer]
      simp only [Focus.buffer, List.flatMap_append, List.flatMap_cons, List.flatMap_nil,
        List.append_nil, List.append_assoc, List.cons_append, List.nil_append]

/-- **An inserted text** stands in front of the caret, without its carriage returns. -/
theorem insertStr_put (hclean : f.Clean) (text : List Char) : ∃ f' : Focus,
    (editor.put f).insertStr text = editor.put f' ∧ f'.buffer = f.buffer.insert text ∧
      f'.Clean := by
  have hjoin : ['\n'].intercalate ((text.filter (· ≠ '\r')).splitOn '\n') =
      text.filter (· ≠ '\r') := List.intercalate_splitOn '\n'
  have hclear : ∀ part ∈ (text.filter (· ≠ '\r')).splitOn '\n', '\n' ∉ part ∧ '\r' ∉ part := by
    intro part hpart
    refine ⟨notMem_splitOn hpart, fun hmem => ?_⟩
    have hall := Focus.mem_intercalate hpart hmem
    rw [hjoin, List.mem_filter] at hall
    exact of_decide_eq_true hall.2 rfl
  rw [insertStr]
  cases hparts : (text.filter (· ≠ '\r')).splitOn '\n' with
  | nil => exact absurd hparts (List.splitOn_ne_nil _ _)
  | cons first parts =>
    rw [hparts] at hjoin hclear
    obtain ⟨hfirst, hrest⟩ := List.forall_mem_cons.1 hclear
    obtain ⟨habove, ⟨hleft, hright⟩, hbelow⟩ := Focus.clean_iff.1 hclean
    have hleft' : '\n' ∉ f.left ++ first ∧ '\r' ∉ f.left ++ first := by
      rw [List.mem_append, List.mem_append]
      tauto
    obtain ⟨f', hf', hbuffer, hclean'⟩ := @insertParts_put editor { f with left := f.left ++ first }
      parts (Focus.clean_iff.2 ⟨habove, ⟨hleft', hright⟩, hbelow⟩) hrest
    refine ⟨f', ?_, ?_, hclean'⟩
    · rw [← hf', ← spliceFirst_put]
    · have htext := Focus.intercalate_append_cons [] first parts
      rw [List.nil_append, hjoin] at htext
      rw [hbuffer, Buffer.insert, htext]
      simp only [Focus.buffer, List.flatMap_nil, List.nil_append, List.append_assoc]

/-! ### Deletion -/

/-- A deletion from the lines is the deletion from their text. -/
def Deletes (editor : Editor) (delete : Editor → Option Editor)
    (reference : Buffer → Option Buffer) (f : Focus) : Prop :=
  ∃ deleted : Option Focus, delete (editor.put f) = deleted.map editor.put ∧
    reference f.buffer = deleted.map Focus.buffer ∧ ∀ f' ∈ deleted, f'.Clean

/-- Two lines that follow one another joined. -/
lemma join_lines (above : List (List Char)) (line next joined : List Char)
    (below : List (List Char)) :
    ((above ++ line :: next :: below).eraseIdx (above.length + 1)).set above.length joined =
      above ++ joined :: below := by
  induction above with
  | nil => rfl
  | cons first above ih => exact congrArg (first :: ·) ih

lemma eraseIdx_append_cons (front : List Char) (c : Char) (back : List Char) :
    (front ++ c :: back).eraseIdx front.length = front ++ back := by
  rw [List.eraseIdx_append_of_length_le le_rfl, Nat.sub_self, List.eraseIdx_cons_zero]

lemma deletes_backward (hclean : f.Clean) :
    Deletes editor deleteBackward Buffer.backspace f := by
  obtain ⟨above, left, right, below⟩ := f
  rcases List.eq_nil_or_concat' left with rfl | ⟨left, c, rfl⟩
  · rcases List.eq_nil_or_concat' above with rfl | ⟨above, line, rfl⟩
    · exact ⟨none, rfl, rfl, fun _ h => nomatch h⟩
    · refine ⟨some ⟨above, line, right, below⟩, ?_, ?_, ?_⟩
      · simp [deleteBackward, put, Focus.lines, Focus.cursor, join_lines, Editor.line]
      · simp [Buffer.backspace, Focus.buffer]
      · rintro f' ⟨⟩
        simp only [Focus.clean_iff, List.forall_mem_append, List.forall_mem_singleton] at hclean ⊢
        exact ⟨hclean.1.1, ⟨hclean.1.2, hclean.2.1.2⟩, hclean.2.2⟩
  · refine ⟨some ⟨above, left, right, below⟩, ?_, ?_, ?_⟩
    · simp [deleteBackward, put, Focus.lines, Focus.cursor, Editor.line, eraseIdx_append_cons]
    · simp [Buffer.backspace, Focus.buffer]
    · rintro f' ⟨⟩
      simp only [Focus.clean_iff, List.mem_append, not_or] at hclean ⊢
      exact ⟨hclean.1, ⟨⟨hclean.2.1.1.1.1, hclean.2.1.1.2.1⟩, hclean.2.1.2⟩, hclean.2.2⟩

lemma deletes_ahead (hclean : f.Clean) :
    Deletes editor deleteAhead Buffer.deleteForward f := by
  obtain ⟨above, left, right, below⟩ := f
  cases right with
  | nil =>
    cases below with
    | nil => exact ⟨none, by simp [deleteAhead, Focus.cursor, Focus.lines, put, Editor.line],
        rfl, fun _ h => nomatch h⟩
    | cons line below =>
      refine ⟨some ⟨above, left, line, below⟩, ?_, ?_, ?_⟩
      · simp [deleteAhead, put, Focus.lines, Focus.cursor, join_lines, Editor.line]
      · simp [Buffer.deleteForward, Focus.buffer]
      · rintro f' ⟨⟩
        simp only [Focus.clean_iff, List.forall_mem_cons] at hclean ⊢
        exact ⟨hclean.1, ⟨hclean.2.1.1, hclean.2.2.1⟩, hclean.2.2.2⟩
  | cons c right =>
    refine ⟨some ⟨above, left, right, below⟩, ?_, ?_, ?_⟩
    · simp [deleteAhead, put, Focus.lines, Focus.cursor, Editor.line, eraseIdx_append_cons]
    · simp [Buffer.deleteForward, Focus.buffer]
    · rintro f' ⟨⟩
      simp only [Focus.clean_iff, List.mem_cons, not_or] at hclean ⊢
      exact ⟨hclean.1, ⟨hclean.2.1.1, hclean.2.1.2.1.2, hclean.2.1.2.2.2⟩, hclean.2.2⟩

lemma deletes_toStart (hclean : f.Clean) :
    Deletes editor deleteToStart Buffer.deleteToLineStart f := by
  by_cases hleft : f.left = []
  · refine ⟨none, ?_, ?_, fun _ h => nomatch h⟩
    · rw [deleteToStart, cursor_put, if_pos (List.length_eq_zero_iff.2 hleft)]
      rfl
    · rw [Buffer.deleteToLineStart, Focus.lineBefore_buffer hclean, if_pos hleft]
      rfl
  · refine ⟨some { f with left := [] }, ?_, ?_, ?_⟩
    · rw [deleteToStart, cursor_put, if_neg fun h => hleft (List.length_eq_zero_iff.1 h), line_put,
        lines_put, set_lines, List.drop_left]
      rfl
    · rw [Buffer.deleteToLineStart, Focus.lineBefore_buffer hclean, if_neg hleft,
        Focus.aboveLine_buffer hclean, Option.map_some, Focus.buffer, Focus.buffer, List.append_nil]
    · rintro f' ⟨⟩
      rw [Focus.clean_iff] at hclean ⊢
      exact ⟨hclean.1, ⟨⟨List.not_mem_nil, List.not_mem_nil⟩, hclean.2.1.2⟩, hclean.2.2⟩

lemma deletes_toEnd (hclean : f.Clean) :
    Deletes editor deleteToEnd Buffer.deleteToLineEnd f := by
  have hline : (f.left ++ f.right).length ≤ f.left.length ↔ f.right = [] := by
    rw [List.length_append, ← List.length_eq_zero_iff]
    omega
  by_cases hright : f.right = []
  · refine ⟨none, ?_, ?_, fun _ h => nomatch h⟩
    · rw [deleteToEnd, line_put, cursor_put, if_pos (hline.2 hright)]
      rfl
    · rw [Buffer.deleteToLineEnd, Focus.lineAfter_buffer hclean, if_pos hright]
      rfl
  · refine ⟨some { f with right := [] }, ?_, ?_, ?_⟩
    · have hlines : ({ f with right := [] } : Focus).lines = f.above ++ f.left :: f.below := by
        rw [Focus.lines, List.append_nil]
      rw [deleteToEnd, line_put, cursor_put, if_neg fun h => hright (hline.1 h), lines_put,
        set_lines, List.take_left, ← hlines]
      rfl
    · rw [Buffer.deleteToLineEnd, Focus.lineAfter_buffer hclean, if_neg hright, Option.map_some]
      have hdrop := (Focus.takeWhile_below (Focus.clean_iff.1 hclean).2.1.2.1 f.below).2
      rw [Focus.buffer, Focus.buffer, hdrop, List.nil_append]
    · rintro f' ⟨⟩
      rw [Focus.clean_iff] at hclean ⊢
      exact ⟨hclean.1, ⟨hclean.2.1.1, List.not_mem_nil, List.not_mem_nil⟩, hclean.2.2⟩

/-- What is left of the word in front of the caret. -/
lemma withoutWord_isPrefix (text : List Char) : Buffer.withoutWord alphanumeric text <+: text :=
  (List.rdropWhile_prefix _ _).trans (List.rdropWhile_prefix _ _)

lemma take_withoutWord {line : List Char} {column : ℕ} :
    line.take (wordBoundary alphanumeric line column) =
      Buffer.withoutWord alphanumeric (line.take column) := by
  have hprefix := (@withoutWord_isPrefix alphanumeric (line.take column)).trans
    (List.take_prefix column line)
  exact (List.prefix_iff_eq_take.1 hprefix).symm

lemma deletes_word (hclean : f.Clean) :
    Deletes editor (deleteWord alphanumeric) (Buffer.deleteWordBackward alphanumeric) f := by
  by_cases hleft : f.left = []
  · obtain ⟨deleted, hdelete, hreference, hall⟩ := @deletes_backward editor f hclean
    refine ⟨deleted, ?_, ?_, hall⟩
    · rw [deleteWord, cursor_put, if_pos (List.length_eq_zero_iff.2 hleft), hdelete]
    · rw [Buffer.deleteWordBackward, Focus.lineBefore_buffer hclean, if_pos hleft, hreference]
  · have hkept : (f.left ++ f.right).take (wordBoundary alphanumeric (f.left ++ f.right)
        f.left.length) = Buffer.withoutWord alphanumeric f.left := by
      rw [take_withoutWord, List.take_left]
    refine ⟨some { f with left := Buffer.withoutWord alphanumeric f.left }, ?_, ?_, ?_⟩
    · have hlength : wordBoundary alphanumeric (f.left ++ f.right) f.left.length =
          (Buffer.withoutWord alphanumeric f.left).length := by
        rw [wordBoundary, List.take_left]
        rfl
      rw [deleteWord, cursor_put, if_neg fun h => hleft (List.length_eq_zero_iff.1 h), line_put,
        lines_put]
      dsimp only
      rw [hkept, hlength, List.drop_left, set_lines]
      rfl
    · rw [Buffer.deleteWordBackward, Focus.lineBefore_buffer hclean, if_neg hleft,
        Focus.aboveLine_buffer hclean]
      rfl
    · rintro f' ⟨⟩
      have hsubset := (@withoutWord_isPrefix alphanumeric f.left).subset
      rw [Focus.clean_iff] at hclean ⊢
      exact ⟨hclean.1, ⟨⟨fun h => hclean.2.1.1.1 (hsubset h), fun h => hclean.2.1.1.2 (hsubset h)⟩,
        hclean.2.1.2⟩, hclean.2.2⟩

/-! ### Moves -/

/-- A move of the caret is the move of the insertion point. -/
def MovesTo (editor : Editor) (f : Focus) (answer : Outcome × Editor) (reference : Buffer) : Prop :=
  ∃ f' : Focus, f'.lines = f.lines ∧ f'.buffer = reference ∧
    answer = (if f'.cursor = f.cursor then .unchanged else .changed,
      { editor.put f' with desired := none })

lemma movesTo_placeCaret {f' : Focus} {cursor : Cursor} {reference : Buffer}
    (hlines : f'.lines = f.lines) (hcursor : f'.cursor = cursor) (hbuffer : f'.buffer = reference) :
    MovesTo editor f ((editor.put f).placeCaret cursor) reference := by
  refine ⟨f', hlines, hbuffer, ?_⟩
  have hput : { editor.put f with desired := none, cursor } =
      { editor.put f' with desired := none } := by
    rw [put, put, hlines, hcursor]
  rw [placeCaret, hput]
  rfl

/-- The caret at another place of its line. -/
lemma exists_withinLine {column : ℕ} (h : column ≤ (f.left ++ f.right).length) :
    ∃ f' : Focus, f'.lines = f.lines ∧ f'.cursor = ⟨f.above.length, column⟩ ∧
      f'.buffer = f.buffer.goto ((f.above.flatMap (· ++ ['\n'])).length + column) := by
  have hlines : (⟨f.above, (f.left ++ f.right).take column, (f.left ++ f.right).drop column,
      f.below⟩ : Focus).lines = f.lines := by
    rw [Focus.lines, List.take_append_drop, Focus.lines]
  refine ⟨_, hlines, ?_, ?_⟩
  · rw [Focus.cursor, List.length_take_of_le h]
  · rw [Focus.buffer_eq_goto hlines, Focus.length_before, List.length_take_of_le h]

lemma movesTo_withinLine {column : ℕ} (h : column ≤ (f.left ++ f.right).length) :
    MovesTo editor f ((editor.put f).placeCaret ⟨f.above.length, column⟩)
      (f.buffer.goto ((f.above.flatMap (· ++ ['\n'])).length + column)) := by
  obtain ⟨f', hlines, hcursor, hbuffer⟩ := exists_withinLine h
  exact movesTo_placeCaret hlines hcursor hbuffer

lemma movesTo_lineStart (hclean : f.Clean) :
    MovesTo editor f (editor.put f).moveLineStart f.buffer.lineStart := by
  have hskip : indentWidth (f.left ++ f.right) ≤ (f.left ++ f.right).length :=
    (List.takeWhile_prefix _).length_le
  have hcolumn : (if f.left.length = 0 then (f.left ++ f.right).length
      else if f.left.length ≤ indentWidth (f.left ++ f.right) then 0
      else indentWidth (f.left ++ f.right)) ≤ (f.left ++ f.right).length := by
    split_ifs
    · exact le_rfl
    · exact Nat.zero_le _
    · exact hskip
  have hmoves := @movesTo_withinLine editor f _ hcolumn
  have hreference : f.buffer.lineStart = f.buffer.goto ((f.above.flatMap (· ++ ['\n'])).length +
      if f.left.length = 0 then (f.left ++ f.right).length
      else if f.left.length ≤ indentWidth (f.left ++ f.right) then 0
      else indentWidth (f.left ++ f.right)) := by
    rw [Buffer.lineStart, Focus.lineBefore_buffer hclean, Focus.lineAfter_buffer hclean,
      Focus.aboveLine_buffer hclean]
    by_cases hleft : f.left.length = 0
    · simp only [List.length_append, hleft, Nat.zero_add]
    · simp only [if_neg hleft]
  rw [hreference, moveLineStart, line_put]
  exact hmoves

lemma movesTo_lineEnd (hclean : f.Clean) : MovesTo editor f (editor.put f).moveLineEnd
    (f.buffer.goto (f.buffer.before.length + f.buffer.lineAfter.length)) := by
  have hmoves := @movesTo_withinLine editor f _ le_rfl
  have hlength : f.buffer.before.length + f.buffer.lineAfter.length =
      (f.above.flatMap (· ++ ['\n'])).length + (f.left ++ f.right).length := by
    rw [Focus.length_before, Focus.lineAfter_buffer hclean, List.length_append, Nat.add_assoc]
  rw [moveLineEnd, line_put, hlength]
  exact hmoves

lemma movesTo_left : MovesTo editor f (editor.put f).moveLeft
    (f.buffer.goto (f.buffer.before.length - 1)) := by
  obtain ⟨above, left, right, below⟩ := f
  rcases List.eq_nil_or_concat' left with rfl | ⟨left, c, rfl⟩
  · rcases List.eq_nil_or_concat' above with rfl | ⟨above, line, rfl⟩
    · exact ⟨_, rfl, Focus.buffer_eq_goto rfl, by simp [moveLeft, Focus.cursor, put]⟩
    · have hlines : (⟨above, line, [], right :: below⟩ : Focus).lines =
          (⟨above ++ [line], [], right, below⟩ : Focus).lines := by
        simp [Focus.lines]
      refine ⟨⟨above, line, [], right :: below⟩, hlines, ?_, ?_⟩
      · rw [Focus.buffer_eq_goto hlines, Focus.length_before, Focus.length_before]
        simp
      · simp [moveLeft, Focus.cursor, put, Focus.lines]
  · have hlines : (⟨above, left, c :: right, below⟩ : Focus).lines =
        (⟨above, left ++ [c], right, below⟩ : Focus).lines := by
      simp [Focus.lines]
    refine ⟨⟨above, left, c :: right, below⟩, hlines, ?_, ?_⟩
    · rw [Focus.buffer_eq_goto hlines, Focus.length_before, Focus.length_before]
      simp
    · simp [moveLeft, Focus.cursor, put, Focus.lines]

lemma movesTo_right : MovesTo editor f (editor.put f).moveRight
    (f.buffer.goto (f.buffer.before.length + 1)) := by
  obtain ⟨above, left, right, below⟩ := f
  cases right with
  | nil =>
    cases below with
    | nil =>
      refine ⟨_, rfl, ?_, by simp [moveRight, Focus.cursor, put, Focus.lines, Editor.line]⟩
      simp [Focus.buffer, Buffer.goto, Buffer.text]
    | cons line below =>
      have hlines : (⟨above ++ [left], [], line, below⟩ : Focus).lines =
          (⟨above, left, [], line :: below⟩ : Focus).lines := by
        simp [Focus.lines]
      refine ⟨⟨above ++ [left], [], line, below⟩, hlines, ?_, ?_⟩
      · rw [Focus.buffer_eq_goto hlines, Focus.length_before, Focus.length_before]
        simp [Nat.add_assoc]
      · simp [moveRight, Focus.cursor, put, Focus.lines, Editor.line]
  | cons c right =>
    have hlines : (⟨above, left ++ [c], right, below⟩ : Focus).lines =
        (⟨above, left, c :: right, below⟩ : Focus).lines := by
      simp [Focus.lines]
    refine ⟨⟨above, left ++ [c], right, below⟩, hlines, ?_, ?_⟩
    · rw [Focus.buffer_eq_goto hlines, Focus.length_before, Focus.length_before]
      simp [Nat.add_assoc]
    · simp [moveRight, Focus.cursor, put, Focus.lines, Editor.line]

/-- A text that does not end with a line break, or none. -/
lemma rdropWhile_breaks {front left : List Char} (hleft : '\n' ∉ left)
    (hshort : left = [] → front = []) :
    (front ++ left).rdropWhile (· = '\n') = front ++ left := by
  rcases List.eq_nil_or_concat' left with rfl | ⟨left, c, rfl⟩
  · rw [hshort rfl]
    rfl
  · have hc : ¬decide (c = '\n') = true := fun h =>
      hleft (List.mem_append_right _ (List.mem_singleton.2 (of_decide_eq_true h).symm))
    rw [← List.append_assoc, List.rdropWhile_concat, if_neg hc]

lemma movesTo_wordLeft_here (hclean : f.Clean) (hshort : f.left = [] → f.above = []) :
    wordLeft alphanumeric f.lines f.above.length f.left.length =
      ⟨f.above.length, (Buffer.withoutWord alphanumeric f.left).length⟩ ∧
    f.buffer.wordLeft alphanumeric = f.buffer.goto ((f.above.flatMap (· ++ ['\n'])).length +
      (Buffer.withoutWord alphanumeric f.left).length) := by
  have hboundary : wordBoundary alphanumeric (f.left ++ f.right) f.left.length =
      (Buffer.withoutWord alphanumeric f.left).length := by
    rw [wordBoundary, List.take_left]
    rfl
  have hfront : f.left = [] → f.above.flatMap (· ++ ['\n']) = [] := fun h => by
    rw [hshort h, List.flatMap_nil]
  have hline := (Focus.clean_iff.1 hclean).2.1.1.1
  obtain ⟨htake, hdrop⟩ := Focus.rtakeWhile_front (Focus.getLast_above f.above) hline
  constructor
  · rw [← hboundary, ← Focus.getD_lines]
    cases hlength : f.above.length with
    | zero => rw [wordLeft]
    | succ n =>
      rw [wordLeft, if_neg]
      intro hzero
      rw [hshort (List.length_eq_zero_iff.1 hzero)] at hlength
      cases hlength
  · rw [Buffer.wordLeft, Focus.buffer]
    dsimp only
    rw [rdropWhile_breaks hline hfront, htake, hdrop, List.length_append]

lemma movesTo_wordLeft (hclean : f.Clean) : ∃ f' : Focus, f'.lines = f.lines ∧
    f'.cursor = wordLeft alphanumeric f.lines f.above.length f.left.length ∧
    f'.buffer = f.buffer.wordLeft alphanumeric := by
  obtain ⟨above, left, right, below⟩ := f
  induction above using List.reverseRecOn generalizing left right below with
  | nil =>
    obtain ⟨hcursor, hbuffer⟩ := @movesTo_wordLeft_here alphanumeric _ hclean
      fun _ => rfl
    rw [hcursor, hbuffer]
    exact exists_withinLine ((withoutWord_isPrefix left).length_le.trans (by simp))
  | append_singleton above line ih =>
    by_cases hleft : left = []
    · subst hleft
      have hlines : (⟨above, line, [], right :: below⟩ : Focus).lines =
          (⟨above ++ [line], [], right, below⟩ : Focus).lines := by
        simp [Focus.lines]
      obtain ⟨f', hsame, hcursor, hbuffer⟩ := ih line [] (right :: below)
        (Focus.clean_of_lines hlines hclean)
      have hget := Focus.getD_lines ⟨above, line, [], right :: below⟩
      rw [hlines, List.append_nil] at hget
      refine ⟨f', hsame.trans hlines, ?_, ?_⟩
      · rw [hcursor, hlines, List.length_append, List.length_singleton, wordLeft,
          if_pos List.length_nil, hget]
      · have hbefore : (⟨above ++ [line], [], right, below⟩ : Focus).buffer.before.rdropWhile
            (· = '\n') = (⟨above, line, [], right :: below⟩ : Focus).buffer.before.rdropWhile
              (· = '\n') := by
          rw [Focus.buffer, List.flatMap_append, List.flatMap_singleton, List.append_nil,
            ← List.append_assoc, List.rdropWhile_concat, if_pos (decide_eq_true rfl)]
          rfl
        rw [hbuffer, Buffer.wordLeft, Buffer.wordLeft, hbefore, Buffer.goto, Buffer.goto,
          Focus.text_buffer, Focus.text_buffer, hlines]
    · obtain ⟨hcursor, hbuffer⟩ := @movesTo_wordLeft_here alphanumeric _ hclean
        fun h => absurd h hleft
      rw [hcursor, hbuffer]
      exact exists_withinLine ((withoutWord_isPrefix left).length_le.trans (by simp))

/-- A text that does not start with a line break, or none. -/
lemma takeWhile_breaks {right back : List Char} (hright : '\n' ∉ right)
    (hshort : right = [] → back = []) : (right ++ back).takeWhile (· = '\n') = [] ∧
      (right ++ back).dropWhile (· = '\n') = right ++ back := by
  cases right with
  | nil =>
    rw [hshort rfl]
    exact ⟨rfl, rfl⟩
  | cons c right =>
    have hc : ¬decide (c = '\n') = true := fun h =>
      hright (List.mem_cons.2 (Or.inl (of_decide_eq_true h).symm))
    rw [List.cons_append, List.takeWhile_cons, List.dropWhile_cons, if_neg hc, if_neg hc]
    exact ⟨rfl, rfl⟩

/-- The characters up to the end of the next word. -/
def wordLength (alphanumeric : Char → Bool) (line : List Char) : ℕ :=
  (line.takeWhile (!isWordChar alphanumeric ·)).length +
    ((line.dropWhile (!isWordChar alphanumeric ·)).takeWhile (isWordChar alphanumeric)).length

lemma wordLength_le (line : List Char) : wordLength alphanumeric line ≤ line.length := by
  have hword := (List.takeWhile_prefix (l := line.dropWhile (!isWordChar alphanumeric ·))
    (isWordChar alphanumeric)).length_le
  have hline := congrArg List.length
    (List.takeWhile_append_dropWhile (p := (!isWordChar alphanumeric ·)) (l := line))
  rw [List.length_append] at hline
  rw [wordLength]
  omega

lemma wordEnd_eq (line : List Char) (column : ℕ) :
    (wordEnd alphanumeric line column).getD column =
      column + wordLength alphanumeric (line.drop column) := by
  rw [wordEnd, wordLength]
  split_ifs with hpos
  · rfl
  · rw [Option.getD_none]
    omega

lemma movesTo_wordRight_here (hclean : f.Clean) (hshort : f.right = [] → f.below = []) :
    wordRight alphanumeric f.lines f.above.length f.left.length =
      ⟨f.above.length, f.left.length + wordLength alphanumeric f.right⟩ ∧
    f.buffer.wordRight alphanumeric = f.buffer.goto ((f.above.flatMap (· ++ ['\n'])).length +
      (f.left.length + wordLength alphanumeric f.right)) := by
  have hback : f.right = [] → f.below.flatMap ('\n' :: ·) = [] := fun h => by
    rw [hshort h, List.flatMap_nil]
  have hline := (Focus.clean_iff.1 hclean).2.1.2.1
  obtain ⟨hbreaks, hrest⟩ := takeWhile_breaks hline hback
  constructor
  · rw [wordRight, if_neg, Focus.getD_lines, wordEnd_eq, List.drop_left]
    rw [Focus.getD_lines]
    rintro ⟨hlength, hmore⟩
    rw [List.length_append] at hlength
    have hright : f.right = [] := List.length_eq_zero_iff.1 (by omega)
    rw [Focus.lines, hshort hright, List.length_append] at hmore
    exact absurd hmore (by simp)
  · rw [Buffer.wordRight, Focus.length_before, Focus.buffer]
    dsimp only
    rw [hbreaks, hrest, (Focus.takeWhile_below hline f.below).1, List.length_nil, Nat.add_zero,
      Nat.add_assoc]
    rfl

lemma movesTo_wordRight (hclean : f.Clean) : ∃ f' : Focus, f'.lines = f.lines ∧
    f'.cursor = wordRight alphanumeric f.lines f.above.length f.left.length ∧
    f'.buffer = f.buffer.wordRight alphanumeric := by
  obtain ⟨above, left, right, below⟩ := f
  induction below generalizing above left right with
  | nil =>
    obtain ⟨hcursor, hbuffer⟩ := @movesTo_wordRight_here alphanumeric _ hclean
      fun _ => rfl
    rw [hcursor, hbuffer]
    refine exists_withinLine ?_
    rw [List.length_append]
    exact Nat.add_le_add_left (wordLength_le right) _
  | cons line below ih =>
    by_cases hright : right = []
    · subst hright
      have hlines : (⟨above ++ [left], [], line, below⟩ : Focus).lines =
          (⟨above, left, [], line :: below⟩ : Focus).lines := by
        simp [Focus.lines]
      obtain ⟨f', hsame, hcursor, hbuffer⟩ := ih (above ++ [left]) [] line
        (Focus.clean_of_lines hlines hclean)
      have hget := Focus.getD_lines ⟨above, left, [], line :: below⟩
      rw [List.append_nil] at hget
      refine ⟨f', hsame.trans hlines, ?_, ?_⟩
      · have hedge : left.length = ((⟨above, left, [], line :: below⟩ : Focus).lines.getD
            above.length []).length ∧
              above.length + 1 < (⟨above, left, [], line :: below⟩ : Focus).lines.length := by
          rw [hget, Focus.lines, List.length_append, List.length_cons, List.length_cons]
          exact ⟨rfl, Nat.add_lt_add_left (Nat.succ_lt_succ (Nat.succ_pos _)) _⟩
        rw [hcursor, hlines, List.length_append, List.length_singleton]
        conv_rhs => rw [wordRight, if_pos hedge]
        rfl
      · have hbreaks : (⟨above, left, [], line :: below⟩ : Focus).buffer.after.takeWhile
            (· = '\n') = '\n' :: (⟨above ++ [left], [], line, below⟩ : Focus).buffer.after.takeWhile
              (· = '\n') := by
          rw [Focus.buffer, List.flatMap_cons, List.nil_append, List.cons_append,
            List.takeWhile_cons, if_pos (decide_eq_true rfl)]
          rfl
        have hrest : (⟨above, left, [], line :: below⟩ : Focus).buffer.after.dropWhile
            (· = '\n') = (⟨above ++ [left], [], line, below⟩ : Focus).buffer.after.dropWhile
              (· = '\n') := by
          rw [Focus.buffer, List.flatMap_cons, List.nil_append, List.cons_append,
            List.dropWhile_cons, if_pos (decide_eq_true rfl)]
          rfl
        have hlength : (⟨above ++ [left], [], line, below⟩ : Focus).buffer.before.length =
            (⟨above, left, [], line :: below⟩ : Focus).buffer.before.length + 1 := by
          rw [Focus.length_before, Focus.length_before, List.flatMap_append, List.length_append,
            List.flatMap_singleton, List.length_append, List.length_singleton, List.length_nil,
            Nat.add_zero, Nat.add_assoc]
        rw [hbuffer, Buffer.wordRight, Buffer.wordRight, hbreaks, hrest, hlength, Buffer.goto,
          Buffer.goto, Focus.text_buffer, Focus.text_buffer, hlines, List.length_cons]
        simp only [Nat.add_assoc, Nat.add_comm 1]
    · obtain ⟨hcursor, hbuffer⟩ := @movesTo_wordRight_here alphanumeric _ hclean
        fun h => absurd h hright
      rw [hcursor, hbuffer]
      refine exists_withinLine ?_
      rw [List.length_append]
      exact Nat.add_le_add_left (wordLength_le right) _

/-- The caret at any place of the lines. -/
lemma exists_place (hclean : f.Clean) {cursor : Cursor} (hline : cursor.line < f.lines.length)
    (hcolumn : cursor.column ≤ (f.lines.getD cursor.line []).length) :
    ∃ f' : Focus, f'.lines = f.lines ∧ f'.cursor = cursor ∧ f'.buffer = f.buffer.place cursor := by
  have hlines := Focus.lines_ofCaret hline
  have hcursor := Focus.cursor_ofCaret hline hcolumn
  refine ⟨Focus.ofCaret f.lines cursor, hlines, hcursor, ?_⟩
  rw [Focus.buffer_eq_goto hlines, Focus.length_before, Buffer.place, Focus.lines_buffer hclean,
    ← (Cursor.mk.inj hcursor).2]
  rfl

/-- The caret in a display row, at a column. -/
lemma exists_inRow (hclean : f.Clean) {width : ℕ} {row : Row}
    (hrow : row ∈ bufferRows f.lines width) (wanted : ℕ) : ∃ f' : Focus, f'.lines = f.lines ∧
      f'.cursor = ⟨row.line, columnAt (f.lines.getD row.line []) row.start row.stop wanted⟩ ∧
      f'.buffer = f.buffer.place
        ⟨row.line, columnAt (f.lines.getD row.line []) row.start row.stop wanted⟩ := by
  obtain ⟨text, hline, hspan⟩ := mem_bufferRows hrow
  have hget : f.lines.getD row.line [] = text := by
    rw [List.getD_eq_getElem?_getD, hline]
    rfl
  obtain ⟨-, hle, hstop⟩ := (tiles_lineRows text width).mem hspan
  rw [hget]
  refine exists_place hclean (List.getElem?_eq_some_iff.1 hline).1 ?_
  rw [hget]
  exact (columnAt_le hle hstop).2.trans hstop

lemma exists_start (hclean : f.Clean) : ∃ f' : Focus, f'.lines = f.lines ∧ f'.cursor = ⟨0, 0⟩ ∧
    f'.buffer = f.buffer.goto 0 := by
  have hpos : 0 < f.lines.length := by
    rw [Focus.lines, List.length_append, List.length_cons]
    omega
  exact exists_place hclean hpos (Nat.zero_le _)

lemma exists_end : ∃ f' : Focus, f'.lines = f.lines ∧ f'.cursor = bufferEnd f.lines ∧
    f'.buffer = f.buffer.goto f.buffer.text.length := by
  obtain ⟨lines, last, hsplit⟩ : ∃ lines last, f.lines = lines ++ [last] := by
    rcases List.eq_nil_or_concat' f.lines with hnil | ⟨lines, last, hsplit⟩
    · rw [Focus.lines] at hnil
      exact absurd hnil (by simp)
    · exact ⟨lines, last, hsplit⟩
  have hlines : (⟨lines, last, [], []⟩ : Focus).lines = f.lines := by
    rw [Focus.lines, List.append_nil, hsplit]
  refine ⟨⟨lines, last, [], []⟩, hlines, ?_, ?_⟩
  · rw [hsplit, bufferEnd, Focus.cursor, List.length_append, List.length_singleton,
      Nat.add_sub_cancel, List.getLastD_concat]
  · have htext : (⟨lines, last, [], []⟩ : Focus).buffer.text = f.buffer.text := by
      rw [Focus.text_buffer, Focus.text_buffer, hlines]
    rw [Focus.buffer_eq_goto hlines, ← htext]
    exact congrArg (fun text => f.buffer.goto (List.length text)) (List.append_nil _).symm

end Put

end Editor

end Rupi.Tui
