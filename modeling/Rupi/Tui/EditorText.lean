import Rupi.Tui.Focus

/-!
The editor is its text.

- `Editor.WellFormed`: the caret is in a line, no line holds a line break, and what is recalled is
  in the history.
- `Follows`: an answer of the editor is the answer of the reference, and the editor behind it is
  well formed and has the reference's text.
- `nothingToDelete`: a deletion at a place where there is nothing to delete.
- **`follows_apply`**: an intent that does not end a recall for nothing does to the editor what it
  does to the text, and answers the same.
-/

namespace Rupi.Tui

namespace Editor

/-- The text of an editor, with its caret as the insertion point. -/
def buffer (editor : Editor) : Buffer := (Focus.ofCaret editor.lines editor.cursor).buffer

/-- An editor as a buffer with what it remembers. -/
def toReference (editor : Editor) : Reference where
  buffer := editor.buffer
  desired := editor.desired
  width := editor.width
  history := editor.history
  recalled := editor.recalled
  draft := editor.draft
  completions := editor.completions
  completion := editor.completion

/-- The lines and the caret belong together, and so do the history and what is recalled of it. -/
structure WellFormed (editor : Editor) : Prop where
  caret : ∃ f : Focus, f.Clean ∧ editor.put f = editor
  drafted : editor.recalled.isSome = editor.draft.isSome
  depth : ∀ distance ∈ editor.recalled, distance < editor.history.length
  history : ∀ entry ∈ editor.history, '\r' ∉ entry
  draft : ∀ text ∈ editor.draft, '\r' ∉ text
  names : ∀ name ∈ editor.completions.words, '\n' ∉ name ∧ '\r' ∉ name

/-- An answer of the editor and an answer of the reference. -/
def Follows (answer : Outcome × Editor) (reference : Outcome × Reference) : Prop :=
  answer.1 = reference.1 ∧ answer.2.toReference = reference.2 ∧ answer.2.WellFormed

section Follows

variable {alphanumeric : Char → Bool} {editor : Editor} {f : Focus}

lemma toReference_put : (editor.put f).toReference =
    { editor.toReference with buffer := f.buffer } := by
  rw [toReference, toReference, buffer, lines_put]
  have h : Focus.ofCaret f.lines (editor.put f).cursor = f := f.ofCaret_lines
  rw [h]
  rfl

lemma WellFormed.put (h : editor.WellFormed) (hclean : f.Clean) : (editor.put f).WellFormed where
  caret := ⟨f, hclean, rfl⟩
  drafted := h.drafted
  depth := h.depth
  history := h.history
  draft := h.draft
  names := h.names

lemma WellFormed.desired (h : editor.WellFormed) (desired : Option ℕ) :
    { editor with desired }.WellFormed := by
  obtain ⟨f, hclean, hput⟩ := h.caret
  exact ⟨⟨f, hclean, congrArg (fun e : Editor => { e with desired }) hput⟩, h.drafted, h.depth,
    h.history, h.draft, h.names⟩

lemma WellFormed.completion (h : editor.WellFormed) (completion : Option (List Char × ℕ)) :
    { editor with completion }.WellFormed := by
  obtain ⟨f, hclean, hput⟩ := h.caret
  exact ⟨⟨f, hclean, congrArg (fun e : Editor => { e with completion }) hput⟩, h.drafted, h.depth,
    h.history, h.draft, h.names⟩

lemma WellFormed.recallResetOnEdit (h : editor.WellFormed) :
    editor.recallResetOnEdit.WellFormed := by
  obtain ⟨f, hclean, hput⟩ := h.caret
  exact ⟨⟨f, hclean, congrArg Editor.recallResetOnEdit hput⟩, rfl, fun _ h => (nomatch h),
    h.history, fun _ h => (nomatch h), h.names⟩

/-! ### Edits -/

lemma follows_edit (h : editor.WellFormed) (hclean : f.Clean) :
    Follows (.changed, editor.recallResetOnEdit.put f) (editor.toReference.edit f.buffer) := by
  refine ⟨rfl, ?_, h.recallResetOnEdit.put hclean⟩
  rw [toReference_put]
  rfl

lemma buffer_of_put (hput : editor.put f = editor) : editor.buffer = f.buffer := by
  rw [← hput, buffer]
  exact congrArg Focus.buffer f.ofCaret_lines

lemma recallResetOnEdit_put (hput : editor.put f = editor) :
    editor.recallResetOnEdit.put f = editor.recallResetOnEdit :=
  congrArg Editor.recallResetOnEdit hput

lemma follows_insert (h : editor.WellFormed) (text : List Char) :
    Follows (.changed, editor.recallResetOnEdit.insertStr text)
      (editor.toReference.edit (editor.buffer.insert text)) := by
  obtain ⟨f, hclean, hput⟩ := h.caret
  obtain ⟨f', hinsert, hbuffer, hclean'⟩ :=
    @insertStr_put editor.recallResetOnEdit f hclean text
  rw [← recallResetOnEdit_put hput, hinsert, buffer_of_put hput, ← hbuffer]
  exact follows_edit h hclean'

lemma follows_newline (h : editor.WellFormed) :
    Follows (.changed, editor.recallResetOnEdit.splitLine)
      (editor.toReference.edit (editor.buffer.insert ['\n'])) := by
  obtain ⟨f, hclean, hput⟩ := h.caret
  have hbuffer : f.buffer.insert ['\n'] =
      (⟨f.above ++ [f.left], [], f.right, f.below⟩ : Focus).buffer := by
    rw [Buffer.insert, Focus.buffer, Focus.buffer, List.flatMap_append, List.flatMap_singleton,
      List.append_nil, List.append_assoc]
    rfl
  rw [← recallResetOnEdit_put hput, splitLine_put, buffer_of_put hput, hbuffer]
  refine follows_edit h ?_
  rw [Focus.clean_iff] at hclean ⊢
  exact ⟨List.forall_mem_append.2 ⟨hclean.1, List.forall_mem_singleton.2 hclean.2.1.1⟩,
    ⟨⟨List.not_mem_nil, List.not_mem_nil⟩, hclean.2.1.2⟩, hclean.2.2⟩

/-- A deletion that finds nothing when nothing is recalled leaves all but the column. -/
lemma follows_deletion {delete : Editor → Option Editor} {reference : Buffer → Option Buffer}
    (h : editor.WellFormed)
    (hdeletes : ∀ f : Focus, f.Clean → Deletes editor.recallResetOnEdit delete reference f)
    (hnothing : delete editor.recallResetOnEdit = none → editor.recalled = none) :
    Follows (editor.deletion delete) (editor.toReference.delete (reference editor.buffer)) := by
  obtain ⟨f, hclean, hput⟩ := h.caret
  obtain ⟨deleted, hdelete, hreference, hall⟩ := hdeletes f hclean
  rw [recallResetOnEdit_put hput] at hdelete
  rw [deletion, hdelete, buffer_of_put hput, hreference]
  cases deleted with
  | some f' => exact follows_edit h (hall f' rfl)
  | none =>
    have hrecalled := hnothing hdelete
    have hdraft : editor.draft = none := by
      rw [← Option.isNone_iff_eq_none, ← Option.not_isSome, ← h.drafted, hrecalled]
      rfl
    refine ⟨rfl, ?_, h.recallResetOnEdit⟩
    simp only [Option.map_none, Reference.delete, recallResetOnEdit, toReference, hrecalled,
      hdraft]
    rfl

/-! ### Moves -/

lemma follows_move (h : editor.WellFormed) {answer : Outcome × Editor} {reference : Buffer}
    (hmoves : ∀ f : Focus, f.Clean → editor.put f = editor → f.buffer = editor.buffer →
      MovesTo editor f answer reference) :
    Follows answer (editor.toReference.move reference) := by
  obtain ⟨f, hclean, hput⟩ := h.caret
  have hbuffer := buffer_of_put hput
  obtain ⟨f', hlines, rfl, rfl⟩ := hmoves f hclean hput hbuffer.symm
  refine ⟨?_, ?_, (h.put (Focus.clean_of_lines hlines hclean)).desired none⟩
  · have hsame := Focus.buffer_eq_iff hclean hlines
    rw [← hbuffer] at hsame
    rw [Reference.move]
    exact ite_congr (propext hsame.symm) (fun _ => rfl) fun _ => rfl
  · have hput' := @toReference_put editor f'
    exact congrArg (fun r : Reference => { r with desired := none }) hput'

lemma WellFormed.lines_buffer (h : editor.WellFormed) : editor.buffer.lines = editor.lines := by
  obtain ⟨f, hclean, hput⟩ := h.caret
  rw [buffer_of_put hput, Focus.lines_buffer hclean, ← hput]
  rfl

lemma WellFormed.cursor_buffer (h : editor.WellFormed) :
    editor.buffer.cursor = editor.cursor := by
  obtain ⟨f, hclean, hput⟩ := h.caret
  rw [buffer_of_put hput, Focus.cursor_buffer hclean, ← hput]
  rfl

lemma WellFormed.text_buffer (h : editor.WellFormed) : editor.buffer.text = editor.text := by
  obtain ⟨f, hclean, hput⟩ := h.caret
  rw [buffer_of_put hput, Focus.text_buffer, text, ← hput]
  rfl

lemma caretRowFrom_lt {lines : List (List Char)} {cursor : Cursor} {rows : List Row}
    {index row column : ℕ} (h : caretRowFrom lines cursor index rows = (row, column)) :
    row < index + rows.length ∨ row = 0 := by
  induction rows generalizing index with
  | nil => exact Or.inr (Prod.mk.inj h).1.symm
  | cons first rows ih =>
    rw [caretRowFrom] at h
    rw [List.length_cons]
    split_ifs at h
    · have hrow := (Prod.mk.inj h).1
      exact Or.inl (by omega)
    · obtain hlt | hzero := ih h
      · exact Or.inl (by omega)
      · exact Or.inr hzero

lemma follows_moveToRow (h : editor.WellFormed) {column target : ℕ}
    (htarget : target < (bufferRows editor.lines editor.width).length) :
    Follows (editor.moveToRow column target) (editor.toReference.moveToRow column target) := by
  obtain ⟨f, hclean, hput⟩ := h.caret
  have hlines : f.lines = editor.lines := congrArg Editor.lines hput
  have hrow : (bufferRows f.lines editor.width).getD target ⟨0, 0, 0⟩ ∈
      bufferRows f.lines editor.width := by
    rw [hlines, List.getD_eq_getElem?_getD, List.getElem?_eq_getElem htarget]
    exact List.getElem_mem _
  obtain ⟨f', hsame, hcursor, hbuffer⟩ :=
    exists_inRow hclean hrow (editor.desired.getD column)
  rw [hlines] at hsame hcursor hbuffer
  have hanswer : (editor.moveToRow column target).2 =
      { editor.put f' with desired := some (editor.desired.getD column) } := by
    rw [moveToRow, put, hsame, hcursor]
  have hreference : (editor.toReference.moveToRow column target).2 =
      { editor.toReference with
        buffer := f'.buffer, desired := some (editor.desired.getD column) } := by
    rw [hbuffer, ← buffer_of_put hput]
    simp only [Reference.moveToRow, toReference, h.lines_buffer]
  rw [Follows, hanswer, hreference]
  exact ⟨rfl, congrArg (fun r : Reference => { r with
      desired := some (editor.desired.getD column) }) (@toReference_put editor f'),
    (h.put (Focus.clean_of_lines (hsame.trans hlines.symm) hclean)).desired _⟩

/-! ### Recall -/

lemma WellFormed.not_mem_text (h : editor.WellFormed) : '\r' ∉ editor.text := by
  obtain ⟨f, hclean, hput⟩ := h.caret
  rw [← hput]
  exact Focus.not_mem_intercalate (by decide) fun line hline => (hclean line hline).2

/-- A text that holds no carriage return, loaded. -/
lemma exists_load {content : List Char} (hcontent : '\r' ∉ content) : ∃ f : Focus, f.Clean ∧
    f.buffer = ⟨content, []⟩ ∧ editor.load content = { editor.put f with desired := none } := by
  obtain ⟨lines, last, hsplit⟩ : ∃ lines last, content.splitOn '\n' = lines ++ [last] := by
    rcases List.eq_nil_or_concat' (content.splitOn '\n') with hnil | ⟨lines, last, hsplit⟩
    · exact absurd hnil (List.splitOn_ne_nil _ _)
    · exact ⟨lines, last, hsplit⟩
  have hlines : (⟨lines, last, [], []⟩ : Focus).lines = content.splitOn '\n' := by
    rw [Focus.lines, List.append_nil, hsplit]
  have hcursor : (⟨lines, last, [], []⟩ : Focus).cursor = bufferEnd (content.splitOn '\n') := by
    rw [hsplit, bufferEnd, Focus.cursor, List.length_append, List.length_singleton,
      Nat.add_sub_cancel, List.getLastD_concat]
  have hjoin : ['\n'].intercalate (content.splitOn '\n') = content :=
    List.intercalate_splitOn '\n'
  refine ⟨⟨lines, last, [], []⟩, ?_, ?_, ?_⟩
  · rw [Focus.Clean, hlines]
    refine fun line hline => ⟨notMem_splitOn hline, fun hmem => hcontent ?_⟩
    rw [← hjoin]
    exact Focus.mem_intercalate hline hmem
  · have htext := Focus.text_buffer ⟨lines, last, [], []⟩
    rw [hlines, hjoin, Buffer.text] at htext
    rw [← htext]
    exact congrArg (fun before => Buffer.mk before []) (List.append_nil _).symm
  · rw [load, put, hlines, hcursor]

lemma historyAt_clean {history : List (List Char)} (h : ∀ entry ∈ history, '\r' ∉ entry)
    (distance : ℕ) : '\r' ∉ historyAt history distance := by
  rw [historyAt, List.getD_eq_getElem?_getD]
  cases hget : history[history.length - 1 - distance]? with
  | none => exact List.not_mem_nil
  | some entry => exact h entry (List.mem_of_getElem? hget)

/-- An answer that loads a text. -/
lemma follows_load (h : editor.WellFormed) {content : List Char} (hcontent : '\r' ∉ content) :
    Follows (.changed, editor.load content) (.changed, editor.toReference.load content) := by
  obtain ⟨f, hclean, hbuffer, hload⟩ := @exists_load editor content hcontent
  rw [Follows, hload]
  refine ⟨rfl, ?_, (h.put hclean).desired none⟩
  rw [Reference.load, ← hbuffer]
  exact congrArg (fun r : Reference => { r with desired := none }) (@toReference_put editor f)

lemma WellFormed.recalling (h : editor.WellFormed) {recalled : Option ℕ}
    {draft : Option (List Char)} (hdrafted : recalled.isSome = draft.isSome)
    (hdepth : ∀ distance ∈ recalled, distance < editor.history.length)
    (hdraft : ∀ text ∈ draft, '\r' ∉ text) : { editor with recalled, draft }.WellFormed := by
  obtain ⟨f, hclean, hput⟩ := h.caret
  exact ⟨⟨f, hclean, congrArg (fun e : Editor => { e with recalled, draft }) hput⟩, hdrafted,
    hdepth, h.history, hdraft, h.names⟩

lemma follows_recallOlder (h : editor.WellFormed) :
    Follows editor.recallOlder editor.toReference.recallOlder := by
  have htext : editor.toReference.buffer.text = editor.text := h.text_buffer
  have hhistory : editor.toReference.history = editor.history := rfl
  have hrecalled : editor.toReference.recalled = editor.recalled := rfl
  rw [recallOlder, Reference.recallOlder, hhistory, hrecalled, htext]
  by_cases hend : editor.history.length ≤ editor.recalled.elim 0 (· + 1)
  · rw [if_pos hend, if_pos hend]
    exact ⟨rfl, rfl, h⟩
  · rw [if_neg hend, if_neg hend]
    have hdrafted : (some (editor.recalled.elim 0 (· + 1))).isSome =
        (if editor.recalled.isNone then some editor.text else editor.draft).isSome := by
      split_ifs with hopen
      · rfl
      · rw [← h.drafted]
        cases hdistance : editor.recalled with
        | none =>
          rw [hdistance] at hopen
          exact absurd rfl hopen
        | some distance => rfl
    have hdraft : ∀ text ∈ (if editor.recalled.isNone then some editor.text else editor.draft),
        '\r' ∉ text := by
      split_ifs with hopen
      · rintro text ⟨⟩
        exact h.not_mem_text
      · exact h.draft
    have hdepth : ∀ distance ∈ some (editor.recalled.elim 0 (· + 1)),
        distance < editor.history.length := by
      rintro distance ⟨⟩
      exact not_le.1 hend
    exact follows_load (h.recalling hdrafted hdepth hdraft) (historyAt_clean h.history _)

lemma follows_recallNewer (h : editor.WellFormed) :
    Follows editor.recallNewer editor.toReference.recallNewer := by
  have hrecalled : editor.toReference.recalled = editor.recalled := rfl
  rw [recallNewer.eq_def, Reference.recallNewer.eq_def, hrecalled]
  cases hdistance : editor.recalled with
  | none => exact ⟨rfl, rfl, h⟩
  | some distance =>
    cases distance with
    | zero =>
      refine follows_load
        (@WellFormed.recalling editor h none none rfl (fun _ h => nomatch h) fun _ h => nomatch h) ?_
      cases hdraft : editor.draft with
      | none => exact List.not_mem_nil
      | some text => exact h.draft text hdraft
    | succ newer =>
      have hdrafted : (some newer).isSome = editor.draft.isSome := by
        rw [← h.drafted, hdistance]
        rfl
      have hdepth : ∀ distance ∈ some newer, distance < editor.history.length := by
        rintro distance ⟨⟩
        exact (Nat.lt_succ_self newer).trans (h.depth _ hdistance)
      exact follows_load (h.recalling hdrafted hdepth h.draft) (historyAt_clean h.history newer)

lemma caretRow_toReference (h : editor.WellFormed) : editor.toReference.caretRow =
    caretRow (bufferRows editor.lines editor.width) editor.lines editor.cursor := by
  rw [Reference.caretRow]
  simp only [toReference, h.lines_buffer, h.cursor_buffer]

lemma follows_rowUp (h : editor.WellFormed) :
    Follows editor.rowUp editor.toReference.rowUp := by
  rw [rowUp.eq_def, Reference.rowUp.eq_def, caretRow_toReference h]
  cases hcaret : caretRow (bufferRows editor.lines editor.width) editor.lines editor.cursor with
  | mk row column =>
    cases row with
    | zero => exact follows_recallOlder h
    | succ target =>
      obtain hlt | hzero := caretRowFrom_lt hcaret
      · exact follows_moveToRow h (by omega)
      · cases hzero

lemma follows_rowDown (h : editor.WellFormed) :
    Follows editor.rowDown editor.toReference.rowDown := by
  have hrows : bufferRows editor.toReference.buffer.lines editor.toReference.width =
      bufferRows editor.lines editor.width :=
    congrArg (bufferRows · editor.width) h.lines_buffer
  rw [rowDown, Reference.rowDown, caretRow_toReference h, hrows]
  dsimp only
  split_ifs with hmore
  · exact follows_moveToRow h hmore
  · exact follows_recallNewer h

/-! ### Completion -/

lemma takeWhile_of_blank {text back : List Char} (hback : ∀ c ∈ back.head?, isWhitespace c) :
    (text ++ back).takeWhile (!isWhitespace ·) = text.takeWhile (!isWhitespace ·) := by
  induction text with
  | nil =>
    cases back with
    | nil => rfl
    | cons c back =>
      have hc : ¬(!isWhitespace c) = true := by
        rw [hback c rfl]
        exact Bool.false_ne_true
      rw [List.nil_append, List.takeWhile_cons, if_neg hc]
      rfl
  | cons c text ih =>
    rw [List.cons_append, List.takeWhile_cons, List.takeWhile_cons, ih]

/-- The first word of the text is that of the first line. -/
lemma firstWord (h : editor.WellFormed) :
    editor.buffer.text.takeWhile (!isWhitespace ·) =
      (editor.lines.getD 0 []).takeWhile (!isWhitespace ·) := by
  rw [h.text_buffer, text]
  cases editor.lines with
  | nil => rfl
  | cons first lines =>
    have hjoin := Focus.intercalate_append_cons [] first lines
    rw [List.nil_append, List.flatMap_nil, List.nil_append] at hjoin
    rw [hjoin, List.getD_cons_zero]
    refine takeWhile_of_blank fun c hc => ?_
    cases lines with
    | nil => cases hc
    | cons line lines =>
      cases hc
      decide

/-- The caret at the end of the first word. -/
lemma before_eq_word (h : editor.WellFormed) :
    editor.buffer.before = (editor.lines.getD 0 []).takeWhile (!isWhitespace ·) ↔
      editor.cursor.line = 0 ∧
        editor.cursor.column = ((editor.lines.getD 0 []).takeWhile (!isWhitespace ·)).length := by
  obtain ⟨⟨above, left, right, below⟩, hclean, hput⟩ := h.caret
  rw [buffer_of_put hput, ← hput]
  constructor
  · intro hword
    have habove : above = [] := by
      cases above with
      | nil => rfl
      | cons line above =>
        have hbreak : '\n' ∈ (Focus.mk (line :: above) left right below).buffer.before := by
          simp [Focus.buffer]
        rw [hword] at hbreak
        exact absurd (List.mem_takeWhile_imp hbreak) (by decide)
    subst habove
    exact ⟨rfl, congrArg List.length hword⟩
  · rintro ⟨hline, hcolumn⟩
    obtain rfl : above = [] := List.length_eq_zero_iff.1 hline
    have hle : (left ++ right).takeWhile (!isWhitespace ·) <+: left ++ right :=
      List.takeWhile_prefix _
    have hword : ((left ++ right).takeWhile (!isWhitespace ·)) = left := by
      have hlength : left.length = ((left ++ right).takeWhile (!isWhitespace ·)).length := hcolumn
      rw [List.prefix_iff_eq_take.1 hle, ← hlength, List.take_left]
    exact hword.symm

lemma cycle_toReference (word : List Char) :
    editor.toReference.cycle word = editor.cycle word := by
  rw [Reference.cycle.eq_def, cycle.eq_def]
  cases hcompletion : editor.completion with
  | none =>
    have hreference : editor.toReference.completion = none := hcompletion
    rw [hreference]
  | some open' =>
    have hreference : editor.toReference.completion = some open' := hcompletion
    rw [hreference]
    rfl

/-- A completion in place of the first word. -/
lemma exists_completed (h : editor.WellFormed) {word replacement : List Char}
    (hword : (editor.lines.getD 0 []).takeWhile (!isWhitespace ·) = word)
    (hbefore : editor.buffer.before = word) (hbreak : '\n' ∉ replacement)
    (hreturn : '\r' ∉ replacement) : ∃ f : Focus, f.Clean ∧
      f.buffer = ⟨replacement, editor.buffer.after⟩ ∧
      f.lines = editor.lines.set 0 (replacement ++ (editor.lines.getD 0 []).drop word.length) ∧
      f.cursor = ⟨0, replacement.length⟩ := by
  obtain ⟨hline, hcolumn⟩ := (before_eq_word h).1 (hbefore.trans hword.symm)
  obtain ⟨⟨above, left, right, below⟩, hclean, hput⟩ := h.caret
  rw [buffer_of_put hput] at hbefore ⊢
  rw [← hput] at hline ⊢
  obtain rfl : above = [] := List.length_eq_zero_iff.1 hline
  have hleft : left = word := hbefore
  refine ⟨⟨[], replacement, right, below⟩, ?_, rfl, ?_, rfl⟩
  · rw [Focus.clean_iff] at hclean ⊢
    exact ⟨hclean.1, ⟨⟨hbreak, hreturn⟩, hclean.2.1.2⟩, hclean.2.2⟩
  · have hdrop : (left ++ right).drop word.length = right := by rw [← hleft, List.drop_left]
    exact congrArg (fun back => (replacement ++ back) :: below) hdrop.symm

lemma follows_complete (h : editor.WellFormed) :
    Follows editor.complete editor.toReference.complete := by
  have hcompletions : editor.toReference.completions = editor.completions := rfl
  have hbuffer : editor.toReference.buffer = editor.buffer := rfl
  rw [complete, Reference.complete]
  dsimp only
  rw [hcompletions, hbuffer, firstWord h]
  generalize hword : (editor.lines.getD 0 []).takeWhile (!isWhitespace ·) = word
  have hcaret := before_eq_word h
  rw [hword] at hcaret
  have hcondition : (editor.cursor.line ≠ 0 ∨ editor.cursor.column ≠ word.length ∨
      word.head? ≠ some '/') ↔ (editor.buffer.before ≠ word ∨ word.head? ≠ some '/') := by
    rw [ne_eq editor.buffer.before, hcaret]
    tauto
  by_cases hempty : editor.completions.isEmpty
  · rw [if_pos hempty, if_pos hempty]
    exact ⟨rfl, rfl, h⟩
  · rw [if_neg hempty, if_neg hempty]
    by_cases hoff : editor.buffer.before ≠ word ∨ word.head? ≠ some '/'
    · rw [if_pos (hcondition.2 hoff), if_pos hoff]
      exact ⟨rfl, rfl, h.completion none⟩
    · rw [if_neg fun h => hoff (hcondition.1 h), if_neg hoff, cycle_toReference]
      cases hstep : editor.completions.step (editor.cycle word).1 (editor.cycle word).2 with
      | none => exact ⟨rfl, rfl, h.completion none⟩
      | some replacement =>
        dsimp only
        by_cases hsame : replacement = word
        · rw [if_pos hsame, if_pos hsame]
          exact ⟨rfl, rfl, h.completion _⟩
        · rw [if_neg hsame, if_neg hsame]
          have hbefore : editor.buffer.before = word := not_not.1 (not_or.1 hoff).1
          obtain ⟨f, hclean, hreplaced, hlines, hcursor⟩ := exists_completed h hword hbefore
            (not_mem_step (fun name hname => (h.names name hname).1) (by decide)
              (by decide) hstep)
            (not_mem_step (fun name hname => (h.names name hname).2) (by decide)
              (by decide) hstep)
          rw [← hlines, ← hcursor, ← hreplaced]
          exact ⟨rfl, congrArg (fun r : Reference => { r with
              completion := some (editor.cycle word), desired := none })
            (@toReference_put editor f), ((h.put hclean).completion _).desired none⟩

/-! ### Submission -/

/-- An empty buffer with a history. -/
lemma WellFormed.reset (h : editor.WellFormed) {history : List (List Char)}
    (hhistory : ∀ entry ∈ history, '\r' ∉ entry) : ({ editor with history }.reset).WellFormed := by
  refine ⟨⟨⟨[], [], [], []⟩, ?_, rfl⟩, rfl, fun _ h => (nomatch h), hhistory,
    fun _ h => (nomatch h), h.names⟩
  rw [Focus.clean_iff]
  simp

lemma follows_submit (h : editor.WellFormed) :
    Follows editor.submit editor.toReference.submit := by
  have htext : editor.toReference.buffer.text = editor.text := h.text_buffer
  have hhistory : editor.toReference.history = editor.history := rfl
  rw [submit, Reference.submit, htext, hhistory]
  by_cases hempty : trimChars editor.text = []
  · rw [if_pos hempty, if_pos (List.isEmpty_iff.2 hempty)]
    exact ⟨rfl, rfl, h⟩
  · rw [if_neg hempty, if_neg fun h => hempty (List.isEmpty_iff.1 h)]
    refine ⟨rfl, rfl, h.reset ?_⟩
    split_ifs
    · exact h.history
    · exact List.forall_mem_append.2 ⟨h.history, List.forall_mem_singleton.2 fun hmem =>
        h.not_mem_text (trimChars_subset hmem)⟩

lemma follows_cancel (h : editor.WellFormed) :
    Follows (if editor.isEmpty then (.unchanged, editor) else (.cancelled, editor.reset))
      (if editor.toReference.buffer.text = [] then (.unchanged, editor.toReference)
        else (.cancelled, editor.toReference.reset)) := by
  have hempty : editor.isEmpty = true ↔ editor.toReference.buffer.text = [] := by
    have htext : editor.toReference.buffer.text = editor.text := h.text_buffer
    rw [htext, isEmpty, decide_eq_true_iff]
    constructor
    · intro hlines
      rw [text, hlines]
      rfl
    · intro hnil
      rw [← h.lines_buffer, Buffer.lines, h.text_buffer, hnil]
      rfl
  by_cases h' : editor.isEmpty
  · rw [if_pos h', if_pos (hempty.1 h')]
    exact ⟨rfl, rfl, h⟩
  · rw [if_neg h', if_neg fun h => h' (hempty.2 h)]
    exact ⟨rfl, rfl, h.reset h.history⟩

/-! ### Intents -/

end Follows

/-- Whether an intent is a deletion at a place where there is nothing to delete. -/
def nothingToDelete (editor : Editor) : Intent → Bool
  | .backspace | .deleteWordBackward => editor.cursor = ⟨0, 0⟩
  | .deleteForward =>
      editor.line.length ≤ editor.cursor.column &&
        editor.lines.length ≤ editor.cursor.line + 1
  | .deleteToLineStart => editor.cursor.column = 0
  | .deleteToLineEnd => editor.line.length ≤ editor.cursor.column
  | _ => false

section Intents

variable {alphanumeric : Char → Bool} {editor : Editor}

lemma deleteBackward_eq_none :
    editor.deleteBackward = none ↔ editor.cursor = ⟨0, 0⟩ := by
  obtain ⟨_, ⟨line, column⟩, _, _, _, _, _, _, _⟩ := editor
  rw [deleteBackward, Cursor.mk.injEq]
  dsimp only
  split_ifs with hcolumn hline
  · exact iff_of_false id fun h => hcolumn.ne' h.2
  · exact iff_of_true rfl ⟨hline, by omega⟩
  · exact iff_of_false id fun h => hline h.1

lemma deleteAhead_eq_none : editor.deleteAhead = none ↔
    editor.line.length ≤ editor.cursor.column ∧
      editor.lines.length ≤ editor.cursor.line + 1 := by
  rw [deleteAhead]
  split_ifs with hcolumn hline
  · exact iff_of_false id fun h => absurd hcolumn (not_lt.2 h.1)
  · exact iff_of_true rfl ⟨not_lt.1 hcolumn, hline⟩
  · exact iff_of_false id fun h => hline h.2

lemma deleteToStart_eq_none : editor.deleteToStart = none ↔ editor.cursor.column = 0 := by
  rw [deleteToStart]
  split_ifs with h
  · exact iff_of_true rfl h
  · exact iff_of_false id h

lemma deleteToEnd_eq_none :
    editor.deleteToEnd = none ↔ editor.line.length ≤ editor.cursor.column := by
  rw [deleteToEnd]
  split_ifs with h
  · exact iff_of_true rfl h
  · exact iff_of_false id h

lemma deleteWord_eq_none : editor.deleteWord alphanumeric = none ↔ editor.cursor = ⟨0, 0⟩ := by
  rw [deleteWord]
  split_ifs with h
  · exact deleteBackward_eq_none
  · exact iff_of_false id fun hcursor => h (congrArg Cursor.column hcursor)

lemma follows_dispatch (h : editor.WellFormed) (intent : Intent)
    (hnothing : editor.nothingToDelete intent → editor.recalled = none) :
    Follows (editor.dispatch alphanumeric intent)
      (editor.toReference.dispatch alphanumeric intent) := by
  cases intent with
  | insert c => exact follows_insert h [c]
  | paste content =>
    rw [dispatch, Reference.dispatch]
    by_cases hempty : content = []
    · rw [if_pos hempty, if_pos (List.isEmpty_iff.2 hempty)]
      exact ⟨rfl, rfl, h⟩
    · rw [if_neg hempty, if_neg fun h => hempty (List.isEmpty_iff.1 h)]
      exact follows_insert h content
  | insertNewline => exact follows_newline h
  | backspace =>
    exact follows_deletion h (fun _ => deletes_backward) fun hnone =>
      hnothing (decide_eq_true ((@deleteBackward_eq_none editor.recallResetOnEdit).1 hnone))
  | deleteForward =>
    refine follows_deletion h (fun _ => deletes_ahead) fun hnone => hnothing ?_
    obtain ⟨hcolumn, hline⟩ := (@deleteAhead_eq_none editor.recallResetOnEdit).1 hnone
    exact Bool.and_eq_true_iff.2 ⟨decide_eq_true hcolumn, decide_eq_true hline⟩
  | deleteToLineStart =>
    exact follows_deletion h (fun _ => deletes_toStart) fun hnone =>
      hnothing (decide_eq_true ((@deleteToStart_eq_none editor.recallResetOnEdit).1 hnone))
  | deleteToLineEnd =>
    exact follows_deletion h (fun _ => deletes_toEnd) fun hnone =>
      hnothing (decide_eq_true ((@deleteToEnd_eq_none editor.recallResetOnEdit).1 hnone))
  | deleteWordBackward =>
    exact follows_deletion h (fun _ => deletes_word) fun hnone =>
      hnothing (decide_eq_true ((@deleteWord_eq_none _ editor.recallResetOnEdit).1 hnone))
  | moveLeft =>
    refine follows_move h fun f _ hput hbuffer => ?_
    have hmoves := @movesTo_left editor f
    rwa [hput, hbuffer] at hmoves
  | moveRight =>
    refine follows_move h fun f _ hput hbuffer => ?_
    have hmoves := @movesTo_right editor f
    rwa [hput, hbuffer] at hmoves
  | moveWordLeft =>
    refine follows_move h fun f hclean hput hbuffer => ?_
    obtain ⟨f', hlines, hcursor, hword⟩ := @movesTo_wordLeft alphanumeric f hclean
    have hmoves := @movesTo_placeCaret editor f f' _ _ hlines hcursor hword
    have hsame : f.lines = editor.lines := congrArg Editor.lines hput
    have hline : f.above.length = editor.cursor.line := congrArg (·.cursor.line) hput
    have hcolumn : f.left.length = editor.cursor.column := congrArg (·.cursor.column) hput
    rwa [hput, hbuffer, hsame, hline, hcolumn] at hmoves
  | moveWordRight =>
    refine follows_move h fun f hclean hput hbuffer => ?_
    obtain ⟨f', hlines, hcursor, hword⟩ := @movesTo_wordRight alphanumeric f hclean
    have hmoves := @movesTo_placeCaret editor f f' _ _ hlines hcursor hword
    have hsame : f.lines = editor.lines := congrArg Editor.lines hput
    have hline : f.above.length = editor.cursor.line := congrArg (·.cursor.line) hput
    have hcolumn : f.left.length = editor.cursor.column := congrArg (·.cursor.column) hput
    rwa [hput, hbuffer, hsame, hline, hcolumn] at hmoves
  | moveLineStart =>
    refine follows_move h fun f hclean hput hbuffer => ?_
    have hmoves := @movesTo_lineStart editor f hclean
    rwa [hput, hbuffer] at hmoves
  | moveLineEnd =>
    refine follows_move h fun f hclean hput hbuffer => ?_
    have hmoves := @movesTo_lineEnd editor f hclean
    rwa [hput, hbuffer] at hmoves
  | moveUp => exact follows_rowUp h
  | moveDown => exact follows_rowDown h
  | moveBufferStart =>
    refine follows_move h fun f hclean hput hbuffer => ?_
    obtain ⟨f', hlines, hcursor, hstart⟩ := exists_start hclean
    have hmoves := @movesTo_placeCaret editor f f' _ _ hlines hcursor hstart
    rwa [hput, hbuffer] at hmoves
  | moveBufferEnd =>
    refine follows_move h fun f hclean hput hbuffer => ?_
    obtain ⟨f', hlines, hcursor, hend⟩ := @exists_end f
    have hmoves := @movesTo_placeCaret editor f f' _ _ hlines hcursor hend
    have hsame : f.lines = editor.lines := congrArg Editor.lines hput
    rwa [hput, hbuffer, hsame] at hmoves
  | submit => exact follows_submit h
  | complete => exact follows_complete h
  | cancel => exact follows_cancel h
  | noop => exact ⟨rfl, rfl, h⟩

/-- **An intent does to the text** what it does to the reference, unless it ends a recall without
deleting anything. -/
theorem follows_apply (h : editor.WellFormed) (intent : Intent)
    (hnothing : editor.nothingToDelete intent → editor.recalled = none) :
    Follows (editor.apply alphanumeric intent) (editor.toReference.apply alphanumeric intent) := by
  rw [apply, Reference.apply]
  split_ifs
  · exact follows_dispatch h intent hnothing
  · have hsame : { editor with completion := none }.nothingToDelete intent =
        editor.nothingToDelete intent := by
      cases intent <;> rfl
    exact follows_dispatch (h.completion none) intent (hsame ▸ hnothing)

end Intents

end Editor

end Rupi.Tui
