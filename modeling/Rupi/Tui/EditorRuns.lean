import Rupi.Tui.EditorText

/-!
Runs of an editor.

- `Reference.depth`: how many entries back the recall is; `apply_unchanged` and `browse_apply` say
  what an intent that answers `unchanged`, or moves the caret, leaves of text, recall and draft.
- `follows_run`: a run whose deletions end no recall for nothing follows the reference.
- `Editor.Refines`: a run agrees with the reference, answers `unchanged` only where nothing
  changed, submits trimmed text and gives the draft back behind a recall.
- `wellFormed_run`: every editor that is reached is well formed.
- **`refines_iff`**: it does exactly when each of its deletions that finds nothing to delete comes
  when nothing is recalled.
-/

namespace Rupi.Tui

/-- Whether an intent moves the caret, or recalls. -/
def Intent.isMove : Intent → Bool
  | .moveLeft | .moveRight | .moveWordLeft | .moveWordRight | .moveLineStart | .moveLineEnd
  | .moveUp | .moveDown | .moveBufferStart | .moveBufferEnd => true
  | _ => false

/-- How many entries back a recall is. -/
def recallDepth (recalled : Option ℕ) : ℕ := recalled.elim 0 (· + 1)

/-! ### What the reference keeps -/

namespace Reference

variable {alphanumeric : Char → Bool} {reference : Reference}

lemma text_goto (buffer : Buffer) (offset : ℕ) : (buffer.goto offset).text = buffer.text :=
  List.take_append_drop _ _

/-- What an intent that does nothing leaves. -/
structure Same (reference reference' : Reference) : Prop where
  buffer : reference'.buffer = reference.buffer
  recalled : reference'.recalled = reference.recalled
  draft : reference'.draft = reference.draft

lemma same_delete {buffer : Option Buffer} (h : (reference.delete buffer).1 = .unchanged) :
    Same reference (reference.delete buffer).2 := by
  cases buffer with
  | none => exact ⟨rfl, rfl, rfl⟩
  | some buffer => cases h

lemma same_move {buffer : Buffer} (h : (reference.move buffer).1 = .unchanged) :
    Same reference (reference.move buffer).2 := by
  rw [move] at h
  split_ifs at h with hsame
  exact ⟨hsame, rfl, rfl⟩

lemma same_recallOlder (h : reference.recallOlder.1 = .unchanged) :
    Same reference reference.recallOlder.2 := by
  rw [recallOlder] at h ⊢
  split_ifs at h ⊢
  exact ⟨rfl, rfl, rfl⟩

lemma same_recallNewer (h : reference.recallNewer.1 = .unchanged) :
    Same reference reference.recallNewer.2 := by
  rw [recallNewer.eq_def] at h ⊢
  split at h
  · exact ⟨rfl, rfl, rfl⟩
  · cases h
  · cases h

lemma same_complete (h : reference.complete.1 = .unchanged) :
    Same reference reference.complete.2 := by
  rw [complete] at h ⊢
  dsimp only at h ⊢
  split_ifs at h ⊢
  · exact ⟨rfl, rfl, rfl⟩
  · exact ⟨rfl, rfl, rfl⟩
  · split at h
    · exact ⟨rfl, rfl, rfl⟩
    · split_ifs at h ⊢
      exact ⟨rfl, rfl, rfl⟩

/-- **An intent that answers `unchanged`** leaves the text, the insertion point and the recall. -/
theorem same_dispatch {intent : Intent}
    (h : (reference.dispatch alphanumeric intent).1 = .unchanged) :
    Same reference (reference.dispatch alphanumeric intent).2 := by
  cases intent with
  | insert | insertNewline => cases h
  | paste content =>
    rw [dispatch] at h ⊢
    split_ifs at h ⊢
    · exact ⟨rfl, rfl, rfl⟩
    · cases h
  | backspace | deleteForward | deleteToLineStart | deleteToLineEnd | deleteWordBackward =>
    exact same_delete h
  | moveLeft | moveRight | moveWordLeft | moveWordRight | moveLineStart | moveLineEnd
  | moveBufferStart | moveBufferEnd => exact same_move h
  | moveUp =>
    rw [dispatch, rowUp.eq_def] at h ⊢
    split at h
    · exact same_recallOlder h
    · cases h
  | moveDown =>
    rw [dispatch, rowDown] at h ⊢
    dsimp only at h ⊢
    split_ifs at h ⊢
    · cases h
    · exact same_recallNewer h
  | submit =>
    rw [dispatch, submit] at h ⊢
    split_ifs at h ⊢
    exact ⟨rfl, rfl, rfl⟩
  | complete => exact same_complete h
  | cancel =>
    rw [dispatch] at h ⊢
    split_ifs at h ⊢
    exact ⟨rfl, rfl, rfl⟩
  | noop => exact ⟨rfl, rfl, rfl⟩

/-- The text, or the draft of the recall that is open. -/
def origin (reference : Reference) : Option (List Char) :=
  if reference.recalled.isNone then some reference.buffer.text else reference.draft

/-- What moves and recalls leave, and how far they go. -/
structure Browsed (reference reference' : Reference) : Prop where
  origin : reference'.origin = reference.origin
  depth : recallDepth reference'.recalled = recallDepth reference.recalled ∨
    recallDepth reference'.recalled = recallDepth reference.recalled + 1 ∨
    recallDepth reference'.recalled + 1 = recallDepth reference.recalled

lemma browsed_of_text {reference' : Reference}
    (htext : reference'.buffer.text = reference.buffer.text)
    (hrecalled : reference'.recalled = reference.recalled)
    (hdraft : reference'.draft = reference.draft) : Browsed reference reference' := by
  refine ⟨?_, Or.inl (congrArg recallDepth hrecalled)⟩
  rw [origin, origin, htext, hrecalled, hdraft]

lemma browsed_recallOlder : Browsed reference reference.recallOlder.2 := by
  rw [recallOlder]
  by_cases hend : reference.history.length ≤ reference.recalled.elim 0 (· + 1)
  · rw [if_pos hend]
    exact browsed_of_text rfl rfl rfl
  · rw [if_neg hend]
    cases hdistance : reference.recalled with
    | none =>
      refine ⟨?_, Or.inr (Or.inl ?_)⟩
      · rw [origin, origin, hdistance]
        rfl
      · rw [hdistance]
        rfl
    | some distance =>
      refine ⟨?_, Or.inr (Or.inl ?_)⟩
      · rw [origin, origin, hdistance]
        rfl
      · rw [hdistance]
        rfl

lemma browsed_recallNewer (hdrafted : reference.recalled.isSome = reference.draft.isSome) :
    Browsed reference reference.recallNewer.2 := by
  rw [recallNewer.eq_def]
  cases hdistance : reference.recalled with
  | none => exact browsed_of_text rfl rfl rfl
  | some distance =>
    rw [hdistance] at hdrafted
    obtain ⟨draft, hdraft⟩ := Option.isSome_iff_exists.1 hdrafted.symm
    cases distance with
    | zero =>
      refine ⟨?_, Or.inr (Or.inr ?_)⟩
      · rw [origin, origin, hdistance, hdraft]
        exact congrArg some (List.append_nil draft)
      · rw [hdistance]
        rfl
    | succ newer =>
      refine ⟨?_, Or.inr (Or.inr ?_)⟩
      · rw [origin, origin, hdistance]
        rfl
      · rw [hdistance]
        rfl

/-- **A move of the caret or a recall** leaves the text that was there before the recall. -/
theorem browsed_dispatch {intent : Intent}
    (hdrafted : reference.recalled.isSome = reference.draft.isSome)
    (h : intent.isMove ∨ (reference.dispatch alphanumeric intent).1 = .unchanged) :
    Browsed reference (reference.dispatch alphanumeric intent).2 := by
  obtain hmove | hunchanged := h
  · cases intent with
    | moveLeft | moveRight | moveWordLeft | moveWordRight | moveLineStart | moveLineEnd
    | moveBufferStart | moveBufferEnd => exact browsed_of_text (text_goto _ _) rfl rfl
    | moveUp =>
      rw [dispatch, rowUp.eq_def]
      split
      · exact browsed_recallOlder
      · exact browsed_of_text (text_goto _ _) rfl rfl
    | moveDown =>
      rw [dispatch, rowDown]
      dsimp only
      split_ifs
      · exact browsed_of_text (text_goto _ _) rfl rfl
      · exact browsed_recallNewer hdrafted
    | _ => cases hmove
  · obtain ⟨hbuffer, hrecalled, hdraft⟩ := same_dispatch hunchanged
    exact browsed_of_text (congrArg Buffer.text hbuffer) hrecalled hdraft

lemma same_apply {intent : Intent} (h : (reference.apply alphanumeric intent).1 = .unchanged) :
    Same reference (reference.apply alphanumeric intent).2 := by
  rw [apply] at h ⊢
  split_ifs at h ⊢
  · exact same_dispatch h
  · obtain ⟨hbuffer, hrecalled, hdraft⟩ := same_dispatch h
    exact ⟨hbuffer, hrecalled, hdraft⟩

lemma browsed_apply {intent : Intent}
    (hdrafted : reference.recalled.isSome = reference.draft.isSome)
    (h : intent.isMove ∨ (reference.apply alphanumeric intent).1 = .unchanged) :
    Browsed reference (reference.apply alphanumeric intent).2 := by
  rw [apply] at h ⊢
  split_ifs at h ⊢
  · exact browsed_dispatch hdrafted h
  · obtain ⟨horigin, hdepth⟩ :=
      @browsed_dispatch alphanumeric { reference with completion := none } _ hdrafted h
    exact ⟨horigin, hdepth⟩

end Reference

/-! ### Runs -/

namespace Editor

variable (alphanumeric : Char → Bool)

/-- A list of completions without line breaks. -/
def Op.Unbroken : Op → Prop
  | .setCompletions words => ∀ word ∈ words, '\n' ∉ word ∧ '\r' ∉ word
  | _ => True

/-- An operation that ends no recall for nothing. -/
def KeepsRecall (editor : Editor) : Op → Prop
  | .intent intent => editor.nothingToDelete intent → editor.recalled = none
  | _ => True

/-- The characters in front of the caret. -/
def offset (editor : Editor) : ℕ :=
  ((editor.lines.take editor.cursor.line).flatMap (· ++ ['\n'])).length + editor.cursor.column

/-- Intents that move the caret or answer `unchanged`, one after another. -/
def Browses (editor : Editor) : List Intent → Prop
  | [] => True
  | intent :: intents =>
      (intent.isMove ∨ (editor.apply alphanumeric intent).1 = .unchanged) ∧
        Browses (editor.apply alphanumeric intent).2 intents

/-- How many intents go back to an older entry. -/
def older (editor : Editor) : List Intent → ℕ
  | [] => 0
  | intent :: intents =>
      let editor' := (editor.apply alphanumeric intent).2
      (if recallDepth editor.recalled < recallDepth editor'.recalled then 1 else 0) +
        older editor' intents

/-- How many intents return to a newer entry, or to the draft. -/
def newer (editor : Editor) : List Intent → ℕ
  | [] => 0
  | intent :: intents =>
      let editor' := (editor.apply alphanumeric intent).2
      (if recallDepth editor'.recalled < recallDepth editor.recalled then 1 else 0) +
        newer editor' intents

/-- What an editor that is its text does along a run, from an empty buffer. -/
structure Refines (width : ℕ) (ops : List Op) : Prop where
  sound : ∀ done, done <+: ops →
    let editor := run alphanumeric (withWidth width) done
    editor.cursor.line < editor.lines.length ∧ editor.cursor.column ≤ editor.line.length ∧
      ∀ line ∈ editor.lines, '\n' ∉ line ∧ '\r' ∉ line
  agrees : ∀ done, done <+: ops →
    let editor := run alphanumeric (withWidth width) done
    let reference := (Reference.withWidth width).run alphanumeric done
    editor.text = reference.buffer.text ∧ editor.offset = reference.buffer.before.length ∧
      editor.history = reference.history
  answers : ∀ done intent, done ++ [.intent intent] <+: ops →
    ((run alphanumeric (withWidth width) done).apply alphanumeric intent).1 =
      (((Reference.withWidth width).run alphanumeric done).apply alphanumeric intent).1
  unchanged : ∀ done intent, done ++ [.intent intent] <+: ops →
    let editor := run alphanumeric (withWidth width) done
    let answer := editor.apply alphanumeric intent
    answer.1 = .unchanged → answer.2.text = editor.text ∧ answer.2.cursor = editor.cursor ∧
      answer.2.recalled = editor.recalled ∧ answer.2.draft = editor.draft
  submits : ∀ done, done ++ [.intent .submit] <+: ops →
    let editor := run alphanumeric (withWidth width) done
    let text := trimChars editor.text
    text ≠ [] → (editor.apply alphanumeric .submit).1 = .submit text ∧
      (editor.apply alphanumeric .submit).2.history =
        if editor.history.getLast? = some text then editor.history else editor.history ++ [text]
  drafts : ∀ done later, done ++ later.map Op.intent <+: ops →
    let editor := run alphanumeric (withWidth width) done
    editor.recalled = none → editor.Browses alphanumeric later →
      editor.older alphanumeric later = editor.newer alphanumeric later →
        (run alphanumeric editor (later.map Op.intent)).text = editor.text

section Runs

variable {alphanumeric : Char → Bool} {editor : Editor}

lemma follows_step (h : editor.WellFormed) {op : Op} (hop : op.Unbroken)
    (hkeeps : editor.KeepsRecall op) :
    (editor.step alphanumeric op).WellFormed ∧
      (editor.step alphanumeric op).toReference = editor.toReference.step alphanumeric op := by
  cases op with
  | intent intent =>
    obtain ⟨-, hreference, hwell⟩ := follows_apply h intent hkeeps
    exact ⟨hwell, hreference⟩
  | setWidth width =>
    obtain ⟨f, hclean, hput⟩ := h.caret
    exact ⟨⟨⟨f, hclean, congrArg (·.setWidth width) hput⟩, h.drafted, h.depth, h.history, h.draft,
      h.names⟩, rfl⟩
  | setCompletions words =>
    obtain ⟨f, hclean, hput⟩ := h.caret
    refine ⟨⟨⟨f, hclean, congrArg (·.setCompletions words) hput⟩, h.drafted, h.depth, h.history,
      h.draft, fun name hname => ⟨?_, ?_⟩⟩, rfl⟩
    · exact not_mem_new (fun word hword => (hop word hword).1) name hname
    · exact not_mem_new (fun word hword => (hop word hword).2) name hname

lemma run_append (ops later : List Op) : editor.run alphanumeric (ops ++ later) =
    (editor.run alphanumeric ops).run alphanumeric later := List.foldl_append

/-- **A run follows the reference** when its deletions end no recall for nothing. -/
theorem follows_run (h : editor.WellFormed) {ops : List Op} (hops : ∀ op ∈ ops, op.Unbroken)
    (hkeeps : ∀ done op, done ++ [op] <+: ops → (editor.run alphanumeric done).KeepsRecall op) :
    (editor.run alphanumeric ops).WellFormed ∧ (editor.run alphanumeric ops).toReference =
      editor.toReference.run alphanumeric ops := by
  induction ops using List.reverseRecOn with
  | nil => exact ⟨h, rfl⟩
  | append_singleton ops op ih =>
    obtain ⟨hwell, hreference⟩ := ih (fun op hop => hops op (List.mem_append_left _ hop))
      fun done op hdone => hkeeps done op (hdone.trans (List.prefix_append _ _))
    obtain ⟨hwell', hreference'⟩ := @follows_step alphanumeric _ hwell op
      (hops op (List.mem_append_right _ (List.mem_singleton.2 rfl))) (hkeeps ops op (List.prefix_rfl))
    rw [run, Reference.run, List.foldl_append, List.foldl_append]
    refine ⟨hwell', hreference'.trans ?_⟩
    rw [hreference]
    rfl

lemma wellFormed_withWidth (width : ℕ) : (withWidth width).WellFormed := by
  refine ⟨⟨⟨[], [], [], []⟩, ?_, rfl⟩, rfl, fun _ h => (nomatch h), fun _ h => (nomatch h),
    fun _ h => (nomatch h), fun _ h => (nomatch h)⟩
  rw [Focus.clean_iff]
  simp

lemma WellFormed.offset_eq (h : editor.WellFormed) :
    editor.offset = editor.buffer.before.length := by
  obtain ⟨f, -, hput⟩ := h.caret
  rw [buffer_of_put hput, ← hput, offset, Focus.length_before, lines_put, cursor_put, Focus.lines,
    List.take_left]

lemma WellFormed.sound (h : editor.WellFormed) :
    editor.cursor.line < editor.lines.length ∧ editor.cursor.column ≤ editor.line.length ∧
      ∀ line ∈ editor.lines, '\n' ∉ line ∧ '\r' ∉ line := by
  obtain ⟨f, hclean, hput⟩ := h.caret
  rw [← hput, line_put, cursor_put, lines_put]
  refine ⟨?_, ?_, hclean⟩
  · rw [Focus.lines, List.length_append, List.length_cons]
    exact Nat.lt_add_of_pos_right (Nat.succ_pos _)
  · rw [List.length_append]
    exact Nat.le_add_right _ _

/-- An intent that answers `unchanged` leaves the editor as it was. -/
lemma unchanged_apply (h : editor.WellFormed) {intent : Intent}
    (hkeeps : editor.KeepsRecall (.intent intent))
    (hunchanged : (editor.apply alphanumeric intent).1 = .unchanged) :
    (editor.apply alphanumeric intent).2.text = editor.text ∧
      (editor.apply alphanumeric intent).2.cursor = editor.cursor ∧
      (editor.apply alphanumeric intent).2.recalled = editor.recalled ∧
      (editor.apply alphanumeric intent).2.draft = editor.draft := by
  obtain ⟨hanswer, hreference, hwell⟩ := @follows_apply alphanumeric editor h intent hkeeps
  obtain ⟨hbuffer, hrecalled, hdraft⟩ := Reference.same_apply (hanswer ▸ hunchanged)
  rw [← hreference] at hbuffer hrecalled hdraft
  have hsame : (editor.apply alphanumeric intent).2.buffer = editor.buffer := hbuffer
  refine ⟨?_, ?_, hrecalled, hdraft⟩
  · rw [← hwell.text_buffer, hsame, h.text_buffer]
  · rw [← hwell.cursor_buffer, hsame, h.cursor_buffer]

lemma submit_apply (htext : trimChars editor.text ≠ []) :
    (editor.apply alphanumeric .submit).1 = .submit (trimChars editor.text) ∧
      (editor.apply alphanumeric .submit).2.history =
        if editor.history.getLast? = some (trimChars editor.text) then editor.history
        else editor.history ++ [trimChars editor.text] := by
  have hsubmit : editor.apply alphanumeric .submit =
      { editor with completion := none }.submit := rfl
  have hsame : { editor with completion := none }.text = editor.text := rfl
  rw [hsubmit, submit, hsame, if_neg fun h => htext (List.isEmpty_iff.1 h)]
  exact ⟨rfl, rfl⟩

/-- Along moves and recalls the text before the recall stays, and the recalls count up. -/
lemma browse_run (h : editor.WellFormed) {later : List Intent}
    (hkeeps : ∀ done op, done ++ [op] <+: later.map Op.intent →
      (editor.run alphanumeric done).KeepsRecall op)
    (hbrowses : editor.Browses alphanumeric later) :
    (editor.run alphanumeric (later.map Op.intent)).WellFormed ∧
      (editor.run alphanumeric (later.map Op.intent)).toReference.origin =
        editor.toReference.origin ∧
      recallDepth (editor.run alphanumeric (later.map Op.intent)).recalled +
        editor.newer alphanumeric later =
          recallDepth editor.recalled + editor.older alphanumeric later := by
  induction later generalizing editor with
  | nil => exact ⟨h, rfl, rfl⟩
  | cons intent later ih =>
    obtain ⟨hintent, hrest⟩ := hbrowses
    have hkeep : editor.KeepsRecall (.intent intent) :=
      hkeeps [] (.intent intent) (by simp [List.prefix_iff_eq_take])
    obtain ⟨hanswer, hreference, hwell⟩ := @follows_apply alphanumeric editor h intent hkeep
    rw [hanswer] at hintent
    obtain ⟨horigin, hdepth⟩ := Reference.browsed_apply h.drafted hintent
    rw [← hreference] at horigin hdepth
    obtain ⟨hwell', horigin', hcount⟩ := ih hwell
      (fun done op hdone => hkeeps (.intent intent :: done) op (List.cons_prefix_cons.2 ⟨rfl, hdone⟩))
      hrest
    refine ⟨hwell', horigin'.trans horigin, ?_⟩
    have hnow : recallDepth (editor.apply alphanumeric intent).2.recalled =
          recallDepth editor.recalled ∨
        recallDepth (editor.apply alphanumeric intent).2.recalled =
          recallDepth editor.recalled + 1 ∨
        recallDepth (editor.apply alphanumeric intent).2.recalled + 1 =
          recallDepth editor.recalled := hdepth
    rw [newer, older]
    have hrun : editor.run alphanumeric ((intent :: later).map Op.intent) =
        (editor.apply alphanumeric intent).2.run alphanumeric (later.map Op.intent) := rfl
    rw [hrun]
    split_ifs <;> omega

lemma recallDepth_eq_zero {recalled : Option ℕ} : recallDepth recalled = 0 ↔ recalled = none := by
  cases recalled with
  | none => exact iff_of_true rfl rfl
  | some distance => exact iff_of_false (Nat.succ_ne_zero _) (Option.some_ne_none _)

/-- With nothing recalled, the text before the recall is the text. -/
lemma text_of_origin {editor' : Editor} (h : editor.WellFormed) (h' : editor'.WellFormed)
    (hrecalled : editor.recalled = none) (hrecalled' : editor'.recalled = none)
    (horigin : editor'.toReference.origin = editor.toReference.origin) :
    editor'.text = editor.text := by
  have hnone : editor.toReference.recalled = none := hrecalled
  have hnone' : editor'.toReference.recalled = none := hrecalled'
  rw [Reference.origin, Reference.origin, hnone, hnone'] at horigin
  have htext : editor'.buffer.text = editor.buffer.text := Option.some.inj horigin
  rw [← h.text_buffer, ← h'.text_buffer, htext]

lemma deletion_nothing {delete : Editor → Option Editor}
    (h : delete editor.recallResetOnEdit = none) :
    editor.deletion delete = (.unchanged, editor.recallResetOnEdit) := by
  rw [deletion, h]

/-- A deletion that finds nothing to delete answers `unchanged`, and ends the recall. -/
lemma apply_nothing {intent : Intent} (h : editor.nothingToDelete intent) :
    editor.apply alphanumeric intent =
      (.unchanged, { editor with completion := none }.recallResetOnEdit) := by
  cases intent with
  | backspace => exact deletion_nothing (deleteBackward_eq_none.2 (of_decide_eq_true h))
  | deleteForward =>
    obtain ⟨hcolumn, hline⟩ := Bool.and_eq_true_iff.1 h
    exact deletion_nothing
      (deleteAhead_eq_none.2 ⟨of_decide_eq_true hcolumn, of_decide_eq_true hline⟩)
  | deleteToLineStart => exact deletion_nothing (deleteToStart_eq_none.2 (of_decide_eq_true h))
  | deleteToLineEnd => exact deletion_nothing (deleteToEnd_eq_none.2 (of_decide_eq_true h))
  | deleteWordBackward => exact deletion_nothing (deleteWord_eq_none.2 (of_decide_eq_true h))
  | _ => cases h

/-- **A run is a run of the text** exactly when each of its deletions that finds nothing to delete
comes when nothing is recalled. -/
theorem refines_iff {width : ℕ} {ops : List Op} (hops : ∀ op ∈ ops, op.Unbroken) :
    Refines alphanumeric width ops ↔ ∀ done op, done ++ [op] <+: ops →
      (run alphanumeric (withWidth width) done).KeepsRecall op := by
  constructor
  · intro hrefines done op hdone
    cases op with
    | intent intent =>
      intro hnothing
      have happly :=
        @apply_nothing alphanumeric (run alphanumeric (withWidth width) done) _ hnothing
      have hsame := hrefines.unchanged done intent hdone (congrArg Prod.fst happly)
      rw [happly] at hsame
      exact hsame.2.2.1.symm
    | setWidth | setCompletions => trivial
  · intro hkeeps
    have hfollows : ∀ done, done <+: ops →
        (run alphanumeric (withWidth width) done).WellFormed ∧
          (run alphanumeric (withWidth width) done).toReference =
            (Reference.withWidth width).run alphanumeric done :=
      fun done hdone => follows_run (wellFormed_withWidth width)
        (fun op hop => hops op (hdone.subset hop))
        fun done' op hdone' => hkeeps done' op (hdone'.trans hdone)
    have hfront : ∀ done later : List Op, done ++ later <+: ops → done <+: ops :=
      fun done later h => (List.prefix_append done later).trans h
    refine ⟨fun done hdone => (hfollows done hdone).1.sound, fun done hdone => ?_,
      fun done intent hdone => ?_, fun done intent hdone hunchanged => ?_,
      fun done hdone htext => submit_apply htext, fun done later hdone hrecalled hbrowses hcount => ?_⟩
    · obtain ⟨hwell, hreference⟩ := hfollows done hdone
      rw [← hreference]
      exact ⟨hwell.text_buffer.symm, hwell.offset_eq, rfl⟩
    · obtain ⟨hwell, hreference⟩ := hfollows done (hfront _ _ hdone)
      rw [← hreference]
      exact (follows_apply hwell intent (hkeeps done _ hdone)).1
    · obtain ⟨hwell, -⟩ := hfollows done (hfront _ _ hdone)
      exact unchanged_apply hwell (hkeeps done _ hdone) hunchanged
    · obtain ⟨hwell, -⟩ := hfollows done (hfront _ _ hdone)
      have hlater : ∀ done' op, done' ++ [op] <+: later.map Op.intent →
          (run alphanumeric (run alphanumeric (withWidth width) done) done').KeepsRecall op := by
        intro done' op hdone'
        have hwhole := ((List.prefix_append_right_inj done).2 hdone').trans hdone
        rw [← List.append_assoc] at hwhole
        rw [← run_append]
        exact hkeeps _ op hwhole
      obtain ⟨hwell', horigin, hdepth⟩ := browse_run hwell hlater hbrowses
      rw [hcount, Nat.add_right_cancel_iff, hrecalled] at hdepth
      exact text_of_origin hwell hwell' hrecalled (recallDepth_eq_zero.1 hdepth) horigin

lemma wellFormed_step (h : editor.WellFormed) {op : Op} (hop : op.Unbroken) :
    (editor.step alphanumeric op).WellFormed := by
  by_cases hkeeps : editor.KeepsRecall op
  · exact (follows_step h hop hkeeps).1
  · cases op with
    | intent intent =>
      have happly := @apply_nothing alphanumeric editor intent (Classical.not_imp.1 hkeeps).1
      rw [step, happly]
      exact (h.completion none).recallResetOnEdit
    | setWidth | setCompletions => exact absurd trivial hkeeps

/-- **Every editor that is reached** is well formed. -/
theorem wellFormed_run (h : editor.WellFormed) {ops : List Op} (hops : ∀ op ∈ ops, op.Unbroken) :
    (editor.run alphanumeric ops).WellFormed := by
  induction ops generalizing editor with
  | nil => exact h
  | cons op ops ih =>
    obtain ⟨hop, hops⟩ := List.forall_mem_cons.1 hops
    exact ih (wellFormed_step h hop) hops

/-- The condition on a run, at each of its places. -/
lemma keeps_of_forall {ops : List Op}
    (h : ∀ i : Fin ops.length, (editor.run alphanumeric (ops.take i)).KeepsRecall (ops.get i)) :
    ∀ done op, done ++ [op] <+: ops → (editor.run alphanumeric done).KeepsRecall op := by
  rintro done op ⟨later, rfl⟩
  have hkeeps := h ⟨done.length, by simp⟩
  rw [List.get_eq_getElem] at hkeeps
  simp only [List.append_assoc, List.take_left, List.getElem_append_right le_rfl, Nat.sub_self]
    at hkeeps
  exact hkeeps

end Runs

end Editor

namespace Typed

open Editor

instance (editor : Editor) (op : Op) : Decidable (editor.KeepsRecall op) :=
  match op with
  | .intent intent =>
      inferInstanceAs (Decidable (editor.nothingToDelete intent → editor.recalled = none))
  | .setWidth _ | .setCompletions _ => isTrue trivial

instance (op : Op) : Decidable op.Unbroken :=
  match op with
  | .setCompletions words =>
      inferInstanceAs (Decidable (∀ word ∈ words, '\n' ∉ word ∧ '\r' ∉ word))
  | .intent _ | .setWidth _ => isTrue trivial

/-- A prompt that is sent, then a second one half typed. -/
def draft : List Op :=
  [.intent (.insert 'a'), .intent .submit, .intent (.paste ['b', '\n', 'c'])]

/-- The first prompt recalled, looked at, and left again. -/
theorem refines_draft : Refines Char.isAlphanum 80
    (draft ++ [.intent .deleteForward, .intent .moveUp, .intent .moveUp, .intent .moveUp,
      .intent .moveLeft, .intent .moveDown]) :=
  (refines_iff (by decide)).2 (keeps_of_forall (by decide +kernel))

/-- A deletion behind the end of the recalled prompt deletes nothing, and loses the draft. -/
theorem deletion_loses_draft : ¬Refines Char.isAlphanum 80
    [.intent (.insert 'a'), .intent .submit, .intent (.insert 'b'), .intent .moveUp,
      .intent .deleteForward, .intent .moveDown] := by
  intro h
  have hunchanged := h.unchanged [.intent (.insert 'a'), .intent .submit, .intent (.insert 'b'),
    .intent .moveUp] .deleteForward ⟨[.intent .moveDown], rfl⟩ (by decide +kernel)
  exact absurd hunchanged.2.2.1 (by decide +kernel)

end Typed

end Rupi.Tui
