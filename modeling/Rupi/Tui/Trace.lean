import Rupi.Tui.Transcript

/-!
The recorded view of a session: its trace, rendered afterwards.

- `renderTrace`: the rendered lines of the entries that a `TraceSelection` shows; deltas that
  follow one another are folded into one run.
- `traceRuns`: the entries of each run; `renderTrace_eq` says that the lines are those of the
  runs in order.
- `ShowsSelection`: the runs hold the selected entries, all of them and no others, and none joins
  deltas of two provenances or of two model epochs.
- **`showsSelection_iff`**: when that is so.
-/

namespace Rupi.Tui

/-- `TraceSelection`. -/
structure TraceSelection where
  tools : Bool
  reasoning : Bool
  epoch : Option ℕ
  deriving DecidableEq, Repr

/-- `RenderedEntry`. -/
structure RenderedEntry where
  seq : ℕ
  timestampMs : ℕ
  line : RenderLine
  deriving DecidableEq, Repr

/-- `is_tool`. -/
def isTool : AgentEvent → Bool
  | .toolRequested _ | .toolStarted _ | .toolCompleted _ | .toolFailed _ | .toolUnknown _ => true
  | _ => false

/-- `is_reasoning`. -/
def isReasoning : AgentEvent → Bool
  | .reasoningDelta _ | .modelEpochStarted _ | .modelFailover _ => true
  | _ => false

/-- `TraceSelection::shows`. -/
def TraceSelection.shows (selection : TraceSelection) (event : AgentEvent) (epoch : Option ℕ) :
    Bool :=
  match selection.epoch with
  | some wanted => epoch = some wanted
  | none =>
      if !selection.tools && !selection.reasoning then true
      else if selection.tools && isTool event then true
      else selection.reasoning && isReasoning event

section Render

variable (options : TranscriptOptions) (selection : TraceSelection)

/-- `emit`. -/
def emit (entry : TraceEntry) (line : RenderLine) : List RenderedEntry :=
  (wrapLines [line] options).map fun line =>
    ⟨entry.envelope.eventMeta.seq.getD 0, entry.envelope.eventMeta.timestampMs, line⟩

/-- The text of an assistant delta. -/
def assistantText (entry : TraceEntry) : Option (List Char) :=
  match entry.envelope.event with
  | .assistantDelta delta => some delta.text.toList
  | _ => none

/-- The text of a reasoning delta of a provenance. -/
def reasoningText (provenance : ReasoningProvenance) (entry : TraceEntry) : Option (List Char) :=
  match entry.envelope.event with
  | .reasoningDelta delta =>
      if delta.provenance = provenance then some delta.text.toList else none
  | _ => none

/-- `fold_assistant` and `fold_reasoning`: the texts of the entries in front that have one, and
the entries behind them. -/
def foldText (text : TraceEntry → Option (List Char)) :
    List TraceEntry → List Char × List TraceEntry × List TraceEntry
  | [] => ([], [], [])
  | entry :: entries =>
      match text entry with
      | some body =>
          let (later, run, rest) := foldText text entries
          (body ++ later, entry :: run, rest)
      | none => ([], [], entry :: entries)

lemma length_foldText (text : TraceEntry → Option (List Char)) (entries : List TraceEntry) :
    (foldText text entries).2.2.length ≤ entries.length := by
  induction entries with
  | nil => exact le_rfl
  | cons entry entries ih =>
    rw [foldText]
    split
    · exact ih.trans (Nat.le_succ _)
    · exact le_rfl

/-- The references of what was taken out of the entries of a run. -/
def externalFacts (run : List TraceEntry) (line : RenderLine) : RenderLine :=
  (run.flatMap TraceEntry.externalized).foldl (fun line field =>
    fact .path field.reference.toList line) line

/-- The line of a run of assistant deltas. -/
def assistantLine (text : List Char) (run : List TraceEntry) : RenderLine :=
  externalFacts run ((label "answer".toList).push (escapeControl text) .assistant)

/-- The line of a run of reasoning deltas. -/
def reasoningLine (provenance : ReasoningProvenance) (text : List Char) (run : List TraceEntry) :
    RenderLine :=
  externalFacts run ((RenderLine.empty.push (reasoningLabel provenance) .muted).push
    (escapeControl text) (reasoningRole provenance))

/-- The lines of an entry that is not folded. -/
def entryLines (entry : TraceEntry) : List RenderLine :=
  match renderEvent entry.envelope.event options with
  | [] => []
  | first :: lines => externalFacts [entry] first :: lines

/-- Whether the loop of `render_trace` starts at an entry, rather than pass over it. -/
def starts (entry : TraceEntry) : Bool :=
  selection.shows entry.envelope.event entry.envelope.eventMeta.modelEpoch &&
    options.diagnostics.prints entry.envelope.event

/-- `render_trace`. -/
def renderTrace : List TraceEntry → List RenderedEntry
  | [] => []
  | entry :: entries =>
      if starts options selection entry then
        match entry.envelope.event with
        | .assistantDelta delta =>
            let folded := foldText assistantText entries
            emit options entry
                (assistantLine (delta.text.toList ++ folded.1) (entry :: folded.2.1)) ++
              renderTrace folded.2.2
        | .reasoningDelta delta =>
            let folded := foldText (reasoningText delta.provenance) entries
            (if options.showReasoning then
                emit options entry (reasoningLine delta.provenance
                  (delta.text.toList ++ folded.1) (entry :: folded.2.1))
              else []) ++ renderTrace folded.2.2
        | _ => (entryLines options entry).flatMap (emit options entry) ++ renderTrace entries
      else renderTrace entries
termination_by entries => entries.length
decreasing_by
  all_goals simp only [List.length_cons, Nat.lt_succ_iff, le_refl, length_foldText]

/-! ### Runs -/

/-- Whether a run that starts at an entry takes in another one: an assistant delta the assistant
deltas, a reasoning delta those of its provenance. -/
def joins (first other : TraceEntry) : Bool :=
  match first.envelope.event, other.envelope.event with
  | .assistantDelta _, .assistantDelta _ => true
  | .reasoningDelta delta, .reasoningDelta next => next.provenance = delta.provenance
  | _, _ => false

/-- Whether the options leave out the run of an event. -/
def hidden : AgentEvent → Bool
  | .reasoningDelta _ => !options.showReasoning
  | _ => false

/-- The text of a delta. -/
def deltaText (entry : TraceEntry) : List Char :=
  match entry.envelope.event with
  | .assistantDelta delta => delta.text.toList
  | .reasoningDelta delta => delta.text.toList
  | _ => []

/-- The entries of the runs that `render_trace` renders. -/
def traceRuns : List TraceEntry → List (List TraceEntry)
  | [] => []
  | entry :: entries =>
      if starts options selection entry then
        (if hidden options entry.envelope.event then []
          else [entry :: entries.takeWhile (joins entry)]) ++
          traceRuns (entries.dropWhile (joins entry))
      else traceRuns entries
termination_by entries => entries.length
decreasing_by
  all_goals simp only [List.length_cons, Nat.lt_succ_iff, le_refl, List.length_dropWhile_le]

/-- The lines of a run: one line with the text of all its deltas, or the lines of the event. -/
def renderRun : List TraceEntry → List RenderedEntry
  | [] => []
  | entry :: later =>
      match entry.envelope.event with
      | .assistantDelta _ =>
          emit options entry (assistantLine ((entry :: later).flatMap deltaText) (entry :: later))
      | .reasoningDelta delta =>
          emit options entry (reasoningLine delta.provenance
            ((entry :: later).flatMap deltaText) (entry :: later))
      | _ => (entryLines options entry).flatMap (emit options entry)

lemma foldText_eq {text : TraceEntry → Option (List Char)} {first : TraceEntry}
    (h : ∀ entry, text entry = if joins first entry then some (deltaText entry) else none)
    (entries : List TraceEntry) :
    foldText text entries = ((entries.takeWhile (joins first)).flatMap deltaText,
      entries.takeWhile (joins first), entries.dropWhile (joins first)) := by
  induction entries with
  | nil => rfl
  | cons entry entries ih =>
    by_cases hjoins : joins first entry
    · rw [foldText, h, if_pos hjoins, List.takeWhile_cons_of_pos hjoins,
        List.dropWhile_cons_of_pos hjoins, ih]
      rfl
    · rw [foldText, h, if_neg hjoins, List.takeWhile_cons_of_neg hjoins,
        List.dropWhile_cons_of_neg hjoins]
      rfl

lemma assistantText_eq {first : TraceEntry} {delta : AssistantDelta}
    (hfirst : first.envelope.event = .assistantDelta delta) (entry : TraceEntry) :
    assistantText entry = if joins first entry then some (deltaText entry) else none := by
  rw [assistantText, joins, deltaText, hfirst]
  cases entry.envelope.event <;> rfl

lemma reasoningText_eq {first : TraceEntry} {delta : ReasoningDelta}
    (hfirst : first.envelope.event = .reasoningDelta delta) (entry : TraceEntry) :
    reasoningText delta.provenance entry =
      if joins first entry then some (deltaText entry) else none := by
  rw [reasoningText, joins, deltaText, hfirst]
  cases entry.envelope.event with
  | reasoningDelta next =>
    by_cases h : next.provenance = delta.provenance
    · simp only [h, decide_true, if_true]
    · simp only [h, decide_false, if_false, Bool.false_eq_true]
  | _ => rfl

/-- An entry that is no delta starts no run but its own. -/
lemma joins_eq_false {first : TraceEntry}
    (hassistant : ∀ delta, first.envelope.event ≠ .assistantDelta delta)
    (hreasoning : ∀ delta, first.envelope.event ≠ .reasoningDelta delta) (other : TraceEntry) :
    joins first other = false := by
  rw [joins]
  split
  · exact absurd ‹_› (hassistant _)
  · exact absurd ‹_› (hreasoning _)
  · rfl

/-- **The lines of a trace** are those of its runs, in order. -/
theorem renderTrace_eq (entries : List TraceEntry) :
    renderTrace options selection entries =
      (traceRuns options selection entries).flatMap (renderRun options) := by
  fun_induction renderTrace options selection entries with
  | case1 => rw [traceRuns]; rfl
  | case2 entry entries hstarts delta hevent folded ih =>
    have hfold : folded = _ := foldText_eq (assistantText_eq hevent) entries
    rw [hfold] at ih ⊢
    rw [traceRuns, if_pos hstarts, hevent]
    simp only [hidden, Bool.false_eq_true, if_false, List.singleton_append, List.flatMap_cons,
      renderRun, hevent, ih]
    simp only [deltaText, hevent]
  | case3 entry entries hstarts delta hevent folded ih =>
    have hfold : folded = _ := foldText_eq (reasoningText_eq hevent) entries
    rw [hfold] at ih ⊢
    rw [traceRuns, if_pos hstarts, hevent]
    by_cases hshown : options.showReasoning
    · simp only [hidden, hshown, Bool.not_true, Bool.false_eq_true, if_false, if_true,
        List.singleton_append, List.flatMap_cons, renderRun, hevent, ih]
      simp only [deltaText, hevent]
    · simp only [hidden, hshown, Bool.not_false, if_true, Bool.false_eq_true, if_false,
        List.nil_append, ih]
  | case4 entry entries hstarts hassistant hreasoning ih =>
    have hnone : joins entry = fun _ => false :=
      funext (joins_eq_false hassistant hreasoning)
    have hrun : renderRun options [entry] =
        (entryLines options entry).flatMap (emit options entry) := by
      rw [renderRun]
      split
      · exact absurd ‹_› (hassistant _)
      · exact absurd ‹_› (hreasoning _)
      · rfl
    have hshown : hidden options entry.envelope.event = false := by
      rw [hidden]
      exact hreasoning
    rw [traceRuns, if_pos hstarts, hshown, hnone, ih]
    cases entries <;>
      simp only [List.takeWhile_nil, List.dropWhile_nil, List.takeWhile_cons, List.dropWhile_cons,
        Bool.false_eq_true, if_false, List.singleton_append, List.flatMap_cons, hrun]
  | case5 entry entries hstarts ih => rw [traceRuns, if_neg hstarts, ih]

/-! ### Selected entries -/

/-- Whether an event is in one of the selected categories, or none is selected. -/
def TraceSelection.inCategory (event : AgentEvent) : Bool :=
  (!selection.tools && !selection.reasoning) || (selection.tools && isTool event) ||
    (selection.reasoning && isReasoning event)

/-- Whether an entry is attributed to the selected epoch, or none is selected. -/
def TraceSelection.inEpoch (entry : TraceEntry) : Bool :=
  match selection.epoch with
  | some wanted => entry.envelope.eventMeta.modelEpoch = some wanted
  | none => true

/-- Whether an entry is to be shown: the filter lets it pass, and it is in the selected
categories and of the selected epoch. -/
def wanted (entry : TraceEntry) : Bool :=
  options.diagnostics.prints entry.envelope.event &&
    selection.inCategory entry.envelope.event && selection.inEpoch entry

/-- An entry that starts a run that is rendered, unless an earlier run takes it in. -/
def drawn (entry : TraceEntry) : Bool :=
  starts options selection entry && !hidden options entry.envelope.event

/-- A run of one entry, or of deltas that have the kind, the provenance and the model epoch of the
first one. -/
def Uniform : List TraceEntry → Prop
  | [] => False
  | first :: later => ∀ entry ∈ later, joins first entry ∧
      entry.envelope.eventMeta.modelEpoch = first.envelope.eventMeta.modelEpoch

/-- What a trace view is to show: the lines of runs, each under the number of its first entry; the
runs hold the wanted entries in order, each once, and no run joins two provenances or epochs. -/
structure ShowsSelection (entries : List TraceEntry) : Prop where
  lines : renderTrace options selection entries =
    (traceRuns options selection entries).flatMap (renderRun options)
  numbered : ∀ run ∈ traceRuns options selection entries, renderRun options run ≠ [] ∧
    ∃ first, run.head? = some first ∧
      ∀ line ∈ renderRun options run, line.seq = first.envelope.eventMeta.seq.getD 0
  selected : (traceRuns options selection entries).flatten =
    entries.filter (wanted options selection)
  uniform : ∀ run ∈ traceRuns options selection entries, Uniform run

/-- A delta that is drawn and the delta behind it, when the run takes it in, have one epoch. -/
def OneEpoch (entry next : TraceEntry) : Prop :=
  drawn options selection entry → joins entry next →
    next.envelope.eventMeta.modelEpoch = entry.envelope.eventMeta.modelEpoch

/-! ### What a run takes in -/

variable {options selection}

lemma joins_cases {first next : TraceEntry} (h : joins first next) :
    (∃ delta later, first.envelope.event = .assistantDelta delta ∧
      next.envelope.event = .assistantDelta later) ∨
    ∃ delta later, first.envelope.event = .reasoningDelta delta ∧
      next.envelope.event = .reasoningDelta later ∧ later.provenance = delta.provenance := by
  rw [joins] at h
  split at h
  · exact Or.inl ⟨_, _, ‹_›, ‹_›⟩
  · exact Or.inr ⟨_, _, ‹_›, ‹_›, of_decide_eq_true h⟩
  · cases h

lemma joins_congr {first next : TraceEntry} (h : joins first next) : joins next = joins first := by
  funext other
  rw [joins, joins]
  obtain ⟨delta, later, hfirst, hnext⟩ | ⟨delta, later, hfirst, hnext, hsame⟩ := joins_cases h
  · rw [hfirst, hnext]
    cases other.envelope.event <;> rfl
  · rw [hfirst, hnext]
    cases other.envelope.event with
    | reasoningDelta last => exact congrArg (fun p => decide (last.provenance = p)) hsame
    | _ => rfl

lemma hidden_of_joins {first next : TraceEntry} (h : joins first next) :
    hidden options next.envelope.event = hidden options first.envelope.event := by
  obtain ⟨delta, later, hfirst, hnext⟩ | ⟨delta, later, hfirst, hnext, -⟩ := joins_cases h <;>
    rw [hfirst, hnext] <;> rfl

/-- The view asks of a delta only its kind and its epoch. -/
lemma drawn_of_joins {first next : TraceEntry} (h : joins first next)
    (hepoch : next.envelope.eventMeta.modelEpoch = first.envelope.eventMeta.modelEpoch) :
    drawn options selection next = drawn options selection first := by
  rw [drawn, drawn, hidden_of_joins h, starts, starts, hepoch]
  obtain ⟨delta, later, hfirst, hnext⟩ | ⟨delta, later, hfirst, hnext, -⟩ := joins_cases h <;>
    rw [hfirst, hnext] <;> rfl

lemma wanted_eq (entry : TraceEntry) : wanted options selection entry =
    (starts options selection entry && selection.inCategory entry.envelope.event) := by
  rw [wanted, starts, TraceSelection.shows, TraceSelection.inEpoch]
  cases selection.epoch with
  | none =>
    rw [TraceSelection.inCategory]
    cases options.diagnostics.prints entry.envelope.event <;> cases selection.tools <;>
      cases selection.reasoning <;> cases isTool entry.envelope.event <;>
        cases isReasoning entry.envelope.event <;> rfl
  | some epoch =>
    rw [Bool.and_right_comm]
    exact congrArg (· && _) (Bool.and_comm _ _)

/-- The chain of a run that is drawn: its deltas have the epoch of the first one. -/
lemma isChain_run {first : TraceEntry} (hdrawn : drawn options selection first)
    (entries : List TraceEntry) :
    (first :: entries).IsChain (OneEpoch options selection) ↔
      Uniform (first :: entries.takeWhile (joins first)) ∧
      (entries.dropWhile (joins first)).IsChain (OneEpoch options selection) := by
  induction entries generalizing first with
  | nil => exact iff_of_true (List.isChain_singleton _) ⟨fun _ h => (nomatch h), List.isChain_nil⟩
  | cons next entries ih =>
    rw [List.isChain_cons_cons]
    by_cases hjoins : joins first next
    · rw [List.takeWhile_cons_of_pos hjoins, List.dropWhile_cons_of_pos hjoins, Uniform,
        List.forall_mem_cons, and_assoc]
      have hnext : OneEpoch options selection first next ↔ joins first next ∧
          next.envelope.eventMeta.modelEpoch = first.envelope.eventMeta.modelEpoch :=
        ⟨fun h => ⟨hjoins, h hdrawn hjoins⟩, fun h _ _ => h.2⟩
      rw [hnext]
      refine and_congr_right fun h => ?_
      rw [ih ((drawn_of_joins hjoins h.2).trans hdrawn), joins_congr hjoins, Uniform,
        joins_congr hjoins, h.2]
    · rw [List.takeWhile_cons_of_neg hjoins, List.dropWhile_cons_of_neg hjoins]
      exact and_congr_left fun _ =>
        iff_of_true (fun _ h => absurd h hjoins) fun _ h => nomatch h

lemma not_drawn_of_hidden {entry : TraceEntry} (h : hidden options entry.envelope.event) :
    ¬drawn options selection entry := by
  rw [drawn, h, Bool.not_true, Bool.and_false]
  exact Bool.false_ne_true

/-- An entry that is not drawn says nothing of epochs. -/
lemma isChain_cons_of_not_drawn {first : TraceEntry} (h : ¬drawn options selection first)
    (entries : List TraceEntry) : (first :: entries).IsChain (OneEpoch options selection) ↔
      entries.IsChain (OneEpoch options selection) := by
  rw [List.isChain_cons]
  exact and_iff_right fun _ _ hdrawn => absurd hdrawn h

/-- The deltas of a hidden run are not drawn. -/
lemma not_drawn_of_mem_run {first : TraceEntry} (h : hidden options first.envelope.event)
    {entries : List TraceEntry} {entry : TraceEntry}
    (hentry : entry ∈ first :: entries.takeWhile (joins first)) :
    ¬drawn options selection entry := by
  obtain rfl | hmem := List.mem_cons.1 hentry
  · exact not_drawn_of_hidden h
  · exact not_drawn_of_hidden ((hidden_of_joins (List.mem_takeWhile_imp hmem)).trans h)

lemma isChain_append_of_not_drawn {run : List TraceEntry}
    (h : ∀ entry ∈ run, ¬drawn options selection entry) (entries : List TraceEntry) :
    (run ++ entries).IsChain (OneEpoch options selection) ↔
      entries.IsChain (OneEpoch options selection) := by
  induction run with
  | nil => exact Iff.rfl
  | cons first run ih =>
    obtain ⟨hfirst, hrun⟩ := List.forall_mem_cons.1 h
    exact (isChain_cons_of_not_drawn hfirst _).trans (ih hrun)

lemma cons_run (first : TraceEntry) (entries : List TraceEntry) :
    first :: entries.takeWhile (joins first) ++ entries.dropWhile (joins first) =
      first :: entries := by
  rw [List.cons_append, List.takeWhile_append_dropWhile]

lemma drawn_of_starts {entry : TraceEntry} (hstarts : starts options selection entry)
    (hshown : ¬hidden options entry.envelope.event) : drawn options selection entry := by
  rw [drawn, hstarts, Bool.true_and, Bool.not_eq_true']
  exact Bool.not_eq_true _ ▸ hshown

lemma not_drawn_of_not_starts {entry : TraceEntry} (h : ¬starts options selection entry) :
    ¬drawn options selection entry :=
  fun hdrawn => h (Bool.and_eq_true_iff.1 hdrawn).1

/-- **The runs are uniform** exactly when no delta that is drawn stands before one of its kind of
another epoch. -/
lemma uniform_iff (entries : List TraceEntry) :
    (∀ run ∈ traceRuns options selection entries, Uniform run) ↔
      entries.IsChain (OneEpoch options selection) := by
  fun_induction traceRuns options selection entries with
  | case1 => exact iff_of_true (fun _ h => nomatch h) List.isChain_nil
  | case2 entry entries hstarts ih =>
    by_cases hhidden : hidden options entry.envelope.event
    · rw [if_pos hhidden, List.nil_append, ih, ← cons_run entry entries]
      exact (isChain_append_of_not_drawn (fun _ => not_drawn_of_mem_run hhidden) _).symm
    · rw [if_neg hhidden, List.singleton_append, List.forall_mem_cons, ih]
      exact (isChain_run (drawn_of_starts hstarts hhidden) entries).symm
  | case3 entry entries hstarts ih =>
    exact ih.trans (isChain_cons_of_not_drawn (not_drawn_of_not_starts hstarts) entries).symm

/-- The entries of uniform runs are those that are drawn. -/
lemma flatten_traceRuns {entries : List TraceEntry}
    (h : ∀ run ∈ traceRuns options selection entries, Uniform run) :
    (traceRuns options selection entries).flatten = entries.filter (drawn options selection) := by
  fun_induction traceRuns options selection entries with
  | case1 => rfl
  | case2 entry entries hstarts ih =>
    rw [← cons_run entry entries, List.filter_append]
    by_cases hhidden : hidden options entry.envelope.event
    · rw [if_pos hhidden, List.nil_append] at h ⊢
      rw [ih h, List.filter_eq_nil_iff.2 fun _ => not_drawn_of_mem_run hhidden, List.nil_append]
    · rw [if_neg hhidden, List.singleton_append, List.forall_mem_cons] at h
      have hdrawn := drawn_of_starts hstarts hhidden
      have hrun : ∀ next ∈ entry :: entries.takeWhile (joins entry),
          drawn options selection next := by
        rw [List.forall_mem_cons]
        refine ⟨hdrawn, fun next hnext => ?_⟩
        obtain ⟨hjoins, hepoch⟩ := h.1 next hnext
        exact (drawn_of_joins hjoins hepoch).trans hdrawn
      rw [if_neg hhidden, List.singleton_append, List.flatten_cons, ih h.2,
        List.filter_eq_self.2 hrun]
  | case3 entry entries hstarts ih =>
    rw [List.filter_cons_of_neg (not_drawn_of_not_starts hstarts), ih h]

/-! ### Lines of a run -/

/-- A run begins with an entry that is drawn. -/
lemma head_of_mem_traceRuns {entries run : List TraceEntry}
    (h : run ∈ traceRuns options selection entries) :
    ∃ first later, run = first :: later ∧ drawn options selection first := by
  fun_induction traceRuns options selection entries with
  | case1 => cases h
  | case2 entry entries hstarts ih =>
    obtain hrun | hlater := List.mem_append.1 h
    · split_ifs at hrun with hhidden
      · cases hrun
      · exact ⟨entry, _, List.mem_singleton.1 hrun, drawn_of_starts hstarts hhidden⟩
    · exact ih hlater
  | case3 entry entries hstarts ih => exact ih h

lemma emit_ne_nil (entry : TraceEntry) (line : RenderLine) : emit options entry line ≠ [] :=
  fun h => wrapLines_ne_nil (List.cons_ne_nil line []) options (List.map_eq_nil_iff.1 h)

lemma seq_of_mem_emit {entry : TraceEntry} {line : RenderLine} {row : RenderedEntry}
    (h : row ∈ emit options entry line) : row.seq = entry.envelope.eventMeta.seq.getD 0 := by
  obtain ⟨line, -, rfl⟩ := List.mem_map.1 h
  rfl

lemma seq_of_mem_renderRun {first : TraceEntry} {later : List TraceEntry} {row : RenderedEntry}
    (h : row ∈ renderRun options (first :: later)) :
    row.seq = first.envelope.eventMeta.seq.getD 0 := by
  rw [renderRun] at h
  split at h
  · exact seq_of_mem_emit h
  · exact seq_of_mem_emit h
  · obtain ⟨line, -, hrow⟩ := List.mem_flatMap.1 h
    exact seq_of_mem_emit hrow

lemma visible_of_drawn {entry : TraceEntry} (h : drawn options selection entry) :
    Visible options entry.envelope.event := by
  obtain ⟨hstarts, hshown⟩ := Bool.and_eq_true_iff.1 h
  have hprints := (Bool.and_eq_true_iff.1 hstarts).2
  cases hevent : entry.envelope.event with
  | reasoningDelta delta =>
    rw [hevent] at hshown
    exact (Bool.not_not _).symm.trans hshown
  | diagnostic level message =>
    rw [hevent] at hprints
    exact hprints
  | _ => trivial

lemma renderRun_ne_nil {first : TraceEntry} (h : drawn options selection first)
    (later : List TraceEntry) : renderRun options (first :: later) ≠ [] := by
  rw [renderRun]
  split
  · exact emit_ne_nil _ _
  · exact emit_ne_nil _ _
  · have hlines : entryLines options first ≠ [] := by
      rw [entryLines]
      split
      · exact absurd ‹_› (renderEvent_ne_nil (visible_of_drawn h))
      · exact List.cons_ne_nil _ _
    obtain ⟨line, hline⟩ := List.exists_mem_of_ne_nil _ hlines
    intro hnil
    exact emit_ne_nil first line (List.flatMap_eq_nil_iff.1 hnil line hline)

/-! ### The view of a selection -/

lemma drawn_eq_wanted_iff (entry : TraceEntry) :
    drawn options selection entry = wanted options selection entry ↔
      (drawn options selection entry → selection.inCategory entry.envelope.event) ∧
      (wanted options selection entry → hidden options entry.envelope.event = false) := by
  rw [wanted_eq, drawn]
  cases starts options selection entry <;> cases hidden options entry.envelope.event <;>
    cases selection.inCategory entry.envelope.event <;> decide

/-- **The view shows the selection** exactly when what is drawn is in the selected categories, no
selected entry is a hidden delta, and no delta that is drawn stands before one of its kind and
provenance of another epoch. -/
theorem showsSelection_iff (entries : List TraceEntry) :
    ShowsSelection options selection entries ↔
      (∀ entry ∈ entries, drawn options selection entry →
        selection.inCategory entry.envelope.event) ∧
      (∀ entry ∈ entries, wanted options selection entry →
        hidden options entry.envelope.event = false) ∧
      entries.IsChain (OneEpoch options selection) := by
  have hfilter : entries.filter (drawn options selection) =
      entries.filter (wanted options selection) ↔
      ∀ entry ∈ entries, drawn options selection entry = wanted options selection entry := by
    refine ⟨fun h entry hentry => ?_, List.filter_congr⟩
    have hmem : entry ∈ entries.filter (drawn options selection) ↔
        entry ∈ entries.filter (wanted options selection) := by rw [h]
    rw [List.mem_filter, List.mem_filter] at hmem
    exact Bool.eq_iff_iff.2 ((and_congr_right_iff.1 hmem) hentry)
  have hboth : (∀ entry ∈ entries,
        drawn options selection entry = wanted options selection entry) ↔
      (∀ entry ∈ entries, drawn options selection entry →
        selection.inCategory entry.envelope.event) ∧
      (∀ entry ∈ entries, wanted options selection entry →
        hidden options entry.envelope.event = false) := by
    simp only [drawn_eq_wanted_iff, imp_and, forall_and]
  rw [← and_assoc, ← hboth, ← hfilter]
  constructor
  · rintro ⟨-, -, hselected, huniform⟩
    exact ⟨(flatten_traceRuns huniform).symm.trans hselected, (uniform_iff entries).1 huniform⟩
  · rintro ⟨hselected, hchain⟩
    have huniform := (uniform_iff entries).2 hchain
    refine ⟨renderTrace_eq options selection entries, fun run hrun => ?_,
      (flatten_traceRuns huniform).trans hselected, huniform⟩
    obtain ⟨first, later, rfl, hdrawn⟩ := head_of_mem_traceRuns hrun
    exact ⟨renderRun_ne_nil hdrawn later, first, rfl, fun _ => seq_of_mem_renderRun⟩

end Render

namespace Recorded

/-- An entry of the first session, of a model epoch. -/
def entry (seq epoch : ℕ) (event : AgentEvent) : TraceEntry where
  envelope :=
    { v := 1
      eventMeta :=
        { eventId := "e1", sessionId := "s1", turnId := none, seq := some seq, timestampMs := 10,
          modelEpoch := some epoch, model := none, toolCallId := none, parentEventId := none,
          traceId := "t1", spanId := "p1" }
      event }
  redactions := 0
  rawPayload := false
  rawRef := none
  externalized := []

/-- Half an answer from a model that then failed, and the other half from the one after it. -/
def failedOver : List TraceEntry :=
  [entry 1 0 (.assistantDelta ⟨"the fix ", 0⟩), entry 2 1 (.assistantDelta ⟨"is in b", 0⟩)]

def options : TranscriptOptions := ⟨80, true, false, .all⟩

/-- Two halves of two model epochs are one run, under the number of the first. -/
theorem failedOver_joins_epochs :
    ¬ShowsSelection options ⟨false, false, none⟩ failedOver := by
  intro h
  have hchain := (uniform_iff _).1 h.uniform
  exact absurd ((List.isChain_cons_cons.1 hchain).1 (by decide) (by decide)) (by decide)

-- The tool calls of an epoch: what the model said in it is drawn too.
example : ¬ShowsSelection options ⟨true, false, some 1⟩ [failedOver.get ⟨1, by decide⟩] := by
  intro h
  have hdrawn := (flatten_traceRuns h.uniform).symm.trans h.selected
  exact absurd hdrawn (by decide)

end Recorded

end Rupi.Tui
