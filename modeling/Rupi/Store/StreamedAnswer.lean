import Rupi.Store.ReadBack

/-!
A streamed answer on its way through redaction and back.

The journal redacts every delta on its own, the session log redacts the whole
answer. What a resume compares is the redacted answer with the concatenation of
the redacted deltas.

- `Streams`: a request in a trace, with the deltas it streamed.
- `content_accepted_iff`: the comparison a resume makes.
- **`streamed_answer_accepted`**: it succeeds when every pass of the policy
  recognises in the answer the spans it recognises in the deltas.
- `split_authorization_rejected`: an answer whose `Basic` value was streamed in two
  deltas.
-/

namespace Rupi

open Fallible Rewrite Value

/-- Texts joined without a separator. -/
def joined (texts : List String) : String := texts.foldr (· ++ ·) ""

@[simp] lemma joined_cons (text : String) (texts : List String) :
    joined (text :: texts) = text ++ joined texts := rfl

lemma toList_joined (texts : List String) :
    (joined texts).toList = (texts.map String.toList).flatten := by
  induction texts with
  | nil => rfl
  | cons text texts ih => simp [ih]

/-- The text of a streamed delta. -/
def TraceEntry.delta? (entry : TraceEntry) : Option String :=
  match entry.event with
  | .assistantDelta delta => some delta.text
  | _ => none

/-- `streamed` is what one request emitted between its start and its completion;
`chunks` are the texts of its deltas. -/
structure Streams (started : TraceEntry) (streamed : List TraceEntry) (completed : TraceEntry)
    (chunks : List String) : Prop where
  started_kind : started.event.isModelRequestStarted = true
  completed_kind : completed.event.isModelRequestCompleted = true
  /-- One request is open at a time. -/
  no_start : ∀ entry ∈ streamed, entry.event.isModelRequestStarted = false
  scope : ∀ entry ∈ started :: streamed, entry.sameScope completed = true
  chunks_eq : streamed.filterMap TraceEntry.delta? = chunks

/-- The record of the answer whose deltas are `chunks`: one text block, introduced
by the completion. -/
structure Answers (record : SessionMessage) (completed : TraceEntry) (chunks : List String) :
    Prop where
  eventId_eq : record.eventId = completed.eventId
  seq_eq : record.seq = completed.seq
  text_eq : record.message.content.filterMap ContentBlock.plainText = [joined chunks]

/-- The lines of a trace read back, one by one. -/
abbrev LinesReadBack (session : SessionId) (blobs : BlobReader) (journal : TraceJournal) :
    List TraceEntry → List TraceEntry → Prop :=
  List.Forall₂ fun written read =>
    ∃ event, ReadsBack session blobs (journal.redactedLine written) read event

/-! ### One request in an ordered trace -/

section Request

variable {front streamed back : List TraceEntry} {started completed : TraceEntry}
  {chunks : List String} {first last : EventSeq}

/-- The trace around a request. -/
abbrev around (front : List TraceEntry) (started : TraceEntry) (streamed : List TraceEntry)
    (completed : TraceEntry) (back : List TraceEntry) : List TraceEntry :=
  front ++ started :: (streamed ++ completed :: back)

/-- What the order of the trace says about the lines around a request. -/
lemma around_ordered
    (h : (around front started streamed completed back).Pairwise TraceEntry.precedes) :
    (∀ a ∈ front, a.precedes started ∧ a.precedes completed) ∧
      (∀ m ∈ streamed, started.precedes m ∧ m.precedes completed) ∧
      started.precedes completed ∧ ∀ b ∈ back, completed.precedes b := by
  obtain ⟨-, hrest, hfront⟩ := List.pairwise_append.mp h
  obtain ⟨hstarted, hrest⟩ := List.pairwise_cons.mp hrest
  obtain ⟨-, hback, hstreamed⟩ := List.pairwise_append.mp hrest
  refine ⟨fun a ha => ⟨hfront a ha _ (by simp), hfront a ha _ (by simp)⟩,
    fun m hm => ⟨hstarted m (by simp [hm]), hstreamed m hm _ (by simp)⟩,
    hstarted _ (by simp), fun b hb => (List.pairwise_cons.mp hback).1 b hb⟩

/-- The start a completion finds is the start of its own request. -/
lemma requestStart_around (h : Streams started streamed completed chunks)
    (horder : (around front started streamed completed back).Pairwise TraceEntry.precedes)
    (hfirst : started.seq = some first) (hlast : completed.seq = some last) :
    requestStart (around front started streamed completed back) completed last = some first := by
  obtain ⟨hfront, -, hstarted, hback⟩ := around_ordered horder
  have hlt : first < last := hstarted first hfirst last hlast
  rw [requestStart, List.max?_eq_some_iff]
  constructor
  · rw [List.mem_filterMap]
    refine ⟨started, ?_, hfirst⟩
    simp [TraceEntry.before, hfirst, hlt, h.scope started, h.started_kind]
  · intro seq hseq
    obtain ⟨entry, hentry, hentrySeq⟩ := List.mem_filterMap.mp hseq
    obtain ⟨hmem, hfilter⟩ := List.mem_filter.mp hentry
    simp only [Bool.and_eq_true, TraceEntry.before, hentrySeq, Option.any_some,
      decide_eq_true_eq] at hfilter
    obtain ⟨⟨hbefore, -⟩, hkind⟩ := hfilter
    simp only [around, List.mem_append, List.mem_cons] at hmem
    rcases hmem with hmem | rfl | hmem | rfl | hmem
    · exact le_of_lt ((hfront entry hmem).1 seq hentrySeq first hfirst)
    · exact le_of_eq (Option.some.inj (hentrySeq.symm.trans hfirst))
    · rw [h.no_start entry hmem] at hkind
      cases hkind
    · obtain rfl : last = seq := Option.some.inj (hlast.symm.trans hentrySeq)
      exact absurd hbefore (lt_irrefl last)
    · exact absurd (hback entry hmem last hlast seq hentrySeq) (lt_asymm hbefore)

/-- The deltas of a request are those between its start and its completion. -/
lemma requestDeltas_around (h : Streams started streamed completed chunks)
    (horder : (around front started streamed completed back).Pairwise TraceEntry.precedes)
    (hseqs : ∀ entry ∈ around front started streamed completed back, entry.seq.isSome)
    (hfirst : started.seq = some first) (hlast : completed.seq = some last) :
    requestDeltas (around front started streamed completed back) completed first last =
      streamed.filter fun entry => entry.event.isAssistantDelta := by
  obtain ⟨hfront, hstreamed, -, hback⟩ := around_ordered horder
  have hstarted : started.event.isAssistantDelta = false := by
    have hkind := h.started_kind
    cases hevent : started.event <;> simp_all [AgentEvent.isModelRequestStarted,
      AgentEvent.isAssistantDelta]
  have hfrontNil : requestDeltas front completed first last = [] := by
    rw [requestDeltas, List.filter_eq_nil_iff]
    intro a ha hkeep
    simp only [Bool.and_eq_true, Option.any_eq_true, decide_eq_true_eq] at hkeep
    obtain ⟨⟨⟨seq, hseq, hle, -⟩, -⟩, -⟩ := hkeep
    exact absurd ((hfront a ha).1 seq hseq first hfirst) (not_lt_of_ge hle)
  have hbackNil : requestDeltas (completed :: back) completed first last = [] := by
    rw [requestDeltas, List.filter_eq_nil_iff]
    intro b hb hkeep
    simp only [Bool.and_eq_true, Option.any_eq_true, decide_eq_true_eq] at hkeep
    obtain ⟨⟨⟨seq, hseq, -, hlt⟩, -⟩, -⟩ := hkeep
    rcases List.mem_cons.mp hb with rfl | hb
    · obtain rfl : last = seq := Option.some.inj (hlast.symm.trans hseq)
      exact lt_irrefl last hlt
    · exact lt_asymm hlt (hback b hb last hlast seq hseq)
  have hinner : requestDeltas streamed completed first last =
      streamed.filter fun entry => entry.event.isAssistantDelta := by
    refine List.filter_congr fun m hm => ?_
    obtain ⟨seq, hseq⟩ := Option.isSome_iff_exists.mp (hseqs m (by simp [hm]))
    have hlow := (hstreamed m hm).1 first hfirst seq hseq
    have hhigh := (hstreamed m hm).2 seq hseq last hlast
    simp [hseq, le_of_lt hlow, hhigh, h.scope m (List.mem_cons_of_mem _ hm)]
  rw [requestDeltas] at hfrontNil hbackNil hinner
  rw [requestDeltas, around, List.filter_append, hfrontNil, List.nil_append,
    List.filter_cons_of_neg (by simp [hstarted]), List.filter_append, hbackNil,
    List.append_nil, hinner]

end Request

section Answer

variable {session : SessionId} {blobs : BlobReader} {journal : TraceJournal}

/-! ### What came back of a request -/

lemma ReadsBack.sameScope {a a' b b' : TraceEntry} {ea eb : AgentEvent}
    (ha : ReadsBack session blobs (journal.redactedLine a) a' ea)
    (hb : ReadsBack session blobs (journal.redactedLine b) b' eb)
    (h : a.sameScope b = true) : a'.sameScope b' = true := by
  simp only [TraceEntry.sameScope, Bool.and_eq_true, beq_iff_eq] at h ⊢
  rw [ha.turnId_eq, hb.turnId_eq, ha.modelEpoch_eq, hb.modelEpoch_eq, h.1, h.2]
  exact ⟨rfl, rfl⟩

lemma ReadsBack.isModelRequestStarted_eq {w r : TraceEntry} {event : AgentEvent}
    (h : ReadsBack session blobs (journal.redactedLine w) r event) :
    r.event.isModelRequestStarted = w.event.isModelRequestStarted := by
  rw [isModelRequestStarted_iff, isModelRequestStarted_iff, h.kind_eq, h.written_kind]

lemma ReadsBack.isModelRequestCompleted_eq {w r : TraceEntry} {event : AgentEvent}
    (h : ReadsBack session blobs (journal.redactedLine w) r event) :
    r.event.isModelRequestCompleted = w.event.isModelRequestCompleted := by
  rw [isModelRequestCompleted_iff, isModelRequestCompleted_iff, h.kind_eq, h.written_kind]

lemma ReadsBack.isAssistantDelta_eq {w r : TraceEntry} {event : AgentEvent}
    (h : ReadsBack session blobs (journal.redactedLine w) r event) :
    r.event.isAssistantDelta = w.event.isAssistantDelta := by
  rw [isAssistantDelta_iff, isAssistantDelta_iff, h.kind_eq, h.written_kind]

/-- The delta texts a resume puts together are the redacted chunks. -/
lemma scan_deltaText {streamed read : List TraceEntry}
    (h : LinesReadBack session blobs journal streamed read) (text : String) :
    scan (fun text entry => (deltaText session blobs entry).map (text ++ ·)) text
        (read.filter fun entry => entry.event.isAssistantDelta) =
      .ok (text ++ joined ((streamed.filterMap TraceEntry.delta?).map journal.policy.text)) := by
  induction h generalizing text with
  | nil => simp [joined]
  | @cons w r streamed read hline hrest ih =>
    obtain ⟨event, hback⟩ := hline
    have hkind := hback.isAssistantDelta_eq
    cases hw : w.event with
    | assistantDelta delta =>
      obtain ⟨back, rfl, hback'⟩ := hback.delta_eq hw
      have hdelta : deltaText session blobs r = .ok (journal.policy.text delta.text) := by
        rw [deltaText, hback.restores, ← hback']
        rfl
      have hw' : w.delta? = some delta.text := by rw [TraceEntry.delta?, hw]
      rw [List.filter_cons_of_pos (by rw [hkind, hw]; rfl), scan_cons, hdelta,
        List.filterMap_cons_some hw', List.map_cons, joined_cons, ← String.append_assoc]
      exact ih _
    | _ =>
      have hw' : w.delta? = none := by rw [TraceEntry.delta?, hw]
      rw [List.filter_cons_of_neg (by rw [hkind, hw]; exact Bool.false_ne_true),
        List.filterMap_cons_none hw']
      exact ih _

/-- Every line that came back was written. -/
lemma LinesReadBack.exists_written {written read : List TraceEntry}
    (h : LinesReadBack session blobs journal written read) {r : TraceEntry} (hr : r ∈ read) :
    ∃ w ∈ written, ∃ event, ReadsBack session blobs (journal.redactedLine w) r event := by
  induction h with
  | nil => cases hr
  | @cons w r' written read hline hrest ih =>
    rcases List.mem_cons.mp hr with rfl | hr
    · exact ⟨w, List.mem_cons_self, hline⟩
    · obtain ⟨w', hw', hback⟩ := ih hr
      exact ⟨w', List.mem_cons_of_mem _ hw', hback⟩

/-- The request that came back streams the redacted chunks. -/
lemma Streams.readBack {started started' completed completed' : TraceEntry}
    {streamed streamed' : List TraceEntry} {chunks : List String} {e e' : AgentEvent}
    (h : Streams started streamed completed chunks)
    (hstarted : ReadsBack session blobs (journal.redactedLine started) started' e)
    (hstreamed : LinesReadBack session blobs journal streamed streamed')
    (hcompleted : ReadsBack session blobs (journal.redactedLine completed) completed' e') :
    Streams started' streamed' completed' (streamed'.filterMap TraceEntry.delta?) where
  started_kind := hstarted.isModelRequestStarted_eq.trans h.started_kind
  completed_kind := hcompleted.isModelRequestCompleted_eq.trans h.completed_kind
  no_start := by
    intro entry hentry
    obtain ⟨w, hw, event, hback⟩ := hstreamed.exists_written hentry
    exact hback.isModelRequestStarted_eq.trans (h.no_start w hw)
  scope := by
    intro entry hentry
    rcases List.mem_cons.mp hentry with rfl | hentry
    · exact hstarted.sameScope hcompleted (h.scope started List.mem_cons_self)
    · obtain ⟨w, hw, event, hback⟩ := hstreamed.exists_written hentry
      exact hback.sameScope hcompleted (h.scope w (List.mem_cons_of_mem _ hw))
  chunks_eq := rfl

/-! ### What came back of the answer -/

lemma plainTexts_of_sanitize {policy : RedactionPolicy} {blocks blocks' : List ContentBlock}
    (h : blocks'.map ContentBlock.toValue =
      blocks.map fun block => policy.sanitize block.toValue) :
    blocks'.filterMap ContentBlock.plainText =
      (blocks.filterMap ContentBlock.plainText).map policy.text := by
  induction blocks generalizing blocks' with
  | nil => simp [List.map_eq_nil_iff.mp h]
  | cons b blocks ih =>
    cases blocks' with
    | nil => cases h
    | cons a blocks' =>
      obtain ⟨hhead, htail⟩ := List.cons.inj h
      have hplain := plainText_of_sanitize hhead
      cases hb : b.plainText with
      | none => simp [hplain, hb, ih htail]
      | some text => simp [hplain, hb, ih htail]

/-- **What a resume compares**: whatever else the session contains, an answer is
accepted exactly when the redacted answer is the concatenation of the redacted
deltas. -/
theorem content_accepted_iff {front back streamed streamed' : List TraceEntry}
    {started started' completed completed' : TraceEntry} {chunks : List String}
    {e e' : AgentEvent} {record read : SessionMessage}
    (hstreams : Streams started streamed completed chunks)
    (hstarted : ReadsBack session blobs (journal.redactedLine started) started' e)
    (hstreamed : LinesReadBack session blobs journal streamed streamed')
    (hcompleted : ReadsBack session blobs (journal.redactedLine completed) completed' e')
    (hintact : validateTraceIntegrity session
      (around front started' streamed' completed' back) = .ok ())
    (hanswer : Answers record completed chunks)
    (hread : Sanitizes journal.policy record read) :
    validateAssistantMessageContent session blobs
        (around front started' streamed' completed' back) read = .ok () ↔
      journal.policy.text (joined chunks) = joined (chunks.map journal.policy.text) := by
  have hback := hstreams.readBack hstarted hstreamed hcompleted
  have horder := precedes_of_validateTraceIntegrity hintact
  have hids := nodup_of_validateTraceIntegrity hintact
  have hseqs : ∀ entry ∈ around front started' streamed' completed' back, entry.seq.isSome :=
    fun entry hentry => seq_isSome_of_validateTraceIntegrity hintact hentry
  obtain ⟨first, hfirst⟩ := Option.isSome_iff_exists.mp (hseqs started' (by simp))
  obtain ⟨last, hlast⟩ := Option.isSome_iff_exists.mp (hseqs completed' (by simp))
  have hseq : read.seq = some last := by
    rw [hread.seq_eq, hanswer.seq_eq, ← hcompleted.seq_eq, hlast]
  have hid : completed'.eventId = read.eventId := by
    rw [hcompleted.eventId_eq, hread.eventId_eq, hanswer.eventId_eq]
  have hfind : (around front started' streamed' completed' back).find?
      (fun entry => entry.eventId == read.eventId) = some completed' := by
    cases hfound : (around front started' streamed' completed' back).find?
        fun entry => entry.eventId == read.eventId with
    | none =>
      have hnone := List.find?_eq_none.mp hfound completed' (by simp)
      simp [hid] at hnone
    | some entry =>
      have hsame : entry.eventId = read.eventId := by simpa using List.find?_some hfound
      rw [eq_of_eventId_eq hids (List.mem_of_find?_eq_some hfound) (by simp)
        (hsame.trans hid.symm)]
  have htext : read.message.text = journal.policy.text (joined chunks) := by
    rw [Message.text, plainTexts_of_sanitize hread.content_eq, hanswer.text_eq]
    simp
  have hdeltas := scan_deltaText hstreamed ""
  rw [hstreams.chunks_eq, String.empty_append] at hdeltas
  have hprovider : completed'.event.isProviderAssistant = true := by
    simp [AgentEvent.isProviderAssistant, hback.completed_kind]
  rw [validateAssistantMessageContent]
  simp only [hseq, hfind, hprovider, if_true, terminalRequest, hback.completed_kind, hlast,
    requestStart_around hback horder hfirst hlast, Option.getD_some,
    requestDeltas_around hback horder hseqs hfirst hlast, hdeltas, ok_bind, ensure_eq_ok, htext]

/-- A policy whose passes respect the chunks commutes with joining them. -/
lemma text_joined {policy : RedactionPolicy} {chunks : List String}
    (h : RespectChunks policy.passes (chunks.map String.toList)) :
    policy.text (joined chunks) = joined (chunks.map policy.text) := by
  cases henabled : policy.enabled with
  | false =>
    have hid : policy.text = id := funext fun text =>
      RedactionPolicy.text_of_not_enabled henabled text
    rw [hid, List.map_id, id]
  | true =>
    rw [← String.toList_inj, RedactionPolicy.text_of_enabled henabled, String.toList_ofList,
      toList_joined, toList_joined, applyAll_flatten h, List.map_map, List.map_map]
    congr 1
    refine List.map_congr_left fun chunk _ => ?_
    simp [RedactionPolicy.text_of_enabled henabled]

/-- **A streamed answer is accepted** when every pass of the policy recognises in the
answer exactly the spans it recognises in the deltas. -/
theorem streamed_answer_accepted {front back streamed streamed' : List TraceEntry}
    {started started' completed completed' : TraceEntry} {chunks : List String}
    {e e' : AgentEvent} {record read : SessionMessage}
    (hstreams : Streams started streamed completed chunks)
    (hstarted : ReadsBack session blobs (journal.redactedLine started) started' e)
    (hstreamed : LinesReadBack session blobs journal streamed streamed')
    (hcompleted : ReadsBack session blobs (journal.redactedLine completed) completed' e')
    (hintact : validateTraceIntegrity session
      (around front started' streamed' completed' back) = .ok ())
    (hanswer : Answers record completed chunks)
    (hread : Sanitizes journal.policy record read)
    (hrespect : RespectChunks journal.policy.passes (chunks.map String.toList)) :
    validateAssistantMessageContent session blobs
      (around front started' streamed' completed' back) read = .ok () :=
  (content_accepted_iff hstreams hstarted hstreamed hcompleted hintact hanswer hread).mpr
    (text_joined hrespect)

end Answer

/-! ### An answer in two deltas -/

namespace TwoDeltas

def model : ModelRef := ⟨"p", "m"⟩

def line (seq : EventSeq) (id : EventId) (event : AgentEvent) : TraceEntry where
  envelope :=
    ⟨1, ⟨id, "s", some "t", some seq, 0, some 0, some model, none, none, "tr", "sp"⟩, event⟩
  redactions := 0
  rawPayload := false
  rawRef := none
  externalized := []

def started : TraceEntry := line 1 "e1" (.modelRequestStarted ⟨0, model, 1, 1, 0⟩)

def deltas (a b : String) : List TraceEntry :=
  [line 2 "e2" (.assistantDelta ⟨a, 0⟩), line 3 "e3" (.assistantDelta ⟨b, 1⟩)]

def completed : TraceEntry :=
  line 4 "e4" (.modelRequestCompleted
    ⟨0, model, some "stop", none, none, none, none, none, none, none, 0, 0, none, none⟩)

def record (text : String) : SessionMessage :=
  ⟨"t", .assistant, .assistant text, 0, model, "e4", some 4, none⟩

/-- The default policy, in an environment without secrets. -/
def policy : RedactionPolicy := ⟨true, 8, [], true, []⟩

def journal : TraceJournal := ⟨"trace.jsonl", ⟨[], [], 0, 0⟩, policy, .disabled, none⟩

def noBlobs : BlobReader where
  get _ := .error "missing"
  getRelativeVerified _ := .error "missing"
  decodeEvent _ := .error "missing"

lemma streams (a b : String) : Streams started (deltas a b) completed [a, b] where
  started_kind := rfl
  completed_kind := rfl
  no_start := by simp [deltas, line, AgentEvent.isModelRequestStarted]
  scope := by simp [deltas, line, started, completed, TraceEntry.sameScope]
  chunks_eq := rfl

lemma answers (a b : String) : Answers (record (joined [a, b])) completed [a, b] :=
  ⟨rfl, rfl, rfl⟩

lemma model_parsed : model.Parsed := by
  rw [ModelRef.Parsed]
  decide +kernel

/-- A line in which nothing is redacted reads back as itself. -/
lemma readsBack_line {seq : EventSeq} {id : EventId} {event : AgentEvent}
    (h : (line seq id event).toValue = journal.redactedLine (line seq id event)) :
    ReadsBack "s" noBlobs (journal.redactedLine (line seq id event)) (line seq id event) event := by
  refine ReadsBack.of_inline rfl h fun m hm => ?_
  obtain rfl := Option.some.inj hm
  exact model_parsed

example : journal.redactedLine started = started.toValue := by decide +kernel

lemma readsBack_deltas {a b : String}
    (ha : (line 2 "e2" (.assistantDelta ⟨a, 0⟩)).toValue =
      journal.redactedLine (line 2 "e2" (.assistantDelta ⟨a, 0⟩)))
    (hb : (line 3 "e3" (.assistantDelta ⟨b, 1⟩)).toValue =
      journal.redactedLine (line 3 "e3" (.assistantDelta ⟨b, 1⟩))) :
    LinesReadBack "s" noBlobs journal (deltas a b) (deltas a b) :=
  .cons ⟨_, readsBack_line ha⟩ (.cons ⟨_, readsBack_line hb⟩ .nil)

lemma readsBack_started :
    ReadsBack "s" noBlobs (journal.redactedLine started) started started.event :=
  readsBack_line (by decide +kernel)

lemma readsBack_completed :
    ReadsBack "s" noBlobs (journal.redactedLine completed) completed completed.event :=
  readsBack_line (by decide +kernel)

/-- An answer whose authorization value was streamed in two deltas: neither delta
is redacted, the answer is, and the session does not resume. -/
theorem split_authorization_rejected :
    Streams started (deltas "Basic " "abcdefgh") completed ["Basic ", "abcdefgh"] ∧
      ReadsBack "s" noBlobs (journal.redactedLine started) started started.event ∧
      LinesReadBack "s" noBlobs journal (deltas "Basic " "abcdefgh")
        (deltas "Basic " "abcdefgh") ∧
      ReadsBack "s" noBlobs (journal.redactedLine completed) completed completed.event ∧
      validateTraceIntegrity "s" (around [] started (deltas "Basic " "abcdefgh") completed []) =
        .ok () ∧
      Answers (record (joined ["Basic ", "abcdefgh"])) completed ["Basic ", "abcdefgh"] ∧
      Sanitizes policy (record (joined ["Basic ", "abcdefgh"])) (record "Basic [redacted:auth]") ∧
      validateAssistantMessageContent "s" noBlobs
          (around [] started (deltas "Basic " "abcdefgh") completed [])
          (record "Basic [redacted:auth]") ≠ .ok () :=
  ⟨streams _ _, readsBack_started, readsBack_deltas (by decide +kernel) (by decide +kernel),
    readsBack_completed, by decide +kernel, answers _ _, ⟨by decide +kernel, model_parsed⟩,
    by decide +kernel⟩

/-- An answer in which no delta and no cut has anything to redact. -/
theorem streamed_answer_accepted_greeting :
    validateAssistantMessageContent "s" noBlobs
      (around [] started (deltas "Hello " "world") completed []) (record "Hello world") = .ok () :=
  streamed_answer_accepted (streams "Hello " "world") readsBack_started
    (readsBack_deltas (by decide +kernel) (by decide +kernel)) readsBack_completed
    (by decide +kernel) (answers _ _) ⟨by decide +kernel, model_parsed⟩ (by decide +kernel)

end TwoDeltas

end Rupi
