import Rupi.Core.EncodeMessage
import Rupi.Store.Journal
import Rupi.Store.Projection

/-!
What comes back from lines that a redaction policy wrote.

Reading is the inverse of writing, so a line reads back as the entry whose tree it
is, once the values that were stored out of the line are put back. The journal
redacts a whole line, the session log a whole record; both walk every string.

- `ReadsBack`: a trace line reads back as an entry and its event.
- `ReadsBack.of_inline`: a line that fits its budget reads back as what it says.
- `Sanitizes`: `sanitize_record`, for a message record.
- `ReadsBack.seq_eq` and its siblings: the fields of what came back.
-/

namespace Rupi

open Value Rewrite

/-! ### Tags and lookups of a trace line -/

/-- The tag of an event is its kind. -/
lemma get_type_fields (event : AgentEvent) :
    (ofObject event.fields).get "type" = some (string event.kind) := by
  cases event <;> simp [AgentEvent.fields, AgentEvent.kind]

lemma get_envelope_fields (event : AgentEvent) :
    (ofObject event.fields).get "meta" = none := by
  cases event <;> simp [AgentEvent.fields]

lemma TraceEntry.get_meta (entry : TraceEntry) :
    entry.toValue.get "meta" = some entry.envelope.eventMeta.toValue := by
  simp [TraceEntry.toValue]

/-- The keys a trace line has besides those of its event. -/
def lineKeys : List String :=
  ["meta", "v", "redactions", "raw_payload", "raw_ref", "externalized"]

lemma TraceEntry.get_event (entry : TraceEntry) {key : String} (hkey : key ∉ lineKeys) :
    entry.toValue.get key = (ofObject entry.event.fields).get key := by
  simp only [lineKeys, List.mem_cons, List.not_mem_nil, or_false, not_or] at hkey
  obtain ⟨hmeta, hv, hredactions, hpayload, hraw, hexternalized⟩ := hkey
  simp [TraceEntry.toValue, Ne.symm hmeta, Ne.symm hv, Ne.symm hredactions, Ne.symm hpayload,
    Ne.symm hraw, Ne.symm hexternalized]

lemma kind_no_bracket (event : AgentEvent) : '[' ∉ event.kind.toList := by
  cases event <;> simp [AgentEvent.kind]

lemma isAssistantDelta_iff (event : AgentEvent) :
    event.isAssistantDelta = (event.kind == "assistant_delta") := by
  cases event <;> rfl

lemma isModelRequestStarted_iff (event : AgentEvent) :
    event.isModelRequestStarted = (event.kind == "model_request_started") := by
  cases event <;> rfl

lemma isModelRequestCompleted_iff (event : AgentEvent) :
    event.isModelRequestCompleted = (event.kind == "model_request_completed") := by
  cases event <;> rfl

/-! ### Trace lines -/

/-- A line, as it was before any of its values was stored out of it, reads back as
the entry `read` whose event is `event`. -/
structure ReadsBack (session : SessionId) (blobs : BlobReader) (line : Value)
    (read : TraceEntry) (event : AgentEvent) : Prop where
  restores : restoreExternalizedEvent session blobs read = .ok event
  /-- The tag of an event is never stored out of its line. -/
  kind_eq : read.event.kind = event.kind
  line_eq : TraceEntry.toValue
    { read with envelope := { read.envelope with event := event }, externalized := [] } = line
  parsed : ∀ m ∈ read.model, m.Parsed

/-- A line that was not bounded reads back as the entry it is the line of. -/
lemma ReadsBack.of_inline {session : SessionId} {blobs : BlobReader} {line : Value}
    {read : TraceEntry} (hinline : read.externalized = []) (hline : read.toValue = line)
    (hparsed : ∀ m ∈ read.model, m.Parsed) : ReadsBack session blobs line read read.event where
  restores := restoreExternalizedEvent_inline session blobs hinline
  kind_eq := rfl
  line_eq := by rw [← hline, ← hinline]
  parsed := hparsed

lemma get_redactedLine (journal : TraceJournal) (written : TraceEntry) (key : String)
    (hkey : isSecretField key = false) (hne : key ≠ "redactions") :
    (journal.redactedLine written).get key =
      (written.toValue.get key).map journal.policy.sanitize := by
  rw [← journal.policy.get_sanitize written.toValue hkey]
  unfold TraceJournal.redactedLine
  simp only
  split
  · rw [get_setField_ne hne, RedactionPolicy.sanitize]
  · rw [RedactionPolicy.sanitize]

section Lines

variable {session : SessionId} {blobs : BlobReader} {journal : TraceJournal}
  {written read : TraceEntry} {event : AgentEvent}

lemma ReadsBack.meta_eq
    (h : ReadsBack session blobs (journal.redactedLine written) read event) :
    read.envelope.eventMeta.toValue =
      journal.policy.sanitize written.envelope.eventMeta.toValue := by
  have hget := get_redactedLine journal written "meta" (by decide) (by decide)
  rw [← h.line_eq, TraceEntry.get_meta, TraceEntry.get_meta] at hget
  exact Option.some.inj hget

/-- One field of the metadata that came back. -/
lemma ReadsBack.get_meta
    (h : ReadsBack session blobs (journal.redactedLine written) read event) (key : String)
    (hkey : isSecretField key = false) :
    read.envelope.eventMeta.toValue.get key =
      (written.envelope.eventMeta.toValue.get key).map journal.policy.sanitize := by
  rw [h.meta_eq, journal.policy.get_sanitize _ hkey]

/-- One field of the event that came back. -/
lemma ReadsBack.get_event
    (h : ReadsBack session blobs (journal.redactedLine written) read event) (key : String)
    (hkey : isSecretField key = false) (hline : key ∉ lineKeys) :
    (ofObject event.fields).get key =
      ((ofObject written.event.fields).get key).map journal.policy.sanitize := by
  have hne : key ≠ "redactions" := fun heq => hline (by simp [heq, lineKeys])
  have hget := get_redactedLine journal written key hkey hne
  rw [← h.line_eq, TraceEntry.get_event _ hline, TraceEntry.get_event _ hline] at hget
  exact hget

lemma ReadsBack.seq_eq
    (h : ReadsBack session blobs (journal.redactedLine written) read event) :
    read.seq = written.seq := by
  have hget := h.get_meta "seq" (by decide)
  cases hread : read.seq <;> cases hwritten : written.seq <;>
    simp_all [EventMeta.toValue, Value.optional, ofNat]

lemma ReadsBack.eventId_eq
    (h : ReadsBack session blobs (journal.redactedLine written) read event) :
    read.eventId = journal.policy.text written.eventId := by
  have hget := h.get_meta "event_id" (by decide)
  simpa [EventMeta.toValue] using hget

lemma ReadsBack.turnId_eq
    (h : ReadsBack session blobs (journal.redactedLine written) read event) :
    read.turnId = written.turnId.map journal.policy.text := by
  have hget := h.get_meta "turn_id" (by decide)
  cases hread : read.turnId <;> cases hwritten : written.turnId <;>
    simp_all [EventMeta.toValue, Value.optional]

lemma ReadsBack.modelEpoch_eq
    (h : ReadsBack session blobs (journal.redactedLine written) read event) :
    read.modelEpoch = written.modelEpoch := by
  have hget := h.get_meta "model_epoch" (by decide)
  cases hread : read.modelEpoch <;> cases hwritten : written.modelEpoch <;>
    simp_all [EventMeta.toValue, Value.optional, ofNat]

lemma ReadsBack.model_eq
    (h : ReadsBack session blobs (journal.redactedLine written) read event) :
    read.model.map ModelRef.asKey =
      written.model.map fun m => journal.policy.text m.asKey := by
  have hget := h.get_meta "model" (by decide)
  cases hread : read.model <;> cases hwritten : written.model <;>
    simp_all [EventMeta.toValue, Value.optional, ModelRef.toValue]

/-- A line never comes back as another kind of event: a redacted tag has a bracket
in it and names no event. -/
lemma ReadsBack.written_kind
    (h : ReadsBack session blobs (journal.redactedLine written) read event) :
    written.event.kind = event.kind := by
  have hget := h.get_event "type" (by decide) (by decide)
  rw [get_type_fields, get_type_fields, Option.map_some, RedactionPolicy.sanitize_string] at hget
  have htext : journal.policy.text written.event.kind = event.kind := by
    simpa using hget.symm
  exact RedactionPolicy.text_eq_of_no_bracket htext (kind_no_bracket event)

/-- The terminal event of a tool that came back. -/
lemma ReadsBack.completed_eq {completed : ToolCompleted}
    (h : ReadsBack session blobs (journal.redactedLine written) read event)
    (hcompleted : written.event = .toolCompleted completed) :
    ∃ back : ToolCompleted, event = .toolCompleted back ∧
      back.callId = journal.policy.text completed.callId ∧
      back.name = journal.policy.text completed.name ∧ back.reduced = completed.reduced ∧
      back.visibleBytes = completed.visibleBytes := by
  have hkind : event.kind = "tool_completed" := by
    rw [← h.written_kind, hcompleted, AgentEvent.kind]
  have hcall := h.get_event "call_id" (by decide) (by decide)
  have hname := h.get_event "name" (by decide) (by decide)
  have hreduced := h.get_event "reduced" (by decide) (by decide)
  have hbytes := h.get_event "visible_bytes" (by decide) (by decide)
  cases event with
  | toolCompleted back =>
    refine ⟨back, rfl, ?_, ?_, ?_, ?_⟩
    · simpa [hcompleted, AgentEvent.fields] using hcall
    · simpa [hcompleted, AgentEvent.fields] using hname
    · simpa [hcompleted, AgentEvent.fields] using hreduced
    · simpa [hcompleted, AgentEvent.fields, ofNat] using hbytes
  | _ => simp [AgentEvent.kind] at hkind

/-- The text of a delta that came back. -/
lemma ReadsBack.delta_eq {delta : AssistantDelta}
    (h : ReadsBack session blobs (journal.redactedLine written) read event)
    (hdelta : written.event = .assistantDelta delta) :
    ∃ back : AssistantDelta, event = .assistantDelta back ∧
      back.text = journal.policy.text delta.text := by
  have hkind : event.kind = "assistant_delta" := by
    rw [← h.written_kind, hdelta, AgentEvent.kind]
  have hget := h.get_event "text" (by decide) (by decide)
  cases event with
  | assistantDelta back =>
    refine ⟨back, rfl, ?_⟩
    simpa [hdelta, AgentEvent.fields] using hget
  | _ => simp [AgentEvent.kind] at hkind

end Lines

/-! ### Message records -/

/-- `sanitize_record` of a message record: the record whose tree is the redacted
tree. -/
structure Sanitizes (policy : RedactionPolicy) (record read : SessionMessage) : Prop where
  value_eq : read.toValue = policy.sanitize record.toValue
  parsed : read.model.Parsed

section Records

variable {policy : RedactionPolicy} {record read : SessionMessage}

/-- One field of the record that came back. -/
lemma Sanitizes.get_eq (h : Sanitizes policy record read) (key : String)
    (hkey : isSecretField key = false) :
    read.toValue.get key = (record.toValue.get key).map policy.sanitize := by
  rw [h.value_eq, policy.get_sanitize _ hkey]

lemma Sanitizes.eventId_eq (h : Sanitizes policy record read) :
    read.eventId = policy.text record.eventId := by
  have hget := h.get_eq "event_id" (by decide)
  simpa [SessionMessage.toValue] using hget

lemma Sanitizes.turnId_eq (h : Sanitizes policy record read) :
    read.turnId = policy.text record.turnId := by
  have hget := h.get_eq "turn_id" (by decide)
  simpa [SessionMessage.toValue] using hget

lemma Sanitizes.epoch_eq (h : Sanitizes policy record read) : read.epoch = record.epoch := by
  have hget := h.get_eq "epoch" (by decide)
  simpa [SessionMessage.toValue, ofNat] using hget

lemma Sanitizes.seq_eq (h : Sanitizes policy record read) : read.seq = record.seq := by
  have hget := h.get_eq "seq" (by decide)
  cases hread : read.seq <;> cases hrecord : record.seq <;>
    simp_all [SessionMessage.toValue, Value.optional, ofNat]

lemma Sanitizes.model_eq (h : Sanitizes policy record read) :
    read.model.asKey = policy.text record.model.asKey := by
  have hget := h.get_eq "model" (by decide)
  simpa [SessionMessage.toValue, ModelRef.toValue] using hget

lemma Role.eq_of_sanitize {a b : Role} (h : a.toValue = policy.sanitize b.toValue) : a = b := by
  have hbracket : '[' ∉ a.tagText.toList := by cases a <;> simp [Role.tagText]
  rw [Role.toValue_eq, Role.toValue_eq, RedactionPolicy.sanitize_string] at h
  have htag := RedactionPolicy.text_eq_of_no_bracket (Value.string.inj h).symm hbracket
  cases a <;> cases b <;> first | rfl | (exact absurd htag (by decide))

lemma Sanitizes.role_eq (h : Sanitizes policy record read) : read.role = record.role := by
  have hget := h.get_eq "role" (by decide)
  simp only [SessionMessage.toValue, get_ofObject_cons] at hget
  exact Role.eq_of_sanitize (by simpa using hget)

lemma Sanitizes.message_eq (h : Sanitizes policy record read) :
    read.message.toValue = policy.sanitize record.message.toValue := by
  have hget := h.get_eq "message" (by decide)
  simpa [SessionMessage.toValue] using hget

/-- The blocks of the message that came back, one by one. -/
lemma Sanitizes.content_eq (h : Sanitizes policy record read) :
    read.message.content.map ContentBlock.toValue =
      record.message.content.map fun block => policy.sanitize block.toValue := by
  have hget := congrArg (·.get "content") h.message_eq
  simp only [policy.get_sanitize _ (show isSecretField "content" = false by decide)] at hget
  simpa [Message.toValue, Function.comp_def] using hget

end Records

/-! ### Blocks of a message -/

section Blocks

variable {policy : RedactionPolicy} {a b : ContentBlock}

/-- The tag of a block. -/
def ContentBlock.tagText : ContentBlock → String
  | .text _ => "text"
  | .image _ _ => "image"
  | .reasoning _ => "reasoning"
  | .toolCall _ => "tool_call"
  | .toolResult _ => "tool_result"

lemma ContentBlock.get_type (block : ContentBlock) :
    block.toValue.get "type" = some (string block.tagText) := by
  cases block <;> simp [ContentBlock.toValue, ContentBlock.fields, ContentBlock.tagText]

/-- A block never comes back as another kind of block. -/
lemma tagText_of_sanitize (h : a.toValue = policy.sanitize b.toValue) :
    b.tagText = a.tagText := by
  have htype := congrArg (·.get "type") h
  simp only [policy.get_sanitize _ (show isSecretField "type" = false by decide),
    ContentBlock.get_type, Option.map_some, RedactionPolicy.sanitize_string] at htype
  have htext : policy.text b.tagText = a.tagText := by simpa using htype.symm
  exact RedactionPolicy.text_eq_of_no_bracket htext
    (by cases a <;> simp [ContentBlock.tagText])

/-- One field of a block that came back. -/
lemma get_of_sanitize (h : a.toValue = policy.sanitize b.toValue) (key : String)
    (hkey : isSecretField key = false) :
    (ofObject a.fields).get key = ((ofObject b.fields).get key).map policy.sanitize := by
  have hget := congrArg (·.get key) h
  simp only [policy.get_sanitize _ hkey] at hget
  exact hget

lemma plainText_of_sanitize (h : a.toValue = policy.sanitize b.toValue) :
    a.plainText = b.plainText.map policy.text := by
  have htag := tagText_of_sanitize h
  have htext := get_of_sanitize h "text" (by decide)
  cases a <;> cases b <;> simp [ContentBlock.tagText] at htag <;> first
    | rfl
    | simpa [ContentBlock.fields, ContentBlock.plainText] using htext

/-- The tag of a tool state. -/
def ToolExecutionState.tagText : ToolExecutionState → String
  | .requested => "requested"
  | .started => "started"
  | .succeeded => "succeeded"
  | .failed => "failed"
  | .unknown => "unknown"

lemma ToolExecutionState.eq_of_sanitize {s t : ToolExecutionState}
    (h : s.toValue = policy.sanitize t.toValue) : s = t := by
  have hvalue : ∀ u : ToolExecutionState, u.toValue = string u.tagText := by
    intro u
    cases u <;> rfl
  have hbracket : '[' ∉ s.tagText.toList := by cases s <;> simp [ToolExecutionState.tagText]
  rw [hvalue, hvalue, RedactionPolicy.sanitize_string] at h
  have htag := RedactionPolicy.text_eq_of_no_bracket (Value.string.inj h).symm hbracket
  cases s <;> cases t <;> first | rfl | (exact absurd htag (by decide))

/-- A result block comes back with its texts redacted and its state and flags as
they were. -/
lemma toolResult_of_sanitize {result : ToolResultBlock}
    (h : a.toValue = policy.sanitize (ContentBlock.toolResult result).toValue) :
    ∃ back : ToolResultBlock, a = .toolResult back ∧ back.id = policy.text result.id ∧
      back.name = policy.text result.name ∧ back.state = result.state ∧
      back.text = policy.text result.text ∧ back.isError = result.isError ∧
      back.reduced = result.reduced := by
  have htag := tagText_of_sanitize h
  cases a with
  | toolResult back =>
    have hid := get_of_sanitize h "id" (by decide)
    have hname := get_of_sanitize h "name" (by decide)
    have hstate := get_of_sanitize h "state" (by decide)
    have htext := get_of_sanitize h "text" (by decide)
    have herror := get_of_sanitize h "is_error" (by decide)
    have hreduced := get_of_sanitize h "reduced" (by decide)
    simp only [ContentBlock.fields, get_ofObject_cons, String.reduceEq, if_true, if_false,
      Option.some_or, Option.map_some, RedactionPolicy.sanitize_string,
      RedactionPolicy.sanitize_bool, Option.some.injEq, Value.string.injEq,
      Value.bool.injEq] at hid hname hstate htext herror hreduced
    exact ⟨back, rfl, hid, hname, ToolExecutionState.eq_of_sanitize hstate, htext, herror,
      hreduced⟩
  | _ => simp [ContentBlock.tagText] at htag

end Blocks

end Rupi
