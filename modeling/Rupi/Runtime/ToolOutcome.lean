import Rupi.Store.Emit
import Rupi.Store.ReadBack

/-!
One executed tool call: its terminal event, its result block, and what a resume
says about the pair.

The event counts the bytes of the text before redaction; the message is redacted
when it is written.

- `recordToolOutcome`: `record_tool_outcome`.
- **`tool_result_accepted_iff`**: the pair is accepted back exactly when redaction
  left the number of bytes as it was.
- `redacted_result_rejected`: a result whose authorization value was redacted.
-/

namespace Rupi

open Fallible Value

/-! ### Blob references -/

/-- `BlobRef::recovery_ref`. -/
def BlobRef.recoveryRef (blob : BlobRef) : String :=
  blob.relativePath ++ ":" ++ String.ofList (blob.hash.toList.take 12)

/-! ### The pair of a tool call -/

/-- Result of one execution. -/
structure ToolOutcome where
  state : ToolExecutionState
  text : String
  isError : Bool
  reduced : Bool
  status : Option Int
  deriving DecidableEq, Repr

/-- One executed call, with the lifecycle state the registry recorded. -/
structure Executed where
  outcome : ToolOutcome
  state : ToolExecutionState
  refusal : Option String
  /-- The full output when the text was reduced. -/
  fullOutput : Option (List UInt8)
  deriving DecidableEq, Repr

/-- What recording an outcome emits: the reduction, the terminal event and the
result block of its message. -/
structure RecordedOutcome where
  reduction : Option ContextReduced
  event : AgentEvent
  block : ToolResultBlock
  deriving DecidableEq

def RecordedOutcome.message (recorded : RecordedOutcome) : Message :=
  ⟨.tool, [.toolResult recorded.block]⟩

/-- `record_tool_outcome`. `putPayload` is the blob the sink stored the full output
as, when it keeps blobs. -/
def recordToolOutcome (call : ToolCallBlock) (executed : Executed) (durationMs : Nat)
    (readOnly : Bool) (putPayload : List UInt8 → Option BlobRef) : RecordedOutcome :=
  let outcome := executed.outcome
  let text := outcome.text
  let blob := executed.fullOutput.bind putPayload
  let reduced := outcome.reduced || executed.fullOutput.isSome
  let event : AgentEvent :=
    match executed.state with
    | .succeeded =>
      .toolCompleted
        ⟨call.id, call.name, .succeeded, durationMs, outcome.status, reduced, blob,
          text.utf8ByteSize⟩
    | .failed => .toolFailed ⟨call.id, call.name, text, durationMs, outcome.status⟩
    -- uncertainty behind a possible execution boundary stays unknown
    | .unknown | .requested | .started =>
      .toolUnknown ⟨call.id, call.name, executed.refusal.getD text, !readOnly⟩
  { reduction := executed.fullOutput.map fun full =>
      { reason := .oversizedToolOutput full.length
        originalBytes := full.length
        visibleBytes := text.utf8ByteSize
        removedMessages := 0
        retainedMessages := 0
        blob := blob
        recoveryRef := blob.map BlobRef.recoveryRef
        toolCallId := some call.id }
    event := event
    block := ⟨call.id, call.name, executed.state, text, outcome.isError, reduced⟩ }

section Result

variable {session : SessionId} {blobs : BlobReader} {journal : TraceJournal}

/-- A record and its event agree on their attribution after both were redacted. -/
lemma attributed_of_readsBack {written read : TraceEntry} {event : AgentEvent}
    {message : Message} {seq : EventSeq} {record back : SessionMessage}
    (hread : ReadsBack session blobs (journal.redactedLine written) read event)
    (hrecord : messageRecord written.envelope message seq = .ok record)
    (hback : Sanitizes journal.policy record back) : attributed back read = true := by
  obtain ⟨hturn, hepoch, hmodel, -⟩ := messageRecord_eq_ok.mp hrecord
  have hturn' : read.turnId = some back.turnId := by
    rw [hread.turnId_eq, hback.turnId_eq]
    simp [TraceEntry.turnId, hturn]
  have hepoch' : read.modelEpoch = some back.epoch := by
    rw [hread.modelEpoch_eq, hback.epoch_eq]
    exact hepoch
  have hmodel' : read.model = some back.model := by
    have hkeys := hread.model_eq
    rw [TraceEntry.model, TraceEntry.model, hmodel, Option.map_some,
      Option.map_eq_some_iff] at hkeys
    obtain ⟨m, hm, hkey⟩ := hkeys
    rw [TraceEntry.model, hm]
    rw [(hread.parsed m hm).eq_of_asKey hback.parsed (hkey.trans hback.model_eq.symm)]
  simp [attributed, hturn', hepoch', hmodel']

/-- **A recorded tool result is accepted back exactly when** redaction leaves the
number of bytes of its text as it was. -/
theorem tool_result_accepted_iff {call : ToolCallBlock} {executed : Executed} {durationMs : Nat}
    {readOnly : Bool} {putPayload : List UInt8 → Option BlobRef} {written read : TraceEntry}
    {event : AgentEvent} {seq : EventSeq} {record back : SessionMessage}
    (hstate : executed.state = .succeeded)
    (hevent : written.event =
      (recordToolOutcome call executed durationMs readOnly putPayload).event)
    (hrecord : messageRecord written.envelope
      (recordToolOutcome call executed durationMs readOnly putPayload).message seq = .ok record)
    (hread : ReadsBack session blobs (journal.redactedLine written) read event)
    (hback : Sanitizes journal.policy record back) :
    validateMessageProjection session blobs back read = .ok () ↔
      (journal.policy.text executed.outcome.text).utf8ByteSize =
        executed.outcome.text.utf8ByteSize := by
  obtain ⟨-, -, -, hrole, hmessage, -⟩ := messageRecord_eq_ok.mp hrecord
  have hattributed := attributed_of_readsBack hread hrecord hback
  have htool : back.role = .tool := by rw [hback.role_eq, hrole]; rfl
  -- the event that came back
  simp only [recordToolOutcome, hstate] at hevent
  obtain ⟨completed, rfl, hcall, hname, hreduced, hbytes⟩ := hread.completed_eq hevent
  -- the block that came back
  have hcontent := hback.content_eq
  rw [hmessage] at hcontent
  simp only [RecordedOutcome.message, List.map_cons, List.map_nil] at hcontent
  obtain ⟨block, hblock, hvalue⟩ := List.map_eq_singleton_iff.mp hcontent
  obtain ⟨result, rfl, hid, hname', hstate', htext, -, hreduced'⟩ := toolResult_of_sanitize hvalue
  have hmatch : validateToolResultProjection session back completed.callId completed.name
      .succeeded false = .ok result := by
    have hsucceeded : result.state = .succeeded := hstate'.trans hstate
    simp [validateToolResultProjection, htool, hblock, hid, hname', hcall, hname, hsucceeded,
      stateMatches, recordToolOutcome]
  have hflags : result.reduced = completed.reduced := by
    rw [hreduced, hreduced', recordToolOutcome]
  have hsize : result.text.utf8ByteSize =
      (journal.policy.text executed.outcome.text).utf8ByteSize := by
    rw [htext, recordToolOutcome]
  rw [validateMessageProjection, hread.restores]
  simp only [ok_bind, hattributed, bind_eq_ok, ensure_eq_ok, exists_const, true_and,
    validateMessageShape, hmatch, hflags, hsize, hbytes]

end Result

/-! ### The result of one call -/

namespace OneCall

def model : ModelRef := ⟨"p", "m"⟩

def call : ToolCallBlock := ⟨"c", "bash", .object []⟩

def executed (text : String) : Executed :=
  ⟨⟨.succeeded, text, false, false, some 0⟩, .succeeded, none, none⟩

def recorded (text : String) : RecordedOutcome :=
  recordToolOutcome call (executed text) 0 true fun _ => none

def written (text : String) : TraceEntry where
  envelope :=
    ⟨1, ⟨"e", "s", some "t", some 1, 0, some 0, some model, none, none, "tr", "sp"⟩,
      (recorded text).event⟩
  redactions := 0
  rawPayload := false
  rawRef := none
  externalized := []

/-- The record of a result; `shown` is the text in the log. -/
def record (shown : String) : SessionMessage :=
  ⟨"t", .tool, ⟨.tool, [.toolResult ⟨"c", "bash", .succeeded, shown, false, false⟩]⟩, 0, model,
    "e", some 1, none⟩

/-- The default policy, in an environment without secrets. -/
def policy : RedactionPolicy := ⟨true, 8, [], true, []⟩

def journal : TraceJournal := ⟨"trace.jsonl", ⟨[], [], 0, 0⟩, policy, .disabled, none⟩

def noBlobs : BlobReader where
  get _ := .error "missing"
  getRelativeVerified _ := .error "missing"
  decodeEvent _ := .error "missing"

lemma model_parsed : model.Parsed := by
  rw [ModelRef.Parsed]
  decide +kernel

lemma readsBack_written {text : String}
    (h : (written text).toValue = journal.redactedLine (written text)) :
    ReadsBack "s" noBlobs (journal.redactedLine (written text)) (written text)
      (written text).event := by
  refine ReadsBack.of_inline rfl h fun m hm => ?_
  obtain rfl := Option.some.inj hm
  exact model_parsed

/-- A result whose authorization value was redacted in the log: its event still
counts the bytes the tool wrote, and the session does not resume. -/
theorem redacted_result_rejected :
    messageRecord (written "Basic abcd").envelope (recorded "Basic abcd").message 1 =
        .ok (record "Basic abcd") ∧
      ReadsBack "s" noBlobs (journal.redactedLine (written "Basic abcd")) (written "Basic abcd")
        (written "Basic abcd").event ∧
      Sanitizes policy (record "Basic abcd") (record "Basic [redacted:auth]") ∧
      validateMessageProjection "s" noBlobs (record "Basic [redacted:auth]")
        (written "Basic abcd") ≠ .ok () :=
  ⟨by decide +kernel, readsBack_written (by decide +kernel),
    ⟨by decide +kernel, model_parsed⟩, by decide +kernel⟩

theorem tool_result_accepted_iff_done :
    validateMessageProjection "s" noBlobs (record "done") (written "done") = .ok () ↔
      (policy.text "done").utf8ByteSize = "done".utf8ByteSize :=
  have hevent : (written "done").event =
      (recordToolOutcome call (executed "done") 0 true fun _ => none).event := rfl
  have hrecord : messageRecord (written "done").envelope
      (recordToolOutcome call (executed "done") 0 true fun _ => none).message 1 =
        .ok (record "done") := by decide +kernel
  tool_result_accepted_iff rfl hevent hrecord (readsBack_written (by decide +kernel))
    ⟨by decide +kernel, model_parsed⟩

end OneCall

end Rupi
