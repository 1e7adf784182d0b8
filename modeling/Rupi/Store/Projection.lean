import Rupi.Store.Trace

/-!
One message of the session log against the event that introduced it.

- `validateMessageProjection`: attribution, role and shape of a message.
- `validateAssistantMessageContent`: an assistant answer is the concatenation of
  the deltas of its request.
-/

namespace Rupi

open Fallible

section Checks

variable (session : SessionId) (blobs : BlobReader)

/-- A message whose shape does not fit its event. -/
def invalidProjection (message : SessionMessage) (detail : String) : StoreError :=
  let id := message.eventId
  .invalid
    (s!"session {session} semantic event {id} has an invalid message projection ({detail}); " ++
      "resume requires recovery")

/-- The message is one text block. -/
def singleText (message : Message) : Bool :=
  match message.content with
  | [.text _] => true
  | _ => false

/-- A text or an image. -/
def ContentBlock.isTextOrImage : ContentBlock → Bool
  | .text _ | .image _ _ => true
  | _ => false

def ContentBlock.isImage : ContentBlock → Bool
  | .image _ _ => true
  | _ => false

/-- The states a result may claim after a terminal event of a given state. -/
def stateMatches (result state : ToolExecutionState) : Bool :=
  match state with
  | .failed => result == .failed || result == .requested
  | .unknown => result == .unknown || result == .started || result == .requested
  | _ => result == state

/-- `validate_tool_result_projection`: the result block of a terminal tool event. -/
def validateToolResultProjection (message : SessionMessage) (callId : ToolCallId) (name : String)
    (state : ToolExecutionState) (expectedError : Bool) : Except StoreError ToolResultBlock :=
  if message.role = .tool then
    match message.message.content with
    | [.toolResult result] =>
      if result.id = callId ∧ result.name = name ∧ stateMatches result.state state ∧
          (expectedError → result.isError) then .ok result
      else .error (invalidProjection session message "tool result metadata mismatch")
    | [_] => .error (invalidProjection session message "tool result block is missing")
    | _ => .error (invalidProjection session message "tool result role or shape mismatch")
  else .error (invalidProjection session message "tool result role or shape mismatch")

/-- The shape of a message, by the kind of the event that introduced it. -/
def validateMessageShape (message : SessionMessage) (event : AgentEvent) :
    Except StoreError Unit :=
  let invalid := invalidProjection session message
  match event with
  | .userMessage user =>
    -- only a user projection has the text and attachments of its event
    ensure
      (message.role = .user →
        message.message.content.all ContentBlock.isTextOrImage ∧
          message.message.text = user.text ∧
          message.message.content.countP ContentBlock.isImage ≤ user.attachments)
      (invalid "user text, role, or attachment mismatch")
  | .externalContextRetrieved retrieved => do
    ensure (message.role = .user ∧ singleText message.message)
      (invalid "external context is not a user message")
    match message.externalContext with
    | none => .error (invalid "external context reference is missing")
    | some context =>
      ensure
        (context.provider = retrieved.source.provider ∧
          context.resourceId = retrieved.source.resourceId ∧
          context.citation = retrieved.citation ∧
          context.provenance = retrieved.source.provenance ∧
          context.metadata = retrieved.metadata)
        (invalid "external context attribution mismatch")
  | .contextSummary =>
    ensure (message.role = .user ∧ singleText message.message)
      (invalid "summary is not a user message")
  | .assistantDelta _ =>
    ensure (message.role = .assistant) (invalid "assistant delta is not an assistant message")
  | .modelRequestCompleted completed => do
    ensure (message.role = .assistant) (invalid "model completion is not an assistant message")
    ensure (message.message.toolCalls.length = completed.toolCalls)
      (invalid "tool-call count mismatch")
  | .toolCompleted completed => do
    let result ← validateToolResultProjection session message completed.callId completed.name
      .succeeded false
    ensure
      (result.reduced = completed.reduced ∧ result.text.utf8ByteSize = completed.visibleBytes)
      (invalid "tool result reduction or visible-byte metadata mismatch")
  | .toolFailed failed => do
    let _ ← validateToolResultProjection session message failed.callId failed.name .failed true
    .ok ()
  | .toolUnknown unknown => do
    let _ ← validateToolResultProjection session message unknown.callId unknown.name .unknown true
    .ok ()
  | _ => .error (invalid "event does not introduce a message")

/-- The attribution of a message agrees with its event's. -/
def attributed (message : SessionMessage) (entry : TraceEntry) : Bool :=
  entry.turnId == some message.turnId && entry.modelEpoch.all (· == message.epoch) &&
    entry.model.all (· == message.model)

/-- `validate_message_projection`. -/
def validateMessageProjection (message : SessionMessage) (entry : TraceEntry) :
    Except StoreError Unit := do
  let event ← restoreExternalizedEvent session blobs entry
  let id := message.eventId
  ensure (attributed message entry)
    (.invalid
      (s!"session {session} semantic event {id} attribution disagrees with its canonical " ++
        "trace; resume requires recovery"))
  validateMessageShape session message event

/-! ### Assistant answers -/

/-- The sequence number of the last request start in a scope, below a bound. -/
def requestStart (entries : List TraceEntry) (scope : TraceEntry) (bound : EventSeq) :
    Option EventSeq :=
  ((entries.filter fun entry =>
    entry.before bound && entry.sameScope scope && entry.event.isModelRequestStarted).filterMap
      TraceEntry.seq).max?

/-- The terminal request of an assistant message: its introducing event, or the
first completion behind the message in the same scope. -/
def terminalRequest (entries : List TraceEntry) (introducing : TraceEntry)
    (messageSeq : EventSeq) : Option TraceEntry :=
  if introducing.event.isModelRequestCompleted then some introducing
  else
    entries.find? fun entry =>
      entry.seq.any (messageSeq < ·) && entry.sameScope introducing &&
        entry.event.isModelRequestCompleted

/-- The deltas of a request, from its start up to its completion. -/
def requestDeltas (entries : List TraceEntry) (introducing : TraceEntry)
    (start completion : EventSeq) : List TraceEntry :=
  entries.filter fun entry =>
    entry.seq.any (fun seq => start ≤ seq && seq < completion) && entry.sameScope introducing &&
      entry.event.isAssistantDelta

/-- The text of a delta, with what was externalized put back. -/
def deltaText (entry : TraceEntry) : Except StoreError String := do
  let event ← restoreExternalizedEvent session blobs entry
  match event with
  | .assistantDelta delta => .ok delta.text
  -- the kind of an event is never stored out of its line
  | _ => .ok ""

/-- `validate_assistant_message_content`. -/
def validateAssistantMessageContent (entries : List TraceEntry) (message : SessionMessage) :
    Except StoreError Unit :=
  let id := message.eventId
  match message.seq, entries.find? fun entry => entry.eventId == id with
  | some messageSeq, some introducing =>
    if introducing.event.isProviderAssistant then
      match terminalRequest entries introducing messageSeq with
      | none =>
        .error (.invalid
          (s!"session {session} assistant message {id} has no terminal request; " ++
            "resume requires recovery"))
      | some completion =>
        match completion.seq with
        | none =>
          .error (.invalid
            (s!"session {session} assistant completion has no canonical sequence; " ++
              "resume requires recovery"))
        | some completionSeq => do
          let start := (requestStart entries introducing messageSeq).getD 0
          let expected ←
            scan (fun text entry => (deltaText session blobs entry).map (text ++ ·)) ""
              (requestDeltas entries introducing start completionSeq)
          ensure (message.message.text = expected)
            (.invalid
              (s!"session {session} assistant message {id} content disagrees with canonical " ++
                "deltas; resume requires recovery"))
    -- only provider-produced assistant boundaries carry text to reconstruct
    else .ok ()
  | _, _ => .ok ()

end Checks

end Rupi
