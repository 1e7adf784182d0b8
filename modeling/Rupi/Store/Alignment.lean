import Rupi.Store.Projection

/-!
The join of the trace and the session log.

`validateProjectionAlignment` runs four loops: every event that implies a record
has one, every tool call a message proposes was requested, every bounded
compaction has its canonical boundaries, and every linked record agrees with its
event.

- `alignment_iff`: what is accepted, loop by loop.
-/

namespace Rupi

open Fallible

namespace SessionRecord

/-- The canonical sequence number a record claims. -/
def linkedSeq : SessionRecord → Option EventSeq
  | message m => m.seq
  | reduction r => r.seq
  | _ => none

def message? : SessionRecord → Option SessionMessage
  | message m => some m
  | _ => none

def reduction? : SessionRecord → Option SessionReductionRecord
  | reduction r => some r
  | _ => none

def compaction? : SessionRecord → Option SessionCompactionRecord
  | compaction c => some c
  | _ => none

/-- A message record of one event. -/
def isMessageOf (record : SessionRecord) (id : EventId) : Bool :=
  record.message?.any (·.eventId == id)

end SessionRecord

/-- The records that claim a canonical sequence number. -/
def linkedRecords (records : List SessionRecord) : List SessionRecord :=
  records.filter fun record => record.linkedSeq.isSome

/-- A compaction with canonical bounds that was not aborted. -/
def isScoped (compaction : SessionCompactionRecord) : Bool :=
  !compaction.aborted && compaction.replacesFrom.isSome && compaction.replacesThrough.isSome

def scopedCompactions (records : List SessionRecord) : List SessionCompactionRecord :=
  (records.filterMap SessionRecord.compaction?).filter isScoped

/-- A linked message of the event exists. -/
def hasMessage (records : List SessionRecord) (id : EventId) : Bool :=
  (linkedRecords records).any (·.isMessageOf id)

/-- The message was introduced by an event that carries provider text. -/
def providerIntroduced (entries : List TraceEntry) (message : SessionMessage) : Bool :=
  message.role == .assistant &&
    entries.any fun entry => entry.eventId == message.eventId && entry.event.isProviderAssistant

/-- Some linked assistant message of the session was introduced by provider text. -/
def hasProviderMessage (entries : List TraceEntry) (records : List SessionRecord) : Bool :=
  (linkedRecords records).any fun record => record.message?.any (providerIntroduced entries)

/-- The request that ends at a sequence number streamed assistant text. -/
def streamedText (entries : List TraceEntry) (completion : TraceEntry) : Bool :=
  match completion.seq with
  | none => false
  | some completionSeq =>
    let start := (requestStart entries completion completionSeq).getD 0
    entries.any fun entry =>
      entry.seq.any (fun seq => decide (start < seq) && decide (seq < completionSeq)) &&
        entry.sameScope completion && entry.event.isAssistantDelta

/-- A completion that is expected to have an assistant message. -/
def expectsAssistant (entries : List TraceEntry) (entry : TraceEntry) : Bool :=
  match entry.event with
  | .modelRequestCompleted completed =>
    completed.finishReason.isSome && completed.finishReason != some "abandoned" &&
      streamedText entries entry
  | _ => false

/-- The tool of a call was started before an event. -/
def startedBefore (entries : List TraceEntry) (entry : TraceEntry) (callId : ToolCallId) : Bool :=
  entries.any fun candidate =>
    (match candidate.seq, entry.seq with
      | some a, some b => decide (a < b)
      | none, some _ => true
      | _, none => false) &&
    match candidate.event with
    | .toolStarted started => started.callId == callId
    | _ => false

section Alignment

variable (session : SessionId) (blobs : BlobReader)

/-- An event without the record it implies. -/
def missingProjection (entry : TraceEntry) : StoreError :=
  let kind := entry.event.kind
  let id := entry.eventId
  .invalid
    (s!"session {session} canonical {kind} event {id} has no semantic projection; " ++
      "resume requires recovery")

/-- A reduction agrees with its event. -/
def checkReduction (records : List SessionRecord) (entry : TraceEntry) (reduced : ContextReduced) :
    Except StoreError Unit :=
  let id := entry.eventId
  match ((linkedRecords records).filterMap SessionRecord.reduction?).find? (·.eventId == id) with
  | none => .error (missingProjection session entry)
  | some projection =>
    ensure
      (projection.reason = reduced.reason ∧ projection.removedMessages = reduced.removedMessages ∧
        projection.retainedMessages = reduced.retainedMessages)
      (.invalid
        (s!"session {session} reduction projection for event {id} disagrees with its " ++
          "canonical trace; resume requires recovery"))

/-- The record of a completed compaction. -/
def completedBy (compaction : SessionCompactionRecord) (completed : ContextCompactionCompleted) :
    Bool :=
  compaction.contextEpoch == completed.contextEpoch && compaction.level == completed.level &&
    compaction.removedMessages == completed.removedMessages &&
    compaction.retainedMessages == completed.retainedMessages

/-- The record of a compaction epoch. -/
def epochOf (compaction : SessionCompactionRecord) (epoch : ContextCompactionEpoch) : Bool :=
  compaction.contextEpoch == epoch.contextEpoch &&
    compaction.replacesFrom == some epoch.replacesFrom &&
    compaction.replacesThrough == some epoch.replacesThrough

/-- The barrier of a checkpoint. -/
def barrierOf (created : CheckpointCreated) : SessionRecord → Bool
  | .checkpointBarrier barrier =>
    barrier.checkpointId == created.checkpointId && barrier.contextEpoch == created.contextEpoch &&
      barrier.capsuleVersion == created.capsuleVersion && barrier.capsulePath == created.path &&
      barrier.capsule.version == created.capsuleVersion
  | _ => false

/-- The record of a model epoch. -/
def epochRecordOf (started : ModelEpochStarted) : SessionRecord → Bool
  | .epoch record =>
    record.epoch == started.epoch && record.model == started.model &&
      record.reason == started.reason
  | _ => false

/-- First loop: the record an event implies. -/
def checkEntry (entries : List TraceEntry) (records : List SessionRecord) (entry : TraceEntry) :
    Except StoreError Unit :=
  let fail := missingProjection session entry
  let aborted := abortedCompactionEventIds entries
  match entry.event with
  | .contextSummary =>
    ensure (entry.eventId ∈ aborted ∨ hasMessage records entry.eventId) fail
  | .contextCompactionEpoch epoch =>
    ensure
      (entry.eventId ∈ aborted ∨ (scopedCompactions records).any fun c => epochOf c epoch) fail
  | .userMessage _ | .externalContextRetrieved _ | .toolCompleted _ =>
    ensure (hasMessage records entry.eventId) fail
  | .toolFailed failed =>
    -- a request that failed with its response was never started and has no result message
    ensure (startedBefore entries entry failed.callId → hasMessage records entry.eventId) fail
  | .toolUnknown unknown =>
    ensure (startedBefore entries entry unknown.callId → hasMessage records entry.eventId) fail
  | .contextReduced reduced =>
    if 0 < reduced.removedMessages then checkReduction session records entry reduced else .ok ()
  | .contextCompactionCompleted completed =>
    ensure (records.any fun record => record.compaction?.any (completedBy · completed)) fail
  | .modelEpochStarted started => do
    ensure (entry.modelEpoch.all (· == started.epoch) ∧ entry.model.all (· == started.model))
      (.invalid
        (s!"session {session} model epoch metadata disagrees with its event; " ++
          "resume requires recovery"))
    ensure (records.any (epochRecordOf started)) fail
  | .checkpointCreated created => ensure (records.any (barrierOf created)) fail
  | .modelRequestCompleted _ =>
    ensure (expectsAssistant entries entry → hasProviderMessage entries records) fail
  | _ => .ok ()

/-- The event is the request of a call that a message proposes. -/
def requests (message : SessionMessage) (call : ToolCallBlock) (entry : TraceEntry)
    (event : AgentEvent) : Bool :=
  match event with
  | .toolRequested candidate =>
    candidate.callId == call.id && candidate.name == call.name &&
      candidate.arguments == call.arguments && entry.turnId == some message.turnId &&
      entry.modelEpoch.all (· == message.epoch) && entry.model.all (· == message.model) &&
      (match entry.seq, message.seq with
        | some requestSeq, some assistantSeq => decide (assistantSeq < requestSeq)
        | _, _ => false)
  | _ => false

/-- Look for the request of a call; an event that cannot be restored stops the
search. -/
def findRequest (message : SessionMessage) (call : ToolCallBlock) :
    List TraceEntry → Except StoreError Bool
  | [] => .ok false
  | entry :: entries => do
    let event ← restoreExternalizedEvent session blobs entry
    if requests message call entry event then .ok true else findRequest message call entries

/-- Second loop: every tool call of a message was requested. -/
def checkCalls (entries : List TraceEntry) (record : SessionRecord) : Except StoreError Unit :=
  match record with
  | .message message =>
    forEach
      (fun call => do
        let requested ← findRequest session blobs message call entries
        let id := call.id
        ensure (requested = true)
          (.invalid
            (s!"session {session} assistant tool call {id} has no canonical ToolRequested " ++
              "event; resume requires recovery")))
      message.message.toolCalls
  | _ => .ok ()

/-- The element in front of the first one that satisfies a predicate; `previous`
is the element in front of the list. -/
def predecessor (p : SessionRecord → Bool) :
    Option SessionRecord → List SessionRecord → Option SessionRecord
  | _, [] => none
  | previous, record :: records =>
    if p record then previous else predecessor p (some record) records

/-- The record of the same compaction. -/
def sameCompaction (compaction candidate : SessionCompactionRecord) : Bool :=
  candidate.contextEpoch == compaction.contextEpoch && candidate.level == compaction.level &&
    candidate.removedMessages == compaction.removedMessages &&
    candidate.retainedMessages == compaction.retainedMessages &&
    candidate.replacesFrom == compaction.replacesFrom &&
    candidate.replacesThrough == compaction.replacesThrough

/-- The completion event of a compaction. -/
def isCompletionOf (compaction : SessionCompactionRecord) (entry : TraceEntry) : Bool :=
  match entry.event with
  | .contextCompactionCompleted completed => completedBy compaction completed
  | _ => false

/-- The epoch event of a compaction. -/
def epochEventOf (compaction : SessionCompactionRecord) (entry : TraceEntry) :
    Option ContextCompactionEpoch :=
  match entry.event with
  | .contextCompactionEpoch epoch => if epochOf compaction epoch then some epoch else none
  | _ => none

/-- The summaries between the range a compaction replaced and its completion, in
the turn of the completion. -/
def summaryEntries (entries : List TraceEntry) (compaction : SessionCompactionRecord)
    (through : EventSeq) : List TraceEntry :=
  match entries.findSome? fun entry =>
      if isCompletionOf compaction entry then entry.seq else none with
  | none => []
  | some completionSeq =>
    let turn := entries.findSome? fun entry =>
      if isCompletionOf compaction entry then entry.turnId else none
    entries.filter fun entry =>
      entry.seq.any (fun seq => through < seq && seq < completionSeq) && entry.turnId == turn &&
        entry.event.isContextSummary

/-- The message in front of the record of a compaction. -/
def precedingMessage (records : List SessionRecord) (compaction : SessionCompactionRecord) :
    Option SessionMessage :=
  (predecessor (fun record => record.compaction?.any (sameCompaction compaction)) none
    records).bind SessionRecord.message?

/-- The stored text of a compaction summary. -/
def summaryText (compaction : SessionCompactionRecord) (blob : BlobRef) :
    Except StoreError String :=
  let epoch := compaction.contextEpoch
  match blobs.get blob with
  | .error error =>
    .error (.invalid
      (s!"session {session} compaction epoch {epoch} summary blob is unreadable: {error}; " ++
        "resume requires recovery"))
  | .ok bytes =>
    match fromUtf8 bytes with
    | some text => .ok text
    | none =>
      .error (.invalid
        (s!"session {session} compaction epoch {epoch} summary blob is not UTF-8; " ++
          "resume requires recovery"))

/-- Third loop: the canonical boundaries of a bounded compaction. -/
def checkScoped (entries : List TraceEntry) (records : List SessionRecord)
    (compaction : SessionCompactionRecord) : Except StoreError Unit := do
  let epoch := compaction.contextEpoch
  ensure (compaction.summaryPresent ∧ compaction.level ≠ .l3Checkpoint)
    (.invalid
      (s!"session {session} has an invalid bounded compaction projection; " ++
        "resume requires recovery"))
  let unmatched : StoreError := .invalid
    (s!"session {session} compaction epoch {epoch} has no matching canonical summary " ++
      "boundaries; resume requires recovery")
  let summaries := summaryEntries entries compaction (compaction.replacesThrough.getD 0)
  ensure
    ((entries.any fun entry => (epochEventOf compaction entry).isSome) ∧
      entries.any (isCompletionOf compaction))
    unmatched
  match summaries, precedingMessage records compaction with
  | [summary], some message => do
    ensure (message.role = .user ∧ message.eventId = summary.eventId) unmatched
    match entries.findSome? fun entry =>
        (epochEventOf compaction entry).bind (·.summary) with
    | none => .ok ()
    | some blob => do
      let text ← summaryText session blobs compaction blob
      ensure (text = message.message.text)
        (.invalid
          (s!"session {session} compaction epoch {epoch} summary projection disagrees with " ++
            "its blob; resume requires recovery"))
  | _, _ => .error unmatched

/-- A sequence number as an error text shows it. -/
def debugSeq : Option EventSeq → String
  | none => "None"
  | some seq => s!"Some(EventSeq({seq}))"

/-- The event of a linked record carries the record's sequence number. -/
def linkedEntry (entries : List TraceEntry) (id : EventId) (seq : Option EventSeq) :
    Except StoreError TraceEntry :=
  match entries.find? fun entry => entry.eventId == id with
  | none =>
    .error (.invalid
      s!"session {session} semantic event {id} has no canonical trace; resume requires recovery")
  | some entry =>
    if entry.seq = seq then .ok entry
    else
      let claimed := debugSeq seq
      let canonical := debugSeq entry.seq
      .error (.invalid
        (s!"session {session} semantic event {id} sequence {claimed} disagrees with " ++
          s!"canonical {canonical}"))

/-- Fourth loop: a linked record agrees with its event. -/
def checkLinked (entries : List TraceEntry) (record : SessionRecord) : Except StoreError Unit :=
  match record with
  | .message message => do
    let entry ← linkedEntry session entries message.eventId message.seq
    validateMessageProjection session blobs message entry
    if message.role = .assistant then
      validateAssistantMessageContent session blobs entries message
    else .ok ()
  | .reduction reduction => do
    let _ ← linkedEntry session entries reduction.eventId reduction.seq
    .ok ()
  | _ => .ok ()

/-- `validate_projection_alignment`. -/
def validateProjectionAlignment (entries : List TraceEntry) (records : List SessionRecord) :
    Except StoreError Unit := do
  forEach (checkEntry session entries records) entries
  forEach (checkCalls session blobs entries) records
  forEach (checkScoped session blobs entries records) (scopedCompactions records)
  forEach (checkLinked session blobs entries) (linkedRecords records)

/-- What the alignment accepts, loop by loop. -/
theorem alignment_iff {entries : List TraceEntry} {records : List SessionRecord} :
    validateProjectionAlignment session blobs entries records = .ok () ↔
      (∀ entry ∈ entries, checkEntry session entries records entry = .ok ()) ∧
        (∀ record ∈ records, checkCalls session blobs entries record = .ok ()) ∧
        (∀ c ∈ scopedCompactions records,
          checkScoped session blobs entries records c = .ok ()) ∧
        ∀ record ∈ linkedRecords records, checkLinked session blobs entries record = .ok () := by
  simp only [validateProjectionAlignment, bind_eq_ok, forEach_eq_ok]
  constructor
  · rintro ⟨-, hentries, -, hcalls, -, hscoped, hlinked⟩
    exact ⟨hentries, hcalls, hscoped, hlinked⟩
  · rintro ⟨hentries, hcalls, hscoped, hlinked⟩
    exact ⟨(), hentries, (), hcalls, (), hscoped, hlinked⟩

/-- An accepted bounded compaction has one summary, whose message is in front of
its record. -/
lemma checkScoped_ok {entries : List TraceEntry} {records : List SessionRecord}
    {c : SessionCompactionRecord}
    (h : checkScoped session blobs entries records c = .ok ()) :
    ∃ summary message, summaryEntries entries c (c.replacesThrough.getD 0) = [summary] ∧
      precedingMessage records c = some message ∧ message.eventId = summary.eventId := by
  obtain ⟨_, -, h⟩ := bind_eq_ok.mp h
  obtain ⟨_, -, h⟩ := bind_eq_ok.mp h
  split at h
  · rename_i summary message hsummaries hmessage
    obtain ⟨_, hensure, -⟩ := bind_eq_ok.mp h
    exact ⟨summary, message, hsummaries, hmessage, (ensure_eq_ok.mp hensure).2⟩
  · cases h

end Alignment

end Rupi
