import Rupi.Store.Emit
import Rupi.Store.SessionLog
import Rupi.Store.Trace

/-!
The sink of a turn loop: every event goes to the trace, and the few that change the
model-visible window also leave a record in the session log.

The sink is modelled with redaction off and without failures, as what the two files
hold. Nothing is stored out of a line here; `Rupi.Store.ReadBack` is about that.

- `StoreTrace.emit`, `StoreTrace.emitMessage`: one event, one event with its message.
- `StoreTrace.projection`: the record an event leaves.
- `emit_entries`, `emit_records`: what an emission adds to the two files.
-/

namespace Rupi

open Fallible

/-- The trace line of an envelope, as it comes back. -/
def TraceEntry.ofEnvelope (envelope : EventEnvelope) : TraceEntry where
  envelope := envelope
  redactions := 0
  rawPayload := false
  rawRef := none
  externalized := []

/-- Session-backed trace sink. -/
structure StoreTrace where
  /-- The canonical trace. -/
  entries : List TraceEntry
  lastSeq : Option EventSeq
  /-- The session log, its header first. -/
  records : List SessionRecord
  /-- A summary message was written and no completion has taken it up. -/
  summaryPending : Bool
  pendingCompactionRange : Option (EventSeq × EventSeq)
  pendingCheckpoint : Option SessionCheckpointRecord

namespace StoreTrace

/-- The number the next line gets. Running out of `u64` numbers is a failure of the
sink. -/
def nextSeq (trace : StoreTrace) : EventSeq := (trace.lastSeq.map (· + 1)).getD 1

/-- The envelope as the log stamps it. -/
def stamp (trace : StoreTrace) (envelope : EventEnvelope) : EventEnvelope :=
  { envelope with eventMeta := { envelope.eventMeta with seq := some trace.nextSeq } }

/-- Append one line to the trace. -/
def append (trace : StoreTrace) (envelope : EventEnvelope) : StoreTrace :=
  { trace with
    entries := trace.entries ++ [.ofEnvelope (trace.stamp envelope)]
    lastSeq := some trace.nextSeq }

/-- Append one record to the session log. -/
def log (trace : StoreTrace) (record : SessionRecord) : StoreTrace :=
  { trace with records := trace.records ++ [record] }

/-- The compaction record of a completion: it has a summary, and with it a range, when
a summary message is pending and the level has one. -/
def compactionRecord (trace : StoreTrace) (completed : ContextCompactionCompleted) :
    SessionCompactionRecord :=
  let hasSummary := trace.summaryPending &&
    (completed.level == .l1Ordinary || completed.level == .l2Phase)
  let range := if hasSummary then trace.pendingCompactionRange else none
  { contextEpoch := completed.contextEpoch
    level := completed.level
    removedMessages := completed.removedMessages
    retainedFrom := 0
    retainedMessages := completed.retainedMessages
    summaryPresent := hasSummary
    replacesFrom := range.map Prod.fst
    replacesThrough := range.map Prod.snd
    aborted := false
    startEventId := none
    summaryEventId := none }

/-- The record an event leaves in the session log, with its sequence number stamped. -/
def projection (trace : StoreTrace) (envelope : EventEnvelope) : Option SessionRecord :=
  match envelope.event with
  | .modelEpochStarted started => some (.epoch ⟨started.epoch, started.model, started.reason⟩)
  | .checkpointCreated _ => trace.pendingCheckpoint.map SessionRecord.checkpointBarrier
  | .contextCompactionCompleted completed => some (.compaction (trace.compactionRecord completed))
  | .contextReduced reduced =>
    if 0 < reduced.removedMessages then
      some (.reduction
        { eventId := envelope.eventMeta.eventId
          seq := some trace.nextSeq
          reason := reduced.reason
          removedMessages := reduced.removedMessages
          retainedMessages := reduced.retainedMessages })
    else none
  | _ => none

/-- What the sink remembers of an event until its compaction completes. -/
def remember (trace : StoreTrace) (event : AgentEvent) : StoreTrace :=
  match event with
  | .contextCompactionEpoch epoch =>
    { trace with pendingCompactionRange := some (epoch.replacesFrom, epoch.replacesThrough) }
  | .contextSummary => { trace with summaryPending := true }
  | .checkpointCreated _ => { trace with pendingCheckpoint := none }
  | .contextCompactionCompleted _ =>
    { trace with summaryPending := false, pendingCompactionRange := none }
  | _ => trace

/-- `emit`: the line, its record if it leaves one, and what is remembered. -/
def emit (trace : StoreTrace) (envelope : EventEnvelope) : StoreTrace :=
  let written := (trace.append envelope).remember envelope.event
  match trace.projection envelope with
  | some record => written.log record
  | none => written

/-- `emit_message`, of an envelope that has no sequence number yet. -/
def emitMessage (trace : StoreTrace) (envelope : EventEnvelope) (message : Message) :
    Except StoreError StoreTrace := do
  let record ← messageRecord envelope message trace.nextSeq
  let written := (trace.append envelope).log (.message record)
  match envelope.event with
  | .contextSummary => .ok { written with summaryPending := true }
  | _ => .ok written

/-- `emit_without_message`: the line alone. -/
def emitWithoutMessage (trace : StoreTrace) (envelope : EventEnvelope) : StoreTrace :=
  trace.append envelope

/-- `create_checkpoint`: the barrier is prepared and goes out with its event. -/
def createCheckpoint (trace : StoreTrace) (id : CheckpointId) (capsule : ContextCapsule) :
    StoreTrace × CheckpointId × String :=
  let path := "checkpoints/" ++ id ++ ".json"
  let record : SessionCheckpointRecord := ⟨id, capsule.version, 0, path, capsule⟩
  ({ trace with pendingCheckpoint := some record }, id, path)

/-- `set_checkpoint_context_epoch`. -/
def setCheckpointContextEpoch (trace : StoreTrace) (epoch : Nat) : StoreTrace :=
  { trace with
    pendingCheckpoint := trace.pendingCheckpoint.map fun record =>
      { record with contextEpoch := epoch } }

/-! ### What an emission adds -/

section Lemmas

variable {trace trace' : StoreTrace} {envelope : EventEnvelope} {message : Message}

@[simp] lemma remember_entries (event : AgentEvent) :
    (trace.remember event).entries = trace.entries := by
  cases event <;> rfl

@[simp] lemma remember_records (event : AgentEvent) :
    (trace.remember event).records = trace.records := by
  cases event <;> rfl

@[simp] lemma remember_lastSeq (event : AgentEvent) :
    (trace.remember event).lastSeq = trace.lastSeq := by
  cases event <;> rfl

@[simp] lemma emit_entries :
    (trace.emit envelope).entries =
      trace.entries ++ [.ofEnvelope (trace.stamp envelope)] := by
  unfold emit
  simp only
  split <;> simp [log, append]

@[simp] lemma emit_lastSeq : (trace.emit envelope).lastSeq = some trace.nextSeq := by
  unfold emit
  simp only
  split <;> simp [log, append]

@[simp] lemma emit_records :
    (trace.emit envelope).records = trace.records ++ (trace.projection envelope).toList := by
  unfold emit
  simp only
  cases trace.projection envelope <;> simp [log, append]

@[simp] lemma emit_nextSeq : (trace.emit envelope).nextSeq = trace.nextSeq + 1 := by
  simp [nextSeq]

/-- A message goes out with its line and its record. -/
lemma emitMessage_eq_ok (h : trace.emitMessage envelope message = .ok trace') :
    ∃ record, messageRecord envelope message trace.nextSeq = .ok record ∧
      trace'.entries = trace.entries ++ [.ofEnvelope (trace.stamp envelope)] ∧
      trace'.records = trace.records ++ [.message record] ∧
      trace'.lastSeq = some trace.nextSeq ∧
      trace'.pendingCompactionRange = trace.pendingCompactionRange ∧
      (envelope.event = .contextSummary → trace'.summaryPending = true) := by
  obtain ⟨record, hrecord, h⟩ := bind_eq_ok.mp h
  refine ⟨record, hrecord, ?_⟩
  simp only at h
  split at h
  · obtain rfl := Except.ok.inj h
    simp [log, append]
  · rename_i hother
    obtain rfl := Except.ok.inj h
    exact ⟨rfl, rfl, rfl, rfl, fun heq => absurd heq hother⟩

end Lemmas

end StoreTrace

end Rupi
