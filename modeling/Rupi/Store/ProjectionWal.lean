import Rupi.Core.DecodeRecord
import Rupi.Store.Journal

/-!
The write-ahead log of the semantic projection, and the writer of the session log:
the two bounded writers beside the trace journal.

- `WalEntry.toValue`, `ProjectionWal.append`: one line of the log and its write.
- `SessionLog.sanitizeRecord`, `SessionLog.append`: one record of the session and
  its write.
-/

namespace Rupi

open Value Fallible

/-! ### Lines of the projection log -/

/-- Longest line the projection log accepts. -/
def maxWalLineBytes : Nat := 256 * 1024

/-- What recovery needs to know of the event of a prepared transaction. -/
inductive WalEventKind where
  | contextCompactionStarted
  | modelRequestCompleted (terminal : Bool)
  | other
  deriving DecidableEq, Repr

/-- The exact message of a prepared transaction. -/
inductive MessageRecovery where
  | inline (message : Message)
  | blob (blob : BlobRef)
  deriving DecidableEq, Repr

/-- What a prepare entry keeps of an envelope. -/
structure WalPrepare where
  eventId : EventId
  turnId : Option TurnId
  modelEpoch : Option Nat
  kind : WalEventKind
  recovery : Option MessageRecovery
  deriving DecidableEq, Repr

/-- `WalPrepare::from_envelope`. -/
def WalPrepare.fromEnvelope (envelope : EventEnvelope) : WalPrepare where
  eventId := envelope.eventMeta.eventId
  turnId := envelope.eventMeta.turnId
  modelEpoch := envelope.eventMeta.modelEpoch
  kind :=
    match envelope.event with
    | .contextCompactionStarted _ => .contextCompactionStarted
    | .modelRequestCompleted completed => .modelRequestCompleted completed.finishReason.isSome
    | _ => .other
  recovery := none

/-- One line of the projection log. -/
inductive WalEntry where
  | prepare (txId : EventId) (envelope : WalPrepare)
  | recovery (txId : EventId) (recovery : MessageRecovery)
  | projection (txId : EventId) (record : SessionRecord)
  | commit (txId : EventId)
  deriving DecidableEq, Repr

def WalEventKind.toValue : WalEventKind → Value
  | contextCompactionStarted => ofObject [("kind", some (tag "context_compaction_started"))]
  | modelRequestCompleted terminal =>
    ofObject [("kind", some (tag "model_request_completed")), ("terminal", some (bool terminal))]
  | other => ofObject [("kind", some (tag "other"))]

def MessageRecovery.toValue : MessageRecovery → Value
  | inline message => ofObject [("kind", some (tag "inline")), ("message", some message.toValue)]
  | blob stored => ofObject [("kind", some (tag "blob")), ("blob", some stored.toValue)]

def WalPrepare.toValue (prepared : WalPrepare) : Value :=
  ofObject
    [("event_id", some (string prepared.eventId)),
      ("turn_id", some (nullable string prepared.turnId)),
      ("model_epoch", some (nullable ofNat prepared.modelEpoch)),
      ("kind", some prepared.kind.toValue),
      ("recovery", optional MessageRecovery.toValue prepared.recovery)]

def WalEntry.toValue : WalEntry → Value
  | prepare txId envelope =>
    ofObject
      [("op", some (tag "prepare")), ("tx_id", some (string txId)),
        ("envelope", some envelope.toValue)]
  | recovery txId payload =>
    ofObject
      [("op", some (tag "recovery")), ("tx_id", some (string txId)),
        ("recovery", some payload.toValue)]
  | projection txId record =>
    ofObject
      [("op", some (tag "projection")), ("tx_id", some (string txId)),
        ("record", some record.toValue)]
  | commit txId => ofObject [("op", some (tag "commit")), ("tx_id", some (string txId))]

/-- Intent writer for one session. -/
structure ProjectionWal where
  path : String
  writer : LineWriter
  redaction : RedactionPolicy

namespace ProjectionWal

/-- The line an append writes, or its refusal. -/
def encodeLine (wal : ProjectionWal) (entry : WalEntry) : Except StoreError Bytes :=
  let line := compactLine (wal.redaction.sanitize entry.toValue)
  if maxWalLineBytes < line.length then
    .error (.invalid ("projection WAL line exceeds the " ++ toString maxWalLineBytes ++
      "-byte bound"))
  else .ok line

/-- Append one entry. Every line is durable. -/
def append (wal : ProjectionWal) (entry : WalEntry) (outcome : WriteOutcome) :
    ProjectionWal × Except StoreError Unit :=
  match wal.encodeLine entry with
  | .error e => (wal, .error e)
  | .ok line =>
    let (writer, result) := wal.writer.writeLine line true outcome
    ({ wal with writer := writer }, result)

/-- What an append that succeeds wrote. -/
lemma encodeLine_of_append {wal : ProjectionWal} {entry : WalEntry} {outcome : WriteOutcome}
    (h : (wal.append entry outcome).2 = .ok ()) :
    wal.encodeLine entry = .ok (compactLine (wal.redaction.sanitize entry.toValue)) ∧
      (compactLine (wal.redaction.sanitize entry.toValue)).length ≤ maxWalLineBytes := by
  rw [append, encodeLine] at h
  rw [encodeLine]
  by_cases hlong : maxWalLineBytes <
      (compactLine (wal.redaction.sanitize entry.toValue)).length
  · simp [hlong] at h
  · exact ⟨by simp [hlong], not_lt.mp hlong⟩

end ProjectionWal

/-! ### Records of the session log -/

namespace SessionLog

/-- Writer of one session's semantic state. -/
structure Writer where
  path : String
  writer : LineWriter
  header : SessionHeader
  records : Nat
  redaction : RedactionPolicy

/-- `sanitize_record`: the record is redacted as a tree and read back. The reader's own
text is left out of the error. -/
def sanitizeRecord (record : SessionRecord) (policy : RedactionPolicy) :
    Except StoreError SessionRecord :=
  match SessionRecord.ofValue (policy.sanitize record.toValue) with
  | some sanitized => .ok sanitized
  | none => .error (.encode "sanitized record")

/-- `ensure_line_bound`: the line and its line break. -/
def ensureLineBound (path : String) (line : Bytes) : Except StoreError Unit :=
  ensure (line.length + 1 ≤ maxJsonlLineBytes)
    (.invalid (path ++ " record exceeds the " ++ toString maxJsonlLineBytes ++
      "-byte JSONL line bound"))

/-- The line an append writes, or its refusal. The keys of the line stand in map order
here and in declaration order there. -/
def encodeLine (log : Writer) (record : SessionRecord) : Except StoreError Bytes := do
  match record with
  | .header _ =>
    .error (.invalid "a session header is written exactly once, at creation")
  | _ => do
    let sanitized ← sanitizeRecord record log.redaction
    ensureLineBound log.path (compactLine sanitized.toValue)
    ensure (log.records < 2 ^ 64 - 1) (.invalid "session record count is exhausted")
    return compactLine sanitized.toValue

/-- Append one record. Session records are always durable. -/
def append (log : Writer) (record : SessionRecord) (outcome : WriteOutcome) :
    Writer × Except StoreError Unit :=
  match encodeLine log record with
  | .error e => (log, .error e)
  | .ok line =>
    match log.writer.writeLine line true outcome with
    | (writer, .ok ()) => ({ log with writer := writer, records := log.records + 1 }, .ok ())
    | (writer, .error e) => ({ log with writer := writer }, .error e)

/-- What an append that succeeds wrote. -/
lemma encodeLine_of_append {log : Writer} {record : SessionRecord} {outcome : WriteOutcome}
    (h : (append log record outcome).2 = .ok ()) :
    ∃ sanitized, sanitizeRecord record log.redaction = .ok sanitized ∧
      encodeLine log record = .ok (compactLine sanitized.toValue) ∧
      (compactLine sanitized.toValue).length + 1 ≤ maxJsonlLineBytes := by
  cases henc : encodeLine log record with
  | error e => simp [append, henc] at h
  | ok line =>
    cases record with
    | header header => simp [encodeLine] at henc
    | _ =>
      obtain ⟨sanitized, hsanitized, henc⟩ := bind_eq_ok.mp henc
      obtain ⟨⟨⟩, hbound, henc⟩ := bind_eq_ok.mp henc
      obtain ⟨⟨⟩, -, henc⟩ := bind_eq_ok.mp henc
      obtain rfl := Except.ok.inj henc
      exact ⟨sanitized, hsanitized, rfl, ensure_eq_ok.mp hbound⟩

end SessionLog

end Rupi
