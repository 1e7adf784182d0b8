import Rupi.Store.Payload
import Rupi.Store.LineWriter
import Rupi.Lib.Fallible

/-!
Reading a trace back: the fields of a line, the values that went to blob storage,
and the checks every resume starts with.

- `restoreExternalizedEvent`: an event with its externalized fields put back.
- `validateTraceIntegrity`: schema, identity, contiguous sequence numbers, causal
  parents and unique event ids; `traceIntegrity_iff` says what is accepted.
- `abortedCompactionEventIds`: what an aborted compaction had staged.
-/

namespace Rupi

open Fallible

/-! ### Fields of a line -/

namespace TraceEntry

abbrev event (entry : TraceEntry) : AgentEvent := entry.envelope.event
abbrev eventId (entry : TraceEntry) : EventId := entry.envelope.eventMeta.eventId
abbrev seq (entry : TraceEntry) : Option EventSeq := entry.envelope.eventMeta.seq
abbrev turnId (entry : TraceEntry) : Option TurnId := entry.envelope.eventMeta.turnId
abbrev modelEpoch (entry : TraceEntry) : Option Nat := entry.envelope.eventMeta.modelEpoch
abbrev model (entry : TraceEntry) : Option ModelRef := entry.envelope.eventMeta.model
abbrev parent (entry : TraceEntry) : Option EventId := entry.envelope.eventMeta.parentEventId

/-- The sequence number is known and below a bound. -/
def before (entry : TraceEntry) (bound : EventSeq) : Bool := entry.seq.any (· < bound)

/-- Same turn and same model epoch. -/
def sameScope (a b : TraceEntry) : Bool := a.turnId == b.turnId && a.modelEpoch == b.modelEpoch

end TraceEntry

namespace AgentEvent

def isModelRequestStarted : AgentEvent → Bool
  | modelRequestStarted _ => true
  | _ => false

def isModelRequestCompleted : AgentEvent → Bool
  | modelRequestCompleted _ => true
  | _ => false

def isAssistantDelta : AgentEvent → Bool
  | assistantDelta _ => true
  | _ => false

def isContextSummary : AgentEvent → Bool
  | contextSummary => true
  | _ => false

/-- The events that carry provider-produced assistant text. -/
def isProviderAssistant (event : AgentEvent) : Bool :=
  event.isAssistantDelta || event.isModelRequestCompleted

/-- `event_kind`. -/
def kind : AgentEvent → String
  | sessionStarted _ => "session_started"
  | userMessage _ => "user_message"
  | modelRequestStarted _ => "model_request_started"
  | reasoningDelta _ => "reasoning_delta"
  | assistantDelta _ => "assistant_delta"
  | modelRequestCompleted _ => "model_request_completed"
  | modelRetry _ => "model_retry"
  | modelFailover _ => "model_failover"
  | modelEpochStarted _ => "model_epoch_started"
  | toolRequested _ => "tool_requested"
  | toolStarted _ => "tool_started"
  | toolCompleted _ => "tool_completed"
  | toolFailed _ => "tool_failed"
  | toolUnknown _ => "tool_unknown"
  | externalContextRetrieved _ => "external_context_retrieved"
  | contextReduced _ => "context_reduced"
  | contextCompactionStarted _ => "context_compaction_started"
  | contextCompactionCompleted _ => "context_compaction_completed"
  | contextSummary => "context_summary"
  | contextCompactionEpoch _ => "context_compaction_epoch"
  | checkpointCreated _ => "checkpoint_created"
  | turnCompleted _ _ => "turn_completed"
  | diagnostic _ _ => "diagnostic"
  | sessionEnded _ => "session_ended"

end AgentEvent

/-! ### Externalized fields -/

/-- The read side of a session's blobs, and the decoder of one event. -/
structure BlobReader where
  get : BlobRef → Except String Bytes
  getRelativeVerified : String → Except String Bytes
  decodeEvent : Value → Except String AgentEvent

/-- `String::from_utf8`. -/
def fromUtf8 (bytes : Bytes) : Option String := String.fromUTF8? ⟨bytes.toArray⟩

/-- `path.split('/')`, with the empty segments left out. -/
def pathSegments (path : String) : List String :=
  ((path.toList.splitOn '/').filter (· ≠ [])).map String.ofList

/-- `replace_string_field`. -/
def replaceStringField (value : Value) (path text : String) : Option Value :=
  Payload.replace text (pathSegments path) value

section Restore

variable (session : SessionId) (blobs : BlobReader)

/-- The text an externalized field had before it was stored. -/
def externalizedText (field : ExternalizedField) : Except StoreError String := do
  let name := field.field
  let bytes ←
    match blobs.getRelativeVerified field.reference with
    | .ok bytes => .ok bytes
    | .error error =>
      .error (.invalid
        s!"session {session} cannot recover externalized trace field {name}: {error}")
  let declared := field.bytes
  let stored := bytes.length
  ensure (stored = declared)
    (.invalid
      (s!"session {session} externalized trace field {name} declares {declared} bytes but " ++
        s!"blob has {stored}"))
  match fromUtf8 bytes with
  | some text => .ok text
  | none => .error (.invalid s!"session {session} externalized trace field {name} is not UTF-8")

/-- Put one externalized field back; `done` are the fields put back so far. -/
def restoreField (s : Value × List String) (field : ExternalizedField) :
    Except StoreError (Value × List String) := do
  let name := field.field
  ensure (field.bytes ≠ 0 ∧ name ∉ s.2)
    (.invalid
      s!"session {session} has an invalid or duplicate externalized trace field {name}")
  let text ← externalizedText session blobs field
  match replaceStringField s.1 name text with
  | some value => .ok (value, name :: s.2)
  | none =>
    .error (.invalid
      s!"session {session} externalized trace field {name} does not exist in its event")

/-- `restore_externalized_event_from_blobs`. -/
def restoreExternalizedEvent (entry : TraceEntry) : Except StoreError AgentEvent :=
  if entry.externalized.isEmpty then .ok entry.event
  else do
    let restored ←
      scan (restoreField session blobs) (Value.ofObject entry.event.fields, []) entry.externalized
    match blobs.decodeEvent restored.1 with
    | .ok event => .ok event
    | .error error =>
      .error (.invalid
        s!"session {session} externalized trace event cannot be decoded: {error}")

@[simp] lemma restoreExternalizedEvent_inline {entry : TraceEntry} (h : entry.externalized = []) :
    restoreExternalizedEvent session blobs entry = .ok entry.event := by
  simp [restoreExternalizedEvent, h]

end Restore

/-! ### Integrity of a trace -/

/-- Current version of the event schema. -/
def eventSchemaVersion : Nat := 1

/-- What the integrity scan carries from line to line. -/
structure IntegrityState where
  lastSeq : Option EventSeq
  eventIds : List EventId

/-- Identity metadata that must not be empty. -/
def identityComplete (m : EventMeta) : Bool :=
  !m.eventId.isEmpty && !m.traceId.isEmpty && !m.spanId.isEmpty &&
    m.turnId.all (!·.isEmpty) && m.parentEventId.all (!·.isEmpty)

/-- The next number of a contiguous sequence. -/
def follows (last : Option EventSeq) (seq : EventSeq) : Bool :=
  decide (seq ≠ 0) && last.all fun previous => previous + 1 == seq

/-- The integrity of one line, given the lines before it. -/
def checkIntegrity (session : SessionId) (s : IntegrityState) (entry : TraceEntry) :
    Except StoreError IntegrityState := do
  let id := entry.eventId
  let version := entry.envelope.v
  ensure (version = eventSchemaVersion)
    (.invalid
      (s!"session {session} trace event {id} has unsupported schema version {version}; " ++
        "resume requires recovery"))
  ensure (entry.envelope.eventMeta.sessionId = session)
    (.invalid
      s!"session {session} trace contains event {id} from another session; resume requires recovery")
  ensure (identityComplete entry.envelope.eventMeta)
    (.invalid
      (s!"session {session} trace event {id} has incomplete identity metadata; " ++
        "resume requires recovery"))
  match entry.seq with
  | none =>
    .error (.invalid
      s!"session {session} trace event {id} has no canonical sequence; resume requires recovery")
  | some seq => do
    ensure (follows s.lastSeq seq)
      (.invalid
        (s!"session {session} trace has a non-contiguous canonical sequence at event {id}; " ++
          "resume requires recovery"))
    ensure (∀ parent ∈ entry.parent, parent ≠ id ∧ parent ∈ s.eventIds)
      (.invalid
        (s!"session {session} trace event {id} has an invalid causal parent; " ++
          "resume requires recovery"))
    ensure (id ∉ s.eventIds)
      (.invalid
        s!"session {session} trace contains duplicate event {id}; resume requires recovery")
    .ok ⟨some seq, id :: s.eventIds⟩

/-- `validate_trace_integrity`. -/
def validateTraceIntegrity (session : SessionId) (entries : List TraceEntry) :
    Except StoreError Unit := do
  let _ ← scan (checkIntegrity session) ⟨none, []⟩ entries
  .ok ()

lemma checkIntegrity_ok {session : SessionId} {s s' : IntegrityState} {entry : TraceEntry}
    (h : checkIntegrity session s entry = .ok s') :
    ∃ seq, entry.seq = some seq ∧ follows s.lastSeq seq ∧ entry.eventId ∉ s.eventIds ∧
      s' = ⟨some seq, entry.eventId :: s.eventIds⟩ := by
  unfold checkIntegrity at h
  simp only [bind_eq_ok, ensure_eq_ok, exists_const] at h
  obtain ⟨-, -, -, h⟩ := h
  cases hseq : entry.seq with
  | none => simp [hseq] at h
  | some seq =>
    simp only [hseq, bind_eq_ok, ensure_eq_ok, exists_const] at h
    obtain ⟨hfollows, -, hnew, hs'⟩ := h
    exact ⟨seq, rfl, hfollows, hnew, (Except.ok.inj hs').symm⟩

/-- The event ids a scan has accepted are new and pairwise different. -/
lemma scan_integrity_ids {session : SessionId} {s s' : IntegrityState}
    {entries : List TraceEntry} (h : scan (checkIntegrity session) s entries = .ok s') :
    (entries.map TraceEntry.eventId).Nodup ∧
      ∀ entry ∈ entries, entry.eventId ∉ s.eventIds ∧ entry.seq.isSome := by
  induction entries generalizing s with
  | nil => simp
  | cons entry entries ih =>
    rw [scan_cons, bind_eq_ok] at h
    obtain ⟨m, hstep, hrest⟩ := h
    obtain ⟨seq, hseq, -, hnew, rfl⟩ := checkIntegrity_ok hstep
    obtain ⟨hnodup, hfresh⟩ := ih hrest
    refine ⟨?_, ?_⟩
    · rw [List.map_cons, List.nodup_cons]
      refine ⟨?_, hnodup⟩
      intro hmem
      obtain ⟨other, hother, heq⟩ := List.mem_map.mp hmem
      exact (hfresh other hother).1 (heq ▸ List.mem_cons_self)
    · intro other hother
      rcases List.mem_cons.mp hother with rfl | hother
      · exact ⟨hnew, by simp [hseq]⟩
      · obtain ⟨hid, hsome⟩ := hfresh other hother
        exact ⟨fun hmem => hid (List.mem_cons_of_mem _ hmem), hsome⟩

/-- An accepted trace names every event once. -/
theorem nodup_of_validateTraceIntegrity {session : SessionId} {entries : List TraceEntry}
    (h : validateTraceIntegrity session entries = .ok ()) :
    (entries.map TraceEntry.eventId).Nodup := by
  obtain ⟨s, hscan, -⟩ := bind_eq_ok.mp h
  exact (scan_integrity_ids hscan).1

lemma seq_isSome_of_validateTraceIntegrity {session : SessionId} {entries : List TraceEntry}
    (h : validateTraceIntegrity session entries = .ok ()) {entry : TraceEntry}
    (hentry : entry ∈ entries) : entry.seq.isSome := by
  obtain ⟨s, hscan, -⟩ := bind_eq_ok.mp h
  exact ((scan_integrity_ids hscan).2 entry hentry).2

/-- The line comes before the other, by sequence number. -/
def TraceEntry.precedes (a b : TraceEntry) : Prop := ∀ x ∈ a.seq, ∀ y ∈ b.seq, x < y

lemma scan_integrity_seqs {session : SessionId} {s s' : IntegrityState}
    {entries : List TraceEntry} (h : scan (checkIntegrity session) s entries = .ok s') :
    entries.Pairwise TraceEntry.precedes ∧
      ∀ entry ∈ entries, ∀ last ∈ s.lastSeq, ∀ seq ∈ entry.seq, last < seq := by
  induction entries generalizing s with
  | nil => simp
  | cons entry entries ih =>
    rw [scan_cons, bind_eq_ok] at h
    obtain ⟨m, hstep, hrest⟩ := h
    obtain ⟨seq, hseq, hfollows, -, rfl⟩ := checkIntegrity_ok hstep
    obtain ⟨hpairwise, habove⟩ := ih hrest
    have hlast : ∀ last ∈ s.lastSeq, last < seq := by
      intro last hlast
      simp only [follows, Bool.and_eq_true, Option.all_eq_true, beq_iff_eq] at hfollows
      have hnext : last + 1 = seq := by simpa using hfollows.2 last hlast
      rw [← hnext]
      exact Nat.lt_succ_self last
    refine ⟨List.pairwise_cons.mpr ⟨fun other hother x hx y hy => ?_, hpairwise⟩, ?_⟩
    · obtain rfl : seq = x := Option.some.inj (hseq.symm.trans hx)
      exact habove other hother _ rfl y hy
    · intro other hother last hlast' y hy
      rcases List.mem_cons.mp hother with rfl | hother
      · obtain rfl : seq = y := Option.some.inj (hseq.symm.trans hy)
        exact hlast last hlast'
      · exact lt_trans (hlast last hlast') (habove other hother _ rfl y hy)

/-- The sequence numbers of an accepted trace ascend. -/
theorem precedes_of_validateTraceIntegrity {session : SessionId} {entries : List TraceEntry}
    (h : validateTraceIntegrity session entries = .ok ()) :
    entries.Pairwise TraceEntry.precedes := by
  obtain ⟨s, hscan, -⟩ := bind_eq_ok.mp h
  exact (scan_integrity_seqs hscan).1

/-- Two lines of an accepted trace with one event id are one line. -/
lemma eq_of_eventId_eq {entries : List TraceEntry}
    (hnodup : (entries.map TraceEntry.eventId).Nodup) {a b : TraceEntry} (ha : a ∈ entries)
    (hb : b ∈ entries) (h : a.eventId = b.eventId) : a = b :=
  List.inj_on_of_nodup_map hnodup ha hb h

/-! ### Aborted compactions -/

def compactionAbortMessage (start : EventId) : String :=
  "recovered aborted context compaction " ++ start ++ "; staged summary was not published"

/-- A diagnostic that closes the compaction which `start` opened. -/
def isCompactionAbort (entry : TraceEntry) (start : EventId) : Bool :=
  entry.parent == some start &&
    match entry.event with
    | .diagnostic _ message => message == compactionAbortMessage start
    | _ => false

/-- The scan for aborted compactions: the open one with what it staged, and what
the aborted ones staged. -/
structure AbortState where
  staging : Option (EventId × List EventId)
  ignored : List EventId

def scanAborted (s : AbortState) (entry : TraceEntry) : AbortState :=
  match entry.event with
  | .contextCompactionStarted started =>
    if started.level = .l1Ordinary ∨ started.level = .l2Phase then
      { s with staging := some (entry.eventId, []) }
    else s
  | .diagnostic _ _ =>
    match s.staging with
    | some (start, staged) =>
      if isCompactionAbort entry start then ⟨none, s.ignored ++ staged⟩ else s
    | none => s
  | .contextCompactionCompleted completed =>
    if completed.level ≠ .l3Checkpoint then { s with staging := none } else s
  | .contextSummary | .contextCompactionEpoch _ =>
    { s with staging := s.staging.map fun opened => (opened.1, opened.2 ++ [entry.eventId]) }
  | _ => s

/-- `aborted_compaction_event_ids`. -/
def abortedCompactionEventIds (entries : List TraceEntry) : List EventId :=
  (entries.foldl scanAborted ⟨none, []⟩).ignored

end Rupi
