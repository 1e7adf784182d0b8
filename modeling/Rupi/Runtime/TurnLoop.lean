import Rupi.Core.EncodeMessage
import Rupi.Runtime.StoreTrace
import Rupi.Runtime.ToolOutcome

/-!
The turn loop's model-visible history and every operation that rewrites it.

The live window is a vector of messages with, beside it, the journal sequence of each;
behind a checkpoint its first message is the capsule, which no operation crosses.

- `emit`, `emitMessage`, `pushMessage`: events, messages, and the window they join.
- `evictOldest`: `evict_oldest_with_estimate`.
- `compactRange` and its callers `compact`, `compactPrefix`, `compactWithSummaryOr`,
  `compactPhase`, `compactTurnPrefix`, `compactCompletedTurnCycles`.
- `checkpoint`, `checkpointTurnPrefix`.
- `safeEvictionBoundary`, `safeCompletedCycleBoundary`: where a prefix may be cut.
-/

namespace Rupi

open Fallible

/-- Errors of a turn. -/
inductive TurnError where
  | refused (reason : String)
  | sink (message : String)
  deriving DecidableEq, Repr

/-- Largest value of a `u32`. -/
def u32Max : Nat := 2 ^ 32 - 1

/-- `u32::try_from`, with the error of the count that does not fit. -/
def asU32 (n : Nat) (error : String) : Except TurnError Nat :=
  if n ≤ u32Max then .ok n else .error (.sink error)

lemma asU32_eq_ok {n m : Nat} {error : String} :
    asU32 n error = .ok m ↔ n ≤ u32Max ∧ m = n := by
  unfold asU32
  split
  · simp [*, eq_comm]
  · simp [*]

/-- What a loop takes from around it: the identifiers it draws, the clock, the blobs of
its sink, the size estimate of a request and the configured summarizers. -/
structure Env where
  session : SessionId
  traceId : TraceId
  /-- The identifier of the n-th draw. -/
  fresh : Nat → String
  clock : Nat → Nat
  /-- A provider of the model is at hand. -/
  configured : ModelRef → Bool
  putPayload : List UInt8 → Option BlobRef
  /-- The estimate of the request that shows these messages; `true` counts the prompt
  alone. -/
  estimate : List Message → Bool → Nat
  /-- The estimate of messages alone. -/
  estimateMessages : List Message → Nat
  /-- The summary of a prefix. -/
  summarize : List Message → String
  /-- The summary of the completed cycles of a turn that goes on, with the reason. -/
  summarizeCycles : List Message → String → String

/-! ### Safe boundaries -/

/-- `safe_eviction_boundary`: the retained suffix begins at a user turn and the dropped
prefix does not end in a tool call. -/
def safeEvictionBoundary (messages : List Message) (start boundary limit : Nat) : Bool :=
  if boundary < start ∨ limit < boundary ∨ messages.length < boundary then false
  else if boundary = start then true
  else if messages[boundary]?.any (·.role != .user) then false
  else messages[boundary - 1]?.all fun previous => previous.toolCalls.isEmpty

/-- One message of the backward walk: the ids of results whose call has not been met,
and whether a tool message was. -/
structure CycleScan where
  results : List ToolCallId
  sawTool : Bool

/-- A tool message adds the ids of its results; all are terminal, known and new. -/
def CycleScan.addResults (s : CycleScan) : List ToolResultBlock → Option CycleScan
  | [] => some s
  | result :: results =>
    if result.state = .unknown ∨ ¬ result.state.isTerminal then none
    else if result.id ∈ s.results then none
    else ({ s with results := result.id :: s.results } : CycleScan).addResults results

/-- An assistant message takes out the ids of its calls; each has a result. -/
def CycleScan.removeCalls (s : CycleScan) : List ToolCallBlock → Option CycleScan
  | [] => some s
  | call :: calls =>
    if call.id ∈ s.results then
      ({ s with results := s.results.erase call.id } : CycleScan).removeCalls calls
    else none

/-- One message of the backward walk. -/
def CycleScan.step (s : CycleScan) (message : Message) : Option CycleScan :=
  match message.role with
  | .tool => ({ s with sawTool := true } : CycleScan).addResults message.toolResults
  | .assistant =>
    if message.toolCalls.isEmpty then some s
    else if s.sawTool then s.removeCalls message.toolCalls
    else none
  | .system | .user => some s

/-- The backward walk. -/
def CycleScan.walk (s : CycleScan) : List Message → Option CycleScan
  | [] => some s
  | message :: messages => (s.step message).bind fun s => s.walk messages

/-- `safe_completed_cycle_boundary`: the prefix ends in a tool message and every call
in it has its terminal result behind it. -/
def safeCompletedCycleBoundary (messages : List Message) (start boundary : Nat) : Bool :=
  if boundary ≤ start ∨ messages.length < boundary then false
  else if messages[boundary - 1]?.any (·.role != .tool) then false
  else
    let walked := ((messages.take boundary).drop start).reverse
    ((⟨[], false⟩ : CycleScan).walk walked).any (·.results.isEmpty)

/-! ### The loop -/

/-- The part of a turn loop that its history operations read and write. -/
structure TurnLoop where
  messages : List Message
  messageSeqs : List (Option EventSeq)
  checkpointFloor : Nat
  checkpointCitedFrom : Option EventSeq
  contextEpoch : Nat
  /-- Journal bounds of history that was inherited. -/
  history : Option (EventSeq × EventSeq)
  envelopes : List EventEnvelope
  epochIndex : Nat
  activeModel : ModelRef
  trace : StoreTrace
  /-- Identifiers drawn so far. -/
  issued : Nat

namespace TurnLoop

variable (env : Env)

/-! ### Events and messages -/

/-- `new_envelope_with_parent`. -/
def newEnvelope (loop : TurnLoop) (turnId : Option TurnId) (event : AgentEvent)
    (parent : Option EventId) : EventEnvelope where
  v := eventSchemaVersion
  eventMeta :=
    { eventId := env.fresh loop.issued
      sessionId := env.session
      turnId := turnId
      seq := none
      timestampMs := env.clock loop.issued
      modelEpoch := some loop.epochIndex
      model := some loop.activeModel
      toolCallId := none
      parentEventId := parent
      traceId := env.traceId
      spanId := env.fresh (loop.issued + 1) }
  event := event

/-- The loop after an envelope went out: two identifiers were drawn for it. -/
def sent (loop : TurnLoop) (trace : StoreTrace) (envelope : EventEnvelope) : TurnLoop :=
  { loop with
    trace := trace
    envelopes := loop.envelopes ++ [envelope]
    issued := loop.issued + 2 }

/-- `emit_with_parent`: the loop and the sequence number of the event. -/
def emit (loop : TurnLoop) (turnId : Option TurnId) (event : AgentEvent)
    (parent : Option EventId) : TurnLoop × EventSeq :=
  let envelope := loop.newEnvelope env turnId event parent
  (loop.sent (loop.trace.emit envelope) (loop.trace.stamp envelope), loop.trace.nextSeq)

/-- `emit_message_with_parent`. -/
def emitMessage (loop : TurnLoop) (turnId : TurnId) (event : AgentEvent) (message : Message)
    (parent : Option EventId) : Except TurnError (TurnLoop × EventSeq) :=
  let envelope := loop.newEnvelope env (some turnId) event parent
  match loop.trace.emitMessage envelope message with
  | .ok trace => .ok (loop.sent trace (loop.trace.stamp envelope), loop.trace.nextSeq)
  | .error _ => .error (.sink "message was not recorded")

/-- The window of one loop is that of another. -/
structure SameWindow (loop loop' : TurnLoop) : Prop where
  messages : loop'.messages = loop.messages
  messageSeqs : loop'.messageSeqs = loop.messageSeqs
  checkpointFloor : loop'.checkpointFloor = loop.checkpointFloor
  contextEpoch : loop'.contextEpoch = loop.contextEpoch

lemma SameWindow.trans {a b c : TurnLoop} (h : a.SameWindow b) (h' : b.SameWindow c) :
    a.SameWindow c :=
  ⟨h'.messages.trans h.messages, h'.messageSeqs.trans h.messageSeqs,
    h'.checkpointFloor.trans h.checkpointFloor, h'.contextEpoch.trans h.contextEpoch⟩

section Emission

variable (loop : TurnLoop)

/-- A trace line was written for the event, with the next number. -/
structure Writes (loop' : TurnLoop) (turnId : Option TurnId) (event : AgentEvent)
    (entry : TraceEntry) : Prop where
  entries : loop'.trace.entries = loop.trace.entries ++ [entry]
  nextSeq : loop'.trace.nextSeq = loop.trace.nextSeq + 1
  event_eq : entry.event = event
  turnId_eq : entry.turnId = turnId
  seq_eq : entry.seq = some loop.trace.nextSeq
  issued : loop'.issued = loop.issued + 2
  window : loop.SameWindow loop'

lemma emit_writes (turnId : Option TurnId) (event : AgentEvent) (parent : Option EventId) :
    loop.Writes (loop.emit env turnId event parent).1 turnId event
      (.ofEnvelope (loop.trace.stamp (loop.newEnvelope env turnId event parent))) where
  entries := StoreTrace.emit_entries
  nextSeq := StoreTrace.emit_nextSeq
  event_eq := rfl
  turnId_eq := rfl
  seq_eq := rfl
  issued := rfl
  window := ⟨rfl, rfl, rfl, rfl⟩

lemma emit_records (turnId : Option TurnId) (event : AgentEvent) (parent : Option EventId) :
    (loop.emit env turnId event parent).1.trace.records = loop.trace.records ++
      (loop.trace.projection (loop.newEnvelope env turnId event parent)).toList :=
  StoreTrace.emit_records

/-- A message of a turn is always recorded. -/
lemma emitMessage_writes (turnId : TurnId) (event : AgentEvent) (message : Message)
    (parent : Option EventId) :
    ∃ loop' record entry,
      loop.emitMessage env turnId event message parent = .ok (loop', loop.trace.nextSeq) ∧
      loop.Writes loop' (some turnId) event entry ∧
      loop'.trace.records = loop.trace.records ++ [.message record] ∧
      loop'.trace.pendingCompactionRange = loop.trace.pendingCompactionRange ∧
      (event = .contextSummary → loop'.trace.summaryPending = true) ∧
      record.message = message ∧ record.seq = some loop.trace.nextSeq ∧
      record.eventId = env.fresh loop.issued := by
  let envelope := loop.newEnvelope env (some turnId) event parent
  let record : SessionMessage :=
    ⟨turnId, message.role, message, loop.epochIndex, loop.activeModel, env.fresh loop.issued,
      some loop.trace.nextSeq, externalContextOf event⟩
  have hrecord : messageRecord envelope message loop.trace.nextSeq = .ok record :=
    messageRecord_eq_ok.mpr ⟨rfl, rfl, rfl, rfl, rfl, rfl, rfl, rfl⟩
  obtain ⟨trace, htrace⟩ : ∃ trace, loop.trace.emitMessage envelope message = .ok trace := by
    rw [StoreTrace.emitMessage, hrecord, ok_bind]
    split <;> exact ⟨_, rfl⟩
  obtain ⟨record', hrecord', hentries, hrecords, hlast, hrange, hpending⟩ :=
    StoreTrace.emitMessage_eq_ok htrace
  obtain rfl := Except.ok.inj (hrecord.symm.trans hrecord')
  refine ⟨loop.sent trace (loop.trace.stamp envelope), record,
    .ofEnvelope (loop.trace.stamp envelope), ?_, ?_, hrecords, hrange, hpending, rfl, rfl, rfl⟩
  · change (match loop.trace.emitMessage envelope message with
      | .ok trace =>
        Except.ok (loop.sent trace (loop.trace.stamp envelope), loop.trace.nextSeq)
      | .error _ => .error (TurnError.sink "message was not recorded")) = _
    rw [htrace]
  · refine ⟨hentries, ?_, rfl, rfl, rfl, rfl, ⟨rfl, rfl, rfl, rfl⟩⟩
    simp [sent, StoreTrace.nextSeq, hlast]

end Emission

/-- `push_message`. -/
def pushMessage (loop : TurnLoop) (message : Message) (seq : Option EventSeq) : TurnLoop :=
  { loop with
    messages := loop.messages ++ [message]
    messageSeqs := loop.messageSeqs ++ [seq] }

/-- A message is recorded with its event and joins the window. -/
def recordMessage (loop : TurnLoop) (turnId : TurnId) (event : AgentEvent) (message : Message)
    (parent : Option EventId) : Except TurnError TurnLoop := do
  let (loop, seq) ← loop.emitMessage env turnId event message parent
  .ok (loop.pushMessage message (some seq))

/-- `normalize_message_seqs`. -/
def normalizeMessageSeqs (loop : TurnLoop) : TurnLoop :=
  { loop with
    messageSeqs := (loop.messageSeqs ++
      List.replicate (loop.messages.length - loop.messageSeqs.length) none).take
        loop.messages.length }

/-- `next_context_epoch`. -/
def nextContextEpoch (loop : TurnLoop) : Except TurnError Nat :=
  if loop.contextEpoch = u32Max then .error (.sink "context epoch space is exhausted")
  else .ok (loop.contextEpoch + 1)

/-- The protected front of the window. -/
def protectedEnd (loop : TurnLoop) : Nat := min loop.checkpointFloor loop.messages.length

/-- `first_cited_seq`. -/
def firstCitedSeq (loop : TurnLoop) : EventSeq :=
  ((loop.checkpointCitedFrom.or (loop.history.map Prod.fst)).or
    ((loop.envelopes.findSome? (·.eventMeta.seq)).map fun seq =>
      if seq = 1 then seq else 0)).getD 0

/-- Replace a range of a vector. -/
def splice {α : Type} (items : List α) (start stop : Nat) (replacement : List α) : List α :=
  items.take start ++ replacement ++ items.drop stop

/-! ### Eviction -/

/-- `estimate_request_after_eviction`. -/
def estimateAfterEviction (loop : TurnLoop) (start dropped : Nat) (promptOnly : Bool) : Nat :=
  env.estimate (splice loop.messages start (start + dropped) []) promptOnly

/-- The first number of messages from `desired` on whose eviction is not over the
target, `left` more at most. -/
def desiredDrop (exceeds : Nat → Bool) : Nat → Nat → Nat
  | 0, desired => desired
  | left + 1, desired =>
    if exceeds desired then desiredDrop exceeds left (desired + 1) else desired

/-- How many messages an eviction drops. -/
def evictionCount (loop : TurnLoop) (target turnHistoryStart : Nat) (promptOnly : Bool) : Nat :=
  let start := loop.protectedEnd
  let stop := min (max (min turnHistoryStart loop.messages.length) start) loop.messages.length
  let maxDrop := stop - start
  let exceeds (dropped : Nat) : Bool :=
    decide (target < loop.estimateAfterEviction env start dropped promptOnly)
  let desired := desiredDrop exceeds maxDrop 0
  let safe (drop : Nat) : Bool := safeEvictionBoundary loop.messages start (start + drop) stop
  let lastSafe := ((List.range (desired + 1)).reverse.find? safe).getD 0
  if promptOnly then
    (((List.range (maxDrop + 1 - desired)).map (desired + ·)).find? fun drop =>
      safe drop && decide (loop.estimateAfterEviction env start drop true ≤ target)).getD lastSafe
  else lastSafe

lemma desiredDrop_le (exceeds : Nat → Bool) (left desired : Nat) :
    desiredDrop exceeds left desired ≤ desired + left := by
  induction left generalizing desired with
  | zero => exact le_rfl
  | succ left ih =>
    unfold desiredDrop
    split
    · exact le_trans (ih (desired + 1)) (by omega)
    · omega

/-- An eviction stays behind the protected front. -/
lemma evictionCount_le (loop : TurnLoop) (target turnHistoryStart : Nat) (promptOnly : Bool) :
    loop.evictionCount env target turnHistoryStart promptOnly ≤
      loop.messages.length - loop.protectedEnd := by
  unfold evictionCount
  extract_lets start stop maxDrop exceeds desired safe lastSafe
  have hmax : maxDrop ≤ loop.messages.length - start := by omega
  have hdesired : desired ≤ maxDrop := by
    have hle := desiredDrop_le exceeds maxDrop 0
    omega
  have hlast : lastSafe ≤ desired := by
    cases hfind : (List.range (desired + 1)).reverse.find? safe with
    | none => simp [lastSafe, hfind]
    | some drop =>
      have hmem := List.mem_of_find?_eq_some hfind
      rw [List.mem_reverse, List.mem_range] at hmem
      simp only [lastSafe, hfind, Option.getD_some]
      omega
  split
  · cases hfind : ((List.range (maxDrop + 1 - desired)).map (desired + ·)).find? fun drop =>
      safe drop && decide (loop.estimateAfterEviction env start drop true ≤ target) with
    | none => exact le_trans hlast (le_trans hdesired hmax)
    | some drop =>
      obtain ⟨k, hk, rfl⟩ := List.mem_map.mp (List.mem_of_find?_eq_some hfind)
      rw [List.mem_range] at hk
      simp only [Option.getD_some]
      omega
  · exact le_trans hlast (le_trans hdesired hmax)

/-- The event of an eviction: what left the window, and where the proof lives. -/
def evictionEvent (loop : TurnLoop) (target dropped droppedCount retainedCount : Nat) :
    ContextReduced :=
  let start := loop.protectedEnd
  let removed := (loop.messages.drop start).take dropped
  let blob := env.putPayload (compactLine (.array (removed.map Message.toValue)))
  { reason := .recentTargetExceeded target
    originalBytes := loop.estimateAfterEviction env 0 0 false
    visibleBytes := loop.estimateAfterEviction env start dropped false
    removedMessages := droppedCount
    retainedMessages := retainedCount
    blob := blob
    recoveryRef := blob.map BlobRef.recoveryRef
    toolCallId := none }

/-- `evict_oldest_with_estimate`: the loop, the number of messages dropped and the
start of the turn's own history. -/
def evictOldest (loop : TurnLoop) (turnId : TurnId) (target turnHistoryStart : Nat)
    (promptOnly : Bool) : Except TurnError (TurnLoop × Nat × Nat) :=
  let loop := loop.normalizeMessageSeqs
  let start := loop.protectedEnd
  let dropped := loop.evictionCount env target turnHistoryStart promptOnly
  if dropped = 0 then .ok (loop, 0, turnHistoryStart)
  else do
    let droppedCount ← asU32 dropped "eviction message count exceeds durable limit"
    let retainedCount ←
      asU32 (loop.messages.length - dropped) "retained message count exceeds durable limit"
    let reduced := loop.evictionEvent env target dropped droppedCount retainedCount
    let (loop, _) := loop.emit env (some turnId) (.contextReduced reduced) none
    let newStart := if start < turnHistoryStart then turnHistoryStart - dropped else turnHistoryStart
    .ok
      ({ loop with
          messages := splice loop.messages start (start + dropped) []
          messageSeqs := splice loop.messageSeqs start (start + dropped) [] },
        droppedCount, newStart)

/-! ### Compaction -/

/-- The sequence numbers of the messages a compaction replaces. -/
def replacedSeqs (loop : TurnLoop) (prefixEnd : Nat) : List (Option EventSeq) :=
  (loop.messageSeqs.take prefixEnd).drop loop.protectedEnd

/-- The range a compaction names: the first and the last known sequence number of the
messages it replaces. -/
def replacedRange (loop : TurnLoop) (prefixEnd : Nat) : EventSeq × EventSeq :=
  let seqs := loop.replacedSeqs prefixEnd
  let start := (seqs.findSome? id).getD loop.firstCitedSeq
  (start, (seqs.reverse.findSome? id).getD start)

/-- The four events of a compaction, in order; the sequence number is the summary's. -/
def emitCompaction (loop : TurnLoop) (turnId : TurnId) (summary : String) (level : ContextLevel)
    (reason : String) (range : EventSeq × EventSeq) (removed retained epoch : Nat) :
    Except TurnError (TurnLoop × EventSeq) := do
  let (loop, _) := loop.emit env (some turnId) (.contextCompactionStarted ⟨level, reason⟩) none
  let (loop, seq) ← loop.emitMessage env turnId .contextSummary (.user summary) none
  let blob := env.putPayload (utf8Bytes summary.toList)
  let (loop, _) := loop.emit env (some turnId)
    (.contextCompactionEpoch ⟨epoch, range.1, range.2, blob⟩) none
  let (loop, _) := loop.emit env (some turnId)
    (.contextCompactionCompleted ⟨level, removed, retained, epoch⟩) none
  .ok (loop, seq)

/-- The record of a compaction. -/
def compactionRecord (level : ContextLevel) (range : EventSeq × EventSeq)
    (removed retained epoch : Nat) : SessionCompactionRecord where
  contextEpoch := epoch
  level := level
  removedMessages := removed
  retainedFrom := 0
  retainedMessages := retained
  summaryPresent := true
  replacesFrom := some range.1
  replacesThrough := some range.2
  aborted := false
  startEventId := none
  summaryEventId := none

/-- The four trace lines of a compaction, the first with the number `next`. -/
structure CompactionLines (turnId : TurnId) (level : ContextLevel) (reason : String)
    (range : EventSeq × EventSeq) (removed retained epoch next : Nat)
    (started summary opened completed : TraceEntry) : Prop where
  started_event : started.event = .contextCompactionStarted ⟨level, reason⟩
  summary_event : summary.event = .contextSummary
  opened_event : ∃ blob, opened.event = .contextCompactionEpoch ⟨epoch, range.1, range.2, blob⟩
  completed_event :
    completed.event = .contextCompactionCompleted ⟨level, removed, retained, epoch⟩
  turnId_eq : ∀ line ∈ [started, summary, opened, completed], line.turnId = some turnId
  seq_eq : [started, summary, opened, completed].map TraceEntry.seq =
    [some next, some (next + 1), some (next + 2), some (next + 3)]

/-- A compaction of a summary level writes its four lines, its summary and its record. -/
lemma emitCompaction_writes (env : Env) (loop : TurnLoop) (turnId : TurnId) (summary : String)
    {level : ContextLevel} (hlevel : level = .l1Ordinary ∨ level = .l2Phase) (reason : String)
    (range : EventSeq × EventSeq) (removed retained epoch : Nat) :
    ∃ loop' record a b c d,
      loop.emitCompaction env turnId summary level reason range removed retained epoch =
        .ok (loop', loop.trace.nextSeq + 1) ∧
      loop'.trace.entries = loop.trace.entries ++ [a, b, c, d] ∧
      CompactionLines turnId level reason range removed retained epoch loop.trace.nextSeq
        a b c d ∧
      loop'.trace.records = loop.trace.records ++
        [.message record, .compaction (compactionRecord level range removed retained epoch)] ∧
      loop'.trace.nextSeq = loop.trace.nextSeq + 4 ∧ loop'.issued = loop.issued + 8 ∧
      loop.SameWindow loop' ∧ record.message = .user summary ∧
      record.seq = some (loop.trace.nextSeq + 1) ∧
      record.eventId = env.fresh (loop.issued + 2) := by
  let started : AgentEvent := .contextCompactionStarted ⟨level, reason⟩
  let loop1 := (loop.emit env (some turnId) started none).1
  have h1 : loop.Writes loop1 (some turnId) started _ := loop.emit_writes env (some turnId) _ _
  obtain ⟨loop2, record, b, hmessage, h2, hrecords, -, hpending, hcontent, hseq, hid⟩ :=
    loop1.emitMessage_writes env turnId .contextSummary (.user summary) none
  let opened : AgentEvent := .contextCompactionEpoch
    ⟨epoch, range.1, range.2, env.putPayload (utf8Bytes summary.toList)⟩
  let loop3 := (loop2.emit env (some turnId) opened none).1
  have h3 : loop2.Writes loop3 (some turnId) opened _ := loop2.emit_writes env (some turnId) _ _
  let completed : AgentEvent := .contextCompactionCompleted ⟨level, removed, retained, epoch⟩
  let loop4 := (loop3.emit env (some turnId) completed none).1
  have h4 : loop3.Writes loop4 (some turnId) completed _ := loop3.emit_writes env (some turnId) _ _
  have hrecords3 : loop3.trace.records = loop2.trace.records := by
    rw [emit_records]
    simp [StoreTrace.projection, newEnvelope, opened]
  have hrecords1 : loop1.trace.records = loop.trace.records := by
    rw [emit_records]
    simp [StoreTrace.projection, newEnvelope, started]
  have hsummary : loop3.trace.compactionRecord ⟨level, removed, retained, epoch⟩ =
      compactionRecord level range removed retained epoch := by
    have hpending3 : loop3.trace.summaryPending = true := hpending rfl
    have hrange3 : loop3.trace.pendingCompactionRange = some range := rfl
    rcases hlevel with rfl | rfl <;>
      simp [StoreTrace.compactionRecord, compactionRecord, hpending3, hrange3]
  have hnext1 : loop1.trace.nextSeq = loop.trace.nextSeq + 1 := h1.nextSeq
  refine ⟨loop4, record, _, b, _, _, ?_, ?_, ⟨h1.event_eq, h2.event_eq, ⟨_, h3.event_eq⟩,
    h4.event_eq, ?_, ?_⟩, ?_, ?_, ?_, ?_, hcontent, ?_, ?_⟩
  · rw [emitCompaction]
    change (loop1.emitMessage env turnId .contextSummary (.user summary) none >>= _) = _
    rw [hmessage, ok_bind, hnext1]
  · rw [h4.entries, h3.entries, h2.entries, h1.entries]
    simp
  · intro line hline
    simp only [List.mem_cons, List.not_mem_nil, or_false] at hline
    rcases hline with rfl | rfl | rfl | rfl
    · exact h1.turnId_eq
    · exact h2.turnId_eq
    · exact h3.turnId_eq
    · exact h4.turnId_eq
  · have hnext2 := h2.nextSeq
    have hnext3 := h3.nextSeq
    simp only [List.map_cons, List.map_nil, h1.seq_eq, h2.seq_eq, h3.seq_eq, h4.seq_eq]
    rw [hnext3, hnext2, hnext1]
  · rw [emit_records, hrecords3, hrecords, hrecords1]
    simp [StoreTrace.projection, newEnvelope, completed, hsummary]
  · rw [h4.nextSeq, h3.nextSeq, h2.nextSeq, h1.nextSeq]
  · rw [h4.issued, h3.issued, h2.issued, h1.issued]
  · exact ((h1.window.trans h2.window).trans h3.window).trans h4.window
  · rw [hseq, hnext1]
  · rw [hid, h1.issued]

/-- `compact_range`: the loop and the number of messages replaced. -/
def compactRange (loop : TurnLoop) (turnId : TurnId) (prefixEnd : Nat) (summary : String)
    (level : ContextLevel) (reason : String) : Except TurnError (TurnLoop × Nat) :=
  let prefixEnd := min prefixEnd loop.messages.length
  let loop := loop.normalizeMessageSeqs
  let start := loop.protectedEnd
  if prefixEnd ≤ start then .ok (loop, 0)
  else do
    let replaced ← asU32 (prefixEnd - start) "compacted message count exceeds durable limit"
    let retained ←
      asU32 (loop.messages.length - prefixEnd) "retained message count exceeds durable limit"
    let epoch ← loop.nextContextEpoch
    let (loop, seq) ← loop.emitCompaction env turnId summary level reason
      (loop.replacedRange prefixEnd) replaced retained epoch
    .ok
      ({ loop with
          messages := splice loop.messages start prefixEnd [.user summary]
          messageSeqs := splice loop.messageSeqs start prefixEnd [some seq]
          contextEpoch := epoch },
        replaced)

/-- `compact`. -/
def compact (loop : TurnLoop) (turnId : TurnId) (summary : String) (retained : Nat) :
    Except TurnError (TurnLoop × Nat) :=
  let kept := if loop.messages.isEmpty then 0 else min retained (loop.messages.length - 1)
  let removed := loop.messages.length - kept
  loop.compactRange env turnId removed summary .l1Ordinary s!"summarizing {removed} oldest messages"

/-- `compact_prefix`. -/
def compactPrefix (loop : TurnLoop) (turnId : TurnId) (prefixEnd : Nat) (summary : String) :
    Except TurnError (TurnLoop × Nat) :=
  let prefixEnd := min prefixEnd loop.messages.length
  loop.compactRange env turnId prefixEnd summary .l1Ordinary
    s!"summarizing {prefixEnd} oldest messages"

/-- The number of messages whose estimate stays within the target, from `kept` on. -/
def keptTail (loop : TurnLoop) (target : Nat) : Nat → Nat → Nat
  | 0, kept => kept
  | left + 1, kept =>
    if target < env.estimateMessages (loop.messages.drop (loop.messages.length - (kept + 1)))
    then kept
    else keptTail loop target left (kept + 1)

/-- `compact_with_summary_or`. -/
def compactWithSummaryOr (loop : TurnLoop) (turnId : TurnId) (target : Nat)
    (explicit : Option String) : Except TurnError (TurnLoop × Nat) :=
  let start := loop.protectedEnd
  let tail := loop.messages.length - start
  if tail ≤ 1 then .ok (loop, 0)
  else
    let kept := loop.keptTail env target (tail - 2) 1
    let prefixEnd := loop.messages.length - kept
    if prefixEnd ≤ start then .ok (loop, 0)
    else
      let summary := explicit.getD (env.summarize ((loop.messages.take prefixEnd).drop start))
      loop.compact env turnId summary kept

/-- `compact_phase`; `cooling` says that the last compaction is less than five seconds
old. -/
def compactPhase (loop : TurnLoop) (turnId : TurnId) (phase : String) (explicit : Option String)
    (force cooling : Bool) : Except TurnError (TurnLoop × Nat) :=
  if loop.messages.length ≤ 1 then .ok (loop, 0)
  else if !force && cooling then
    let text := s!"phase compaction '{phase}' deferred: cooldown active (use force to override)"
    .ok ((loop.emit env (some turnId) (.diagnostic .info text) none).1, 0)
  else
    let removed := loop.messages.length - 1
    let base := explicit.getD (env.summarize ((loop.messages.take removed).drop loop.protectedEnd))
    let summary := s!"[Phase Compaction: {phase}]\n{base}"
    loop.compactRange env turnId removed summary .l2Phase s!"semantic phase: {phase}"

/-- `compact_turn_prefix`: the new start of the turn's own history comes last. -/
def compactTurnPrefix (loop : TurnLoop) (turnId : TurnId) (turnHistoryStart : Nat)
    (level : ContextLevel) (reason : String) : Except TurnError (TurnLoop × Nat × Nat) :=
  let prefixEnd := min turnHistoryStart loop.messages.length
  let start := min loop.checkpointFloor prefixEnd
  if prefixEnd ≤ start then .ok (loop, 0, turnHistoryStart)
  else do
    let summary := env.summarize ((loop.messages.take prefixEnd).drop start)
    let (loop, removed) ← loop.compactRange env turnId prefixEnd summary level reason
    .ok (loop, removed, if 0 < removed then loop.checkpointFloor + 1 else turnHistoryStart)

/-- The last boundary behind complete cycles up to the first whose request fits the
target. -/
def selectCycles (loop : TurnLoop) (cycleStart target : Nat) (reason : String) :
    List Nat → Option (Nat × String) → Option (Nat × String)
  | [], selected => selected
  | boundary :: boundaries, selected =>
    if safeCompletedCycleBoundary loop.messages cycleStart boundary then
      let start := loop.protectedEnd
      let source := (loop.messages.take boundary).drop start
      let summary := env.summarizeCycles source reason
      let candidate := splice loop.messages start boundary [.user summary]
      if env.estimate candidate false ≤ target then some (boundary, summary)
      else selectCycles loop cycleStart target reason boundaries (some (boundary, summary))
    else selectCycles loop cycleStart target reason boundaries selected

/-- `compact_completed_turn_cycles`. -/
def compactCompletedTurnCycles (loop : TurnLoop) (turnId : TurnId) (turnHistoryStart target : Nat)
    (reason : String) : Except TurnError (TurnLoop × Nat × Nat) :=
  let cycleStart := min turnHistoryStart loop.messages.length
  if loop.messages.length ≤ cycleStart ∨ cycleStart < loop.protectedEnd then
    .ok (loop, 0, turnHistoryStart)
  else
    let boundaries := (List.range (loop.messages.length - cycleStart)).map (cycleStart + 1 + ·)
    match loop.selectCycles env cycleStart target reason boundaries none with
    | none => .ok (loop, 0, turnHistoryStart)
    | some (prefixEnd, summary) => do
      let (loop, replaced) ←
        loop.compactRange env turnId prefixEnd summary .l1Ordinary reason
      .ok (loop, replaced, if 0 < replaced then loop.checkpointFloor + 1 else turnHistoryStart)

/-! ### Checkpoints -/

/-- The capsule takes the place of everything in front of `stop`. -/
def installCapsule (loop : TurnLoop) (capsule : ContextCapsule) (stop epoch : Nat) : TurnLoop :=
  { loop with
    messages := .user capsule.formatForModel :: loop.messages.drop stop
    messageSeqs := none :: loop.messageSeqs.drop stop
    checkpointFloor := 1
    contextEpoch := epoch }

/-- The sink prepares the barrier of a capsule. -/
def prepareCheckpoint (loop : TurnLoop) (capsule : ContextCapsule) :
    TurnLoop × CheckpointId × String :=
  let (trace, id, path) := loop.trace.createCheckpoint (env.fresh loop.issued) capsule
  ({ loop with trace := trace, issued := loop.issued + 1 }, id, path)

/-- Emit the prepared barrier. -/
def emitBarrier (loop : TurnLoop) (turnId : TurnId) (created : CheckpointCreated) : TurnLoop :=
  let loop := { loop with trace := loop.trace.setCheckpointContextEpoch created.contextEpoch }
  let (loop, seq) := loop.emit env (some turnId) (.checkpointCreated created) none
  { loop with checkpointCitedFrom := some (seq + 1) }

section Barrier

variable (loop : TurnLoop)

@[simp] lemma prepareCheckpoint_messages (capsule : ContextCapsule) :
    (loop.prepareCheckpoint env capsule).1.messages = loop.messages := rfl

@[simp] lemma prepareCheckpoint_nextContextEpoch (capsule : ContextCapsule) :
    (loop.prepareCheckpoint env capsule).1.nextContextEpoch = loop.nextContextEpoch := rfl

@[simp] lemma emitBarrier_messages (turnId : TurnId) (created : CheckpointCreated) :
    (loop.emitBarrier env turnId created).messages = loop.messages := rfl

end Barrier

/-- The record of a barrier. -/
def barrierRecord (id : CheckpointId) (path : String) (capsule : ContextCapsule) (epoch : Nat) :
    SessionCheckpointRecord :=
  ⟨id, capsule.version, epoch, path, capsule⟩

/-- A barrier that was just prepared writes its line and its record. -/
lemma emitBarrier_writes (env : Env) (loop : TurnLoop) (turnId : TurnId) (capsule : ContextCapsule)
    (summarized epoch : Nat) :
    let prepared := loop.prepareCheckpoint env capsule
    let created : CheckpointCreated :=
      ⟨prepared.2.1, capsule.version, summarized, prepared.2.2, epoch⟩
    let loop' := prepared.1.emitBarrier env turnId created
    prepared.2.1 = env.fresh loop.issued ∧
      (∃ line, loop'.trace.entries = loop.trace.entries ++ [line] ∧
        line.event = .checkpointCreated created) ∧
      loop'.trace.records = loop.trace.records ++
        [.checkpointBarrier (barrierRecord prepared.2.1 prepared.2.2 capsule epoch)] ∧
      loop'.trace.nextSeq = loop.trace.nextSeq + 1 ∧ loop'.issued = loop.issued + 3 ∧
      loop.SameWindow loop' := by
  intro prepared created loop'
  have hwrites := ({ prepared.1 with
    trace := prepared.1.trace.setCheckpointContextEpoch epoch } : TurnLoop).emit_writes env
      (some turnId) (.checkpointCreated created) none
  refine ⟨rfl, ⟨_, hwrites.entries, rfl⟩, ?_, hwrites.nextSeq, rfl, ⟨rfl, rfl, rfl, rfl⟩⟩
  exact (emit_records env _ _ _ _).trans rfl

/-- The completion of a checkpoint writes its line and its record. -/
lemma emitCheckpointCompleted_writes (env : Env) (loop : TurnLoop) (turnId : TurnId)
    (removed retained epoch : Nat) :
    let completed : ContextCompactionCompleted := ⟨.l3Checkpoint, removed, retained, epoch⟩
    let loop' := (loop.emit env (some turnId) (.contextCompactionCompleted completed) none).1
    (∃ line, loop.Writes loop' (some turnId) (.contextCompactionCompleted completed) line) ∧
      loop'.trace.records = loop.trace.records ++
        [.compaction ⟨epoch, .l3Checkpoint, removed, 0, retained, false, none, none, false,
          none, none⟩] := by
  intro completed loop'
  refine ⟨⟨_, loop.emit_writes env (some turnId) _ _⟩, ?_⟩
  rw [emit_records]
  simp [StoreTrace.projection, newEnvelope, StoreTrace.compactionRecord, completed]

/-- `checkpoint`. The window is reset before the completion is emitted, and stays so
when its count does not fit. -/
def checkpoint (loop : TurnLoop) (turnId : TurnId) (capsule : ContextCapsule) :
    TurnLoop × Except TurnError CheckpointCreated :=
  let loop := loop.normalizeMessageSeqs
  let removed := loop.messages.length - loop.protectedEnd
  match loop.nextContextEpoch with
  | .error error => (loop, .error error)
  | .ok epoch =>
    let (loop, id, path) := loop.prepareCheckpoint env capsule
    let created : CheckpointCreated := ⟨id, capsule.version, removed, path, epoch⟩
    let loop := loop.emitBarrier env turnId created
    let loop := loop.installCapsule capsule loop.messages.length epoch
    match asU32 removed "checkpoint message count exceeds durable limit" with
    | .error error => (loop, .error error)
    | .ok removed =>
      ((loop.emit env (some turnId)
          (.contextCompactionCompleted ⟨.l3Checkpoint, removed, 1, epoch⟩) none).1,
        .ok created)

/-- `checkpoint_turn_prefix`: the checkpoint, if there was history to replace, and the
start of the turn's own history. -/
def checkpointTurnPrefix (loop : TurnLoop) (turnId : TurnId) (capsule : ContextCapsule)
    (turnHistoryStart : Nat) :
    TurnLoop × Except TurnError (Option CheckpointCreated × Nat) :=
  let loop := loop.normalizeMessageSeqs
  let prefixEnd := min turnHistoryStart loop.messages.length
  if prefixEnd = 0 ∨ 0 < loop.checkpointFloor ∧ prefixEnd ≤ 1 then
    (loop, .ok (none, turnHistoryStart))
  else
    let replaced := prefixEnd - min loop.checkpointFloor prefixEnd
    let (loop, id, path) := loop.prepareCheckpoint env capsule
    match loop.nextContextEpoch with
    | .error error => (loop, .error error)
    | .ok epoch =>
      let created : CheckpointCreated := ⟨id, capsule.version, replaced, path, epoch⟩
      let loop := loop.emitBarrier env turnId created
      let retained := loop.messages.length - prefixEnd + 1
      match asU32 replaced "checkpoint message count exceeds durable limit",
          asU32 retained "checkpoint message count exceeds durable limit" with
      | .ok replaced, .ok retained =>
        let loop := (loop.emit env (some turnId)
          (.contextCompactionCompleted ⟨.l3Checkpoint, replaced, retained, epoch⟩) none).1
        (loop.installCapsule capsule prefixEnd epoch, .ok (some created, 1))
      | .error error, _ => (loop, .error error)
      | .ok _, .error error => (loop, .error error)

end TurnLoop

end Rupi
