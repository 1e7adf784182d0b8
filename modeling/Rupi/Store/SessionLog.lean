import Rupi.Core.Session
import Rupi.Lib.Fallible

/-!
The semantic session log and the state a resume rebuilds from it.

`restoreFromReport` reads the records in order and keeps the model-visible window:
a message is appended, a bounded compaction moves its summary in front of the
retained tail, a checkpoint barrier sets the window aside until its L3 completion
says which suffix survives, a reduction drains the front.

Counts of messages in memory stay below the bound of a `usize`, so the checked
additions of the source on such counts are plain additions here.
-/

namespace Rupi

open Fallible

/-- Current version of the session schema. -/
def sessionSchemaVersion : Nat := 3

/-- A report of one JSONL file: the decoded records and the number of lines that
did not decode. -/
structure ReadReport (α : Type) where
  items : List α
  malformed : Nat

/-- Session state needed to continue, reconstructed from one file. -/
structure RestoredSession where
  header : SessionHeader
  messages : List SessionMessage
  checkpoint : Option ContextCapsule
  checkpointSeq : Option EventSeq
  epochs : List SessionEpochRecord
  compactions : List SessionCompactionRecord
  reductions : List SessionReductionRecord
  contextEpoch : Nat
  summarizedMessages : Nat
  lastSeq : Option EventSeq
  malformedRecords : Nat
  totalRecords : Nat
  deriving DecidableEq

namespace SessionLog

/-- The locals of the restore loop. -/
structure Restoring where
  messages : List SessionMessage
  epochs : List SessionEpochRecord
  compactions : List SessionCompactionRecord
  reductions : List SessionReductionRecord
  checkpoint : Option ContextCapsule
  checkpointSeq : Option EventSeq
  /-- The window before a barrier whose L3 completion has not been read. -/
  preBarrier : Option (List SessionMessage)
  contextEpoch : Nat
  summarizedMessages : Nat
  lastSeq : Option EventSeq
  lastMessageSeq : Option EventSeq
  lastReductionSeq : Option EventSeq
  lastCompactionEpoch : Option Nat
  lastContextEpoch : Option Nat
  lastCheckpointEpoch : Option Nat
  seenCheckpointIds : List CheckpointId
  seenEventIds : List EventId
  deriving DecidableEq

def Restoring.start : Restoring :=
  ⟨[], [], [], [], none, none, none, 0, 0, none, none, none, none, none, none, [], []⟩

/-- `keep_max`. -/
def keepMax (last : Option EventSeq) (seq : EventSeq) : Option EventSeq :=
  some ((last.map (max · seq)).getD seq)

/-- Nothing recorded so far is as high. -/
def above (last : Option Nat) (n : Nat) : Bool := last.all (· < n)

variable (path : String)

/-- The checks a message and a reduction share: a new event id and, when it has
one, a sequence number above every earlier one. -/
def checkEvent (what : String) (s : Restoring) (eventId : EventId) (seq : Option EventSeq) :
    Except StoreError Unit := do
  ensure (eventId ∉ s.seenEventIds)
    (.invalid s!"{path} contains duplicate semantic event {eventId}")
  match seq with
  | none => .ok ()
  | some seq => do
    ensure (seq ≠ 0) (.invalid s!"{path} contains a zero {what} sequence at event {eventId}")
    ensure (above s.lastMessageSeq seq ∧ above s.lastReductionSeq seq)
      (.invalid s!"{path} contains a non-monotonic {what} sequence at event {eventId}")

/-- A barrier whose completion never came summarizes the whole window before it. -/
def Restoring.closePending (s : Restoring) : Restoring :=
  { s with
    preBarrier := none
    summarizedMessages := s.summarizedMessages + ((s.preBarrier.map List.length).getD 0) }

/-- A message joins the window. -/
def Restoring.push (s : Restoring) (message : SessionMessage) : Restoring :=
  { s with
    seenEventIds := message.eventId :: s.seenEventIds
    lastMessageSeq := message.seq.or s.lastMessageSeq
    lastSeq := (message.seq.map (keepMax s.lastSeq)).getD s.lastSeq
    messages := s.messages ++ [message] }

/-- A message closes a barrier that has no completion and joins the window. -/
def restoreMessage (s : Restoring) (message : SessionMessage) : Except StoreError Restoring := do
  checkEvent path "message" s.closePending message.eventId message.seq
  .ok (s.closePending.push message)

/-- The window without a summary that was staged and never published. -/
def Restoring.abort (s : Restoring) (compaction : SessionCompactionRecord) : Restoring :=
  { s with
    messages :=
      match compaction.summaryEventId with
      | some id => s.messages.filter fun message => message.eventId ≠ id
      | none => s.messages
    compactions := s.compactions ++ [compaction] }

/-- The marker of an aborted compaction takes its staged summary out again. -/
def restoreAborted (s : Restoring) (compaction : SessionCompactionRecord) :
    Except StoreError Restoring := do
  ensure
    (compaction.level ≠ .l3Checkpoint ∧ compaction.removedMessages = 0 ∧
      compaction.summaryPresent = false ∧ compaction.replacesFrom = none ∧
      compaction.replacesThrough = none)
    (.invalid s!"{path} contains an invalid aborted compaction marker")
  .ok (s.abort compaction)

/-- Canonical bounds are both missing, or a range of positive sequence numbers. -/
def boundsValid (compaction : SessionCompactionRecord) : Bool :=
  match compaction.replacesFrom, compaction.replacesThrough with
  | none, none => true
  | some start, some through => decide (0 < start ∧ start ≤ through)
  | _, _ => false

/-- The suffix of the window before a barrier that its checkpoint did not summarize. -/
def Restoring.keepSuffix (s : Restoring) (preBarrier : List SessionMessage) (removed : Nat) :
    Restoring :=
  { s with
    preBarrier := none
    summarizedMessages := s.summarizedMessages + removed
    messages := preBarrier.drop removed }

/-- The L3 completion of a checkpoint says how much of the window before the
barrier was summarized; the capsule counts as retained. -/
def closeCheckpoint (s : Restoring) (compaction : SessionCompactionRecord) :
    Except StoreError Restoring :=
  let epoch := compaction.contextEpoch
  match s.preBarrier with
  | none =>
    .error (.invalid s!"{path} checkpoint compaction epoch {epoch} has no preceding barrier")
  | some preBarrier => do
    ensure (compaction.summaryPresent = false)
      (.invalid s!"{path} checkpoint compaction epoch {epoch} cannot claim a summary")
    let removed := compaction.removedMessages
    let before := preBarrier.length
    ensure (removed ≤ before)
      (.invalid
        (s!"{path} checkpoint epoch {epoch} removes {removed} messages but only " ++
          s!"{before} precede its barrier"))
    let expected := before - removed + 1
    let claimed := compaction.retainedMessages
    ensure (claimed = expected)
      (.invalid
        (s!"{path} checkpoint epoch {epoch} claims {claimed} retained messages, expected " ++
          s!"{expected}"))
    .ok (s.keepSuffix preBarrier removed)

/-- The summary is the last message; it moves in front of the retained tail. -/
def placeSummary (s : Restoring) (compaction : SessionCompactionRecord) :
    Except StoreError Restoring :=
  let epoch := compaction.contextEpoch
  match s.messages.getLast? with
  | none =>
    .error (.invalid
      (s!"{path} compaction epoch {epoch} claims a summary but no summary message " ++
        "precedes it"))
  | some summary => do
    let messages := s.messages.dropLast
    let available := messages.length
    let retained := compaction.retainedMessages
    ensure (retained ≤ available)
      (.invalid
        (s!"{path} compaction epoch {epoch} claims {retained} retained messages but only " ++
          s!"{available} are available"))
    let expected := available - retained
    let claimed := compaction.removedMessages
    ensure (claimed = expected)
      (.invalid
        (s!"{path} compaction epoch {epoch} claims {claimed} removed messages, expected " ++
          s!"{expected}"))
    .ok { s with messages := summary :: messages.drop expected }

def closeIfCheckpoint (s : Restoring) (compaction : SessionCompactionRecord) :
    Except StoreError Restoring :=
  if compaction.level = .l3Checkpoint then closeCheckpoint path s compaction else .ok s

def placeIfSummary (s : Restoring) (compaction : SessionCompactionRecord) :
    Except StoreError Restoring :=
  if compaction.summaryPresent then placeSummary path s compaction else .ok s

/-- A compaction moves the epochs forward. -/
def Restoring.advanceEpoch (s : Restoring) (epoch : Nat) : Restoring :=
  { s with
    lastCompactionEpoch := some epoch
    lastContextEpoch := keepMax s.lastContextEpoch epoch
    contextEpoch := max s.contextEpoch epoch }

def Restoring.record (s : Restoring) (compaction : SessionCompactionRecord) : Restoring :=
  { s with compactions := s.compactions ++ [compaction] }

def restoreCompaction (s : Restoring) (compaction : SessionCompactionRecord) :
    Except StoreError Restoring :=
  if compaction.aborted then restoreAborted path s compaction
  else do
    let epoch := compaction.contextEpoch
    ensure (boundsValid compaction)
      (.invalid s!"{path} compaction epoch {epoch} has invalid canonical replacement bounds")
    ensure (epoch ≠ 0 ∧ above s.lastCompactionEpoch epoch)
      (.invalid s!"{path} contains non-monotonic compaction epoch {epoch}")
    ensure
      (compaction.level = .l3Checkpoint ∧ s.lastCheckpointEpoch = some epoch ∨
        above s.lastContextEpoch epoch)
      (.invalid s!"{path} reuses context epoch {epoch} outside its checkpoint boundary")
    let s := s.advanceEpoch epoch
    let s ← closeIfCheckpoint path s compaction
    placeIfSummary path (s.record compaction) compaction

/-- The window goes aside until the completion of its checkpoint is read. -/
def Restoring.setAside (s : Restoring) (barrier : SessionCheckpointRecord) : Restoring :=
  let epoch := barrier.contextEpoch
  { s with
    seenCheckpointIds := barrier.checkpointId :: s.seenCheckpointIds
    lastContextEpoch := if 0 < epoch then some epoch else s.lastContextEpoch
    lastCheckpointEpoch := if 0 < epoch then some epoch else s.lastCheckpointEpoch
    preBarrier := some s.messages
    checkpoint := some barrier.capsule
    checkpointSeq := s.lastSeq
    contextEpoch := max s.contextEpoch epoch
    messages := [] }

/-- A barrier sets the window aside and installs its capsule. -/
def restoreBarrier (s : Restoring) (barrier : SessionCheckpointRecord) :
    Except StoreError Restoring := do
  let epoch := barrier.contextEpoch
  let id := barrier.checkpointId
  ensure (id ∉ s.seenCheckpointIds)
    (.invalid s!"{path} contains duplicate checkpoint barrier {id}")
  if 0 < epoch then
    ensure (above s.lastContextEpoch epoch)
      (.invalid s!"{path} reuses checkpoint context epoch {epoch}")
  else
    ensure (s.lastContextEpoch = none)
      (.invalid
        s!"{path} contains a legacy zero checkpoint epoch after an epoch-bearing boundary")
  ensure (s.preBarrier = none)
    (.invalid s!"{path} contains a checkpoint barrier without a completion boundary")
  .ok (s.setAside barrier)

/-- The front of the window goes. -/
def Restoring.drain (s : Restoring) (reduction : SessionReductionRecord) : Restoring :=
  { s with
    seenEventIds := reduction.eventId :: s.seenEventIds
    lastReductionSeq := reduction.seq.or s.lastReductionSeq
    lastSeq := (reduction.seq.map (keepMax s.lastSeq)).getD s.lastSeq
    reductions := s.reductions ++ [reduction]
    messages := s.messages.drop reduction.removedMessages }

/-- A reduction drains the front of the window. With a checkpoint the declared
count includes the capsule message. -/
def restoreReduction (s : Restoring) (reduction : SessionReductionRecord) :
    Except StoreError Restoring := do
  let id := reduction.eventId
  ensure (reduction.removedMessages ≠ 0)
    (.invalid s!"{path} contains a zero-width reduction at event {id}")
  checkEvent path "reduction" s id reduction.seq
  let removed := reduction.removedMessages
  let available := s.messages.length
  ensure (removed ≤ available)
    (.invalid
      s!"{path} reduction {id} removes {removed} messages but only {available} are retained")
  let claimed := reduction.retainedMessages
  ensure (s.checkpoint.isSome → claimed ≠ 0)
    (.invalid s!"{path} reduction {id} omits its protected checkpoint message")
  let projected := if s.checkpoint.isSome then claimed - 1 else claimed
  let expected := available - removed
  ensure (projected = expected)
    (.invalid
      s!"{path} reduction {id} claims {claimed} retained messages, expected {expected}")
  .ok (s.drain reduction)

/-- One record of the log. -/
def restoreRecord (s : Restoring) : SessionRecord → Except StoreError Restoring
  | .message message => restoreMessage path s message
  | .epoch epoch => .ok { s with epochs := s.epochs ++ [epoch] }
  | .compaction compaction => restoreCompaction path s compaction
  | .checkpointBarrier barrier => restoreBarrier path s barrier
  | .reduction reduction => restoreReduction path s reduction
  | .header _ => .error (.invalid s!"{path} contains a second session header")

/-- `is_session_id`. -/
def isSessionId (id : SessionId) : Bool :=
  !id.isEmpty && decide (id.utf8ByteSize ≤ 64) &&
    id.toList.all fun c => c.isLower || c.isDigit || c == '-' || c == '_'

def validateHeader (header : SessionHeader) : Except StoreError Unit := do
  let version := header.version
  ensure (version ≠ 0) (.invalid s!"{path} uses unsupported session schema version 0")
  ensure (version ≤ sessionSchemaVersion)
    (.invalid
      (s!"{path} uses session schema version {version}, newer than this build supports " ++
        s!"({sessionSchemaVersion})"))
  ensure (isSessionId header.sessionId)
    (.invalid s!"session id {header.sessionId} is not a lowercase identifier")

/-- The header a log begins with. -/
def readHeader (records : List SessionRecord) : Except StoreError SessionHeader :=
  match records.head? with
  | some (.header header) => do
    validateHeader path header
    .ok header
  | some _ => .error (.invalid s!"{path} must begin with a session header")
  | none => .error (.invalid s!"{path} has no session header")

/-- The state at the end of the records, from the state of the loop. A barrier
that ends the log summarizes the whole window before it. -/
def Restoring.finish (s : Restoring) (header : SessionHeader)
    (report : ReadReport SessionRecord) : RestoredSession where
  header := header
  messages := s.messages
  checkpoint := s.checkpoint
  checkpointSeq := s.checkpointSeq
  epochs := s.epochs
  compactions := s.compactions
  reductions := s.reductions
  contextEpoch := s.contextEpoch
  summarizedMessages := s.summarizedMessages + ((s.preBarrier.map List.length).getD 0)
  lastSeq := s.lastSeq
  malformedRecords := report.malformed
  totalRecords := report.items.length

/-- `restore_from_report`. -/
def restoreFromReport (report : ReadReport SessionRecord) : Except StoreError RestoredSession := do
  let header ← readHeader path report.items
  let s ← scan (restoreRecord path) Restoring.start report.items.tail
  .ok (s.finish header report)

/-! ### What each record does to the state -/

/-- A new event id and a sequence number above every earlier one. -/
def Restoring.Admits (s : Restoring) (eventId : EventId) (seq : Option EventSeq) : Prop :=
  eventId ∉ s.seenEventIds ∧
    ∀ n ∈ seq, n ≠ 0 ∧ above s.lastMessageSeq n ∧ above s.lastReductionSeq n

variable {path}

lemma checkEvent_eq_ok {what : String} {s : Restoring} {eventId : EventId}
    {seq : Option EventSeq} {u : Unit} : checkEvent path what s eventId seq = .ok u ↔
      s.Admits eventId seq := by
  cases seq with
  | none => simp [checkEvent, bind_eq_ok, Restoring.Admits]
  | some n => simp [checkEvent, bind_eq_ok, Restoring.Admits]

lemma restoreMessage_eq_ok {s s' : Restoring} {message : SessionMessage} :
    restoreMessage path s message = .ok s' ↔
      s.closePending.Admits message.eventId message.seq ∧ s' = s.closePending.push message := by
  simp only [restoreMessage, bind_eq_ok, checkEvent_eq_ok, exists_const, Except.ok.injEq]
  rw [eq_comm]

lemma closeCheckpoint_eq_ok {s s' : Restoring} {compaction : SessionCompactionRecord} :
    closeCheckpoint path s compaction = .ok s' ↔
      ∃ preBarrier, s.preBarrier = some preBarrier ∧ compaction.summaryPresent = false ∧
        compaction.removedMessages ≤ preBarrier.length ∧
        compaction.retainedMessages = preBarrier.length - compaction.removedMessages + 1 ∧
        s' = s.keepSuffix preBarrier compaction.removedMessages := by
  unfold closeCheckpoint
  cases s.preBarrier with
  | none => simp
  | some preBarrier =>
    simp only [bind_eq_ok, ensure_eq_ok, exists_const, Option.some.injEq, exists_eq_left',
      Except.ok.injEq]
    constructor
    · rintro ⟨hsummary, hremoved, hretained, rfl⟩
      exact ⟨hsummary, hremoved, hretained, rfl⟩
    · rintro ⟨hsummary, hremoved, hretained, rfl⟩
      exact ⟨hsummary, hremoved, hretained, rfl⟩

lemma placeSummary_eq_ok {s s' : Restoring} {compaction : SessionCompactionRecord} :
    placeSummary path s compaction = .ok s' ↔
      ∃ summary, s.messages.getLast? = some summary ∧
        compaction.retainedMessages ≤ s.messages.length - 1 ∧
        compaction.removedMessages = s.messages.length - 1 - compaction.retainedMessages ∧
        s' = { s with
          messages := summary :: s.messages.dropLast.drop compaction.removedMessages } := by
  unfold placeSummary
  cases s.messages.getLast? with
  | none => simp
  | some summary =>
    simp only [bind_eq_ok, ensure_eq_ok, exists_const, List.length_dropLast, Option.some.injEq,
      exists_eq_left', Except.ok.injEq]
    constructor
    · rintro ⟨hle, hremoved, rfl⟩
      exact ⟨hle, hremoved, by rw [hremoved]⟩
    · rintro ⟨hle, hremoved, rfl⟩
      exact ⟨hle, hremoved, by rw [hremoved]⟩

lemma restoreAborted_eq_ok {s s' : Restoring} {compaction : SessionCompactionRecord} :
    restoreAborted path s compaction = .ok s' ↔
      (compaction.level ≠ .l3Checkpoint ∧ compaction.removedMessages = 0 ∧
        compaction.summaryPresent = false ∧ compaction.replacesFrom = none ∧
        compaction.replacesThrough = none) ∧ s' = s.abort compaction := by
  simp only [restoreAborted, bind_eq_ok, ensure_eq_ok, exists_const, Except.ok.injEq]
  rw [eq_comm (a := s')]

/-- A compaction that was not aborted passes the epoch checks, closes its
checkpoint if it is one, and places its summary if it has one. -/
lemma restoreCompaction_eq_ok {s s' : Restoring} {compaction : SessionCompactionRecord}
    (h : compaction.aborted = false) :
    restoreCompaction path s compaction = .ok s' ↔
      boundsValid compaction = true ∧
        (compaction.contextEpoch ≠ 0 ∧ above s.lastCompactionEpoch compaction.contextEpoch) ∧
        (compaction.level = .l3Checkpoint ∧ s.lastCheckpointEpoch = some compaction.contextEpoch ∨
          above s.lastContextEpoch compaction.contextEpoch) ∧
        ∃ m, closeIfCheckpoint path (s.advanceEpoch compaction.contextEpoch) compaction = .ok m ∧
          placeIfSummary path (m.record compaction) compaction = .ok s' := by
  simp only [restoreCompaction, h, Bool.false_eq_true, if_false, bind_eq_ok, ensure_eq_ok,
    exists_const]

lemma restoreBarrier_eq_ok {s s' : Restoring} {barrier : SessionCheckpointRecord} :
    restoreBarrier path s barrier = .ok s' ↔
      barrier.checkpointId ∉ s.seenCheckpointIds ∧
        (if 0 < barrier.contextEpoch then above s.lastContextEpoch barrier.contextEpoch = true
          else s.lastContextEpoch = none) ∧
        s.preBarrier = none ∧ s' = s.setAside barrier := by
  by_cases hepoch : 0 < barrier.contextEpoch
  · simp only [restoreBarrier, bind_eq_ok, ensure_eq_ok, exists_const, hepoch, if_true,
      Except.ok.injEq]
    rw [eq_comm (a := s')]
  · simp only [restoreBarrier, bind_eq_ok, ensure_eq_ok, exists_const, hepoch, if_false,
      Except.ok.injEq]
    rw [eq_comm (a := s')]

lemma restoreReduction_eq_ok {s s' : Restoring} {reduction : SessionReductionRecord} :
    restoreReduction path s reduction = .ok s' ↔
      reduction.removedMessages ≠ 0 ∧ s.Admits reduction.eventId reduction.seq ∧
        reduction.removedMessages ≤ s.messages.length ∧
        (s.checkpoint.isSome → reduction.retainedMessages ≠ 0) ∧
        (if s.checkpoint.isSome then reduction.retainedMessages - 1
          else reduction.retainedMessages) = s.messages.length - reduction.removedMessages ∧
        s' = s.drain reduction := by
  simp only [restoreReduction, bind_eq_ok, ensure_eq_ok, checkEvent_eq_ok, exists_const,
    Except.ok.injEq]
  rw [eq_comm (a := s')]

/-! ### Event ids of a log -/

/-- The event a record was introduced by. -/
def eventId? : SessionRecord → Option EventId
  | .message message => some message.eventId
  | .reduction reduction => some reduction.eventId
  | _ => none

lemma closeCheckpoint_seenEventIds {s s' : Restoring} {compaction : SessionCompactionRecord}
    (h : closeCheckpoint path s compaction = .ok s') : s'.seenEventIds = s.seenEventIds := by
  obtain ⟨_, -, -, -, -, rfl⟩ := closeCheckpoint_eq_ok.mp h
  rfl

lemma placeSummary_seenEventIds {s s' : Restoring} {compaction : SessionCompactionRecord}
    (h : placeSummary path s compaction = .ok s') : s'.seenEventIds = s.seenEventIds := by
  obtain ⟨_, -, -, -, rfl⟩ := placeSummary_eq_ok.mp h
  rfl

lemma restoreCompaction_seenEventIds {s s' : Restoring} {compaction : SessionCompactionRecord}
    (h : restoreCompaction path s compaction = .ok s') : s'.seenEventIds = s.seenEventIds := by
  cases hab : compaction.aborted with
  | true =>
    simp only [restoreCompaction, hab, if_true] at h
    obtain ⟨-, rfl⟩ := restoreAborted_eq_ok.mp h
    rfl
  | false =>
    obtain ⟨-, -, -, m, hclose, hplace⟩ := (restoreCompaction_eq_ok hab).mp h
    have hm : m.seenEventIds = s.seenEventIds := by
      unfold closeIfCheckpoint at hclose
      split at hclose
      · exact (closeCheckpoint_seenEventIds hclose).trans rfl
      · obtain rfl := Except.ok.inj hclose
        rfl
    unfold placeIfSummary at hplace
    split at hplace
    · exact (placeSummary_seenEventIds hplace).trans hm
    · obtain rfl := Except.ok.inj hplace
      exact hm

/-- A record is read only when its event is new. -/
lemma restoreRecord_seenEventIds {s s' : Restoring} {record : SessionRecord}
    (h : restoreRecord path s record = .ok s') :
    s'.seenEventIds = (eventId? record).toList ++ s.seenEventIds ∧
      ∀ id ∈ eventId? record, id ∉ s.seenEventIds := by
  cases record with
  | header => simp [restoreRecord] at h
  | message message =>
    obtain ⟨hadmits, rfl⟩ := restoreMessage_eq_ok.mp h
    have hnew : message.eventId ∉ s.seenEventIds := hadmits.1
    exact ⟨rfl, by simpa [eventId?] using hnew⟩
  | epoch epoch =>
    obtain rfl := Except.ok.inj h
    exact ⟨rfl, by simp [eventId?]⟩
  | compaction compaction =>
    exact ⟨restoreCompaction_seenEventIds h, by simp [eventId?]⟩
  | checkpointBarrier barrier =>
    obtain ⟨-, -, -, rfl⟩ := restoreBarrier_eq_ok.mp h
    exact ⟨rfl, by simp [eventId?]⟩
  | reduction reduction =>
    obtain ⟨-, hadmits, -, -, -, rfl⟩ := restoreReduction_eq_ok.mp h
    exact ⟨rfl, by simpa [eventId?] using hadmits.1⟩

lemma scan_restoreRecord_ids {s s' : Restoring} {records : List SessionRecord}
    (h : scan (restoreRecord path) s records = .ok s') :
    (records.filterMap eventId?).Nodup ∧
      ∀ id ∈ records.filterMap eventId?, id ∉ s.seenEventIds := by
  induction records generalizing s with
  | nil => simp
  | cons record records ih =>
    rw [scan_cons, bind_eq_ok] at h
    obtain ⟨m, hstep, hrest⟩ := h
    obtain ⟨hseen, hnew⟩ := restoreRecord_seenEventIds hstep
    obtain ⟨hnodup, hfresh⟩ := ih hrest
    rw [hseen] at hfresh
    cases hid : eventId? record with
    | none =>
      simp only [List.filterMap_cons, hid]
      exact ⟨hnodup, fun id hmem => by simpa [hid] using hfresh id hmem⟩
    | some id =>
      simp only [List.filterMap_cons, hid, List.nodup_cons, List.mem_cons, forall_eq_or_imp]
      refine ⟨⟨fun hmem => ?_, hnodup⟩, hnew id hid, fun other hmem => ?_⟩
      · exact hfresh id hmem (by simp [hid])
      · exact fun hseen => hfresh other hmem (by simp [hseen])

/-- A log that restores names every introducing event once. -/
theorem nodup_of_restoreFromReport {report : ReadReport SessionRecord}
    {restored : RestoredSession} (h : restoreFromReport path report = .ok restored) :
    (report.items.filterMap eventId?).Nodup := by
  obtain ⟨header, hheader, h⟩ := bind_eq_ok.mp h
  obtain ⟨s, hscan, -⟩ := bind_eq_ok.mp h
  have htail := (scan_restoreRecord_ids hscan).1
  unfold readHeader at hheader
  cases hitems : report.items with
  | nil => simp
  | cons first rest =>
    rw [hitems] at htail hheader
    cases first with
    | header h => exact htail
    | _ => simp at hheader

end SessionLog

end Rupi
