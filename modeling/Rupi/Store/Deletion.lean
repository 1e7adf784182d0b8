import Rupi.Store.Alignment
import Rupi.Store.SessionLog

/-!
What the alignment notices when one message record is lost.

- `NeedsRecord`: the events whose own message record is looked for.
- `LossReported`: when the loss of a record is reported: its event is looked for,
  or it was the last provider-introduced answer of the session while some request
  expects one, or it was the summary of a bounded compaction.
- **`lost_message_reported_iff`**: exactly these losses are reported.
- `lost_answer_accepted`: a session that is still accepted without an answer.
-/

namespace Rupi

open Fallible SessionLog

/-- The event's own message record is looked for. -/
def NeedsRecord (entries : List TraceEntry) (entry : TraceEntry) : Prop :=
  match entry.event with
  | .userMessage _ | .externalContextRetrieved _ | .toolCompleted _ => True
  | .contextSummary => entry.eventId ∉ abortedCompactionEventIds entries
  | .toolFailed failed => startedBefore entries entry failed.callId
  | .toolUnknown unknown => startedBefore entries entry unknown.callId
  | _ => False

/-- The loss of the message `m` is reported: `records` held it, `others` is what
is left, and `entry` introduced it. -/
def LossReported (entries : List TraceEntry) (records others : List SessionRecord)
    (m : SessionMessage) (entry : TraceEntry) : Prop :=
  NeedsRecord entries entry ∨
    ((∃ e ∈ entries, expectsAssistant entries e) ∧ hasProviderMessage entries others = false) ∨
    ∃ c ∈ scopedCompactions records, precedingMessage records c = some m

section Loss

variable {session : SessionId} {blobs : BlobReader} {entries : List TraceEntry}
  {front back : List SessionRecord} {m : SessionMessage}

/-! ### What a lost record leaves alone -/

lemma scopedCompactions_lost :
    scopedCompactions (front ++ .message m :: back) = scopedCompactions (front ++ back) := by
  simp [scopedCompactions, List.filterMap_cons, SessionRecord.compaction?]

lemma linkedReductions_lost :
    (linkedRecords (front ++ .message m :: back)).filterMap SessionRecord.reduction? =
      (linkedRecords (front ++ back)).filterMap SessionRecord.reduction? := by
  by_cases hseq : m.seq.isSome
  · simp [linkedRecords, List.filterMap_cons, SessionRecord.linkedSeq, SessionRecord.reduction?,
      hseq]
  · simp [linkedRecords, SessionRecord.linkedSeq, hseq]

lemma any_lost {p : SessionRecord → Bool} (hp : p (.message m) = false) :
    (front ++ .message m :: back).any p = (front ++ back).any p := by
  simp [hp]

lemma checkReduction_lost {entry : TraceEntry} {reduced : ContextReduced} :
    checkReduction session (front ++ .message m :: back) entry reduced =
      checkReduction session (front ++ back) entry reduced := by
  unfold checkReduction
  rw [linkedReductions_lost]

lemma mem_linked_of_lost {record : SessionRecord} (h : record ∈ linkedRecords (front ++ back)) :
    record ∈ linkedRecords (front ++ .message m :: back) := by
  simp only [linkedRecords, List.mem_filter, List.mem_append, List.mem_cons] at h ⊢
  tauto

lemma hasMessage_lost_ne {id : EventId} (hid : id ≠ m.eventId) :
    hasMessage (front ++ .message m :: back) id = hasMessage (front ++ back) id := by
  have hm : (SessionRecord.message m).isMessageOf id = false := by
    simp [SessionRecord.isMessageOf, SessionRecord.message?, Ne.symm hid]
  by_cases hseq : m.seq.isSome
  · simp [hasMessage, linkedRecords, SessionRecord.linkedSeq, hseq, hm]
  · simp [hasMessage, linkedRecords, SessionRecord.linkedSeq, hseq]

/-! ### The lost record itself -/

/-- No other record of the log was introduced by the same event. -/
lemma isMessageOf_lost
    (hnodup : ((front ++ .message m :: back).filterMap eventId?).Nodup) {record : SessionRecord}
    (h : record ∈ front ++ back) : record.isMessageOf m.eventId = false := by
  rw [List.filterMap_append, List.filterMap_cons] at hnodup
  have hm : eventId? (.message m) = some m.eventId := rfl
  simp only [hm] at hnodup
  have hnew := (List.nodup_middle.mp hnodup)
  rw [List.nodup_cons] at hnew
  cases record with
  | message other =>
    by_contra hsame
    have heq : other.eventId = m.eventId := by
      simpa [SessionRecord.isMessageOf, SessionRecord.message?] using hsame
    refine hnew.1 ?_
    rw [← List.filterMap_append, List.mem_filterMap]
    exact ⟨.message other, h, congrArg some heq⟩
  | _ => rfl

lemma hasMessage_lost_self
    (hnodup : ((front ++ .message m :: back).filterMap eventId?).Nodup) :
    hasMessage (front ++ back) m.eventId = false := by
  rw [hasMessage, List.any_eq_false]
  intro record hrecord
  have hmem : record ∈ front ++ back := List.mem_of_mem_filter hrecord
  simp [isMessageOf_lost hnodup hmem]

/-- The first loop after the loss: an event that is looked for is missing, and a
request that expects an answer looks for one among the other records. -/
lemma checkEntry_lost
    (hnodup : ((front ++ .message m :: back).filterMap eventId?).Nodup) {entry : TraceEntry}
    (h : checkEntry session entries (front ++ .message m :: back) entry = .ok ()) :
    checkEntry session entries (front ++ back) entry = .ok () ↔
      (entry.eventId = m.eventId → ¬ NeedsRecord entries entry) ∧
        (expectsAssistant entries entry → hasProviderMessage entries (front ++ back)) := by
  have hself := hasMessage_lost_self hnodup
  have hmessage : ∀ id, hasMessage (front ++ .message m :: back) id = true →
      (hasMessage (front ++ back) id = true ↔ id ≠ m.eventId) := by
    intro id hfull
    constructor
    · rintro hrest rfl
      rw [hself] at hrest
      cases hrest
    · intro hne
      rwa [← hasMessage_lost_ne hne]
  unfold checkEntry NeedsRecord expectsAssistant at *
  cases hevent : entry.event with
  | contextSummary =>
    simp only [hevent, ensure_eq_ok] at h ⊢
    by_cases haborted : entry.eventId ∈ abortedCompactionEventIds entries
    · simp [haborted]
    · simp only [haborted, false_or] at h
      simp [haborted, hmessage _ h]
  | userMessage =>
    simp only [hevent, ensure_eq_ok] at h ⊢
    simp [hmessage _ h]
  | externalContextRetrieved =>
    simp only [hevent, ensure_eq_ok] at h ⊢
    simp [hmessage _ h]
  | toolCompleted =>
    simp only [hevent, ensure_eq_ok] at h ⊢
    simp [hmessage _ h]
  | toolFailed failed =>
    simp only [hevent, ensure_eq_ok] at h ⊢
    by_cases hstarted : startedBefore entries entry failed.callId = true
    · simp [hstarted, hmessage _ (h hstarted)]
    · simp [hstarted]
  | toolUnknown unknown =>
    simp only [hevent, ensure_eq_ok] at h ⊢
    by_cases hstarted : startedBefore entries entry unknown.callId = true
    · simp [hstarted, hmessage _ (h hstarted)]
    · simp [hstarted]
  | contextReduced reduced =>
    simp only [hevent] at h ⊢
    rw [checkReduction_lost] at h
    exact iff_of_true h (by simp)
  | contextCompactionEpoch epoch =>
    simp only [hevent, ensure_eq_ok] at h ⊢
    rw [scopedCompactions_lost] at h
    exact iff_of_true h (by simp)
  | contextCompactionCompleted completed =>
    simp only [hevent, ensure_eq_ok] at h ⊢
    rw [any_lost rfl] at h
    exact iff_of_true h (by simp)
  | modelEpochStarted started =>
    simp only [hevent, bind_eq_ok, ensure_eq_ok, exists_const] at h ⊢
    rw [any_lost rfl] at h
    exact iff_of_true h (by simp)
  | checkpointCreated created =>
    simp only [hevent, ensure_eq_ok] at h ⊢
    rw [any_lost rfl] at h
    exact iff_of_true h (by simp)
  | modelRequestCompleted completed => simp
  | _ => simp

/-! ### The record in front of a compaction -/

lemma predecessor_mem {p : SessionRecord → Bool} {previous : Option SessionRecord}
    {records : List SessionRecord} {record : SessionRecord}
    (h : predecessor p previous records = some record) :
    record ∈ records ∨ previous = some record := by
  induction records generalizing previous with
  | nil => simp [predecessor] at h
  | cons first rest ih =>
    by_cases hp : p first
    · simp only [predecessor, hp, if_true] at h
      exact .inr h
    · simp only [predecessor, hp] at h
      rcases ih h with hmem | hprev
      · exact .inl (List.mem_cons_of_mem _ hmem)
      · obtain rfl := Option.some.inj hprev
        exact .inl List.mem_cons_self

/-- Losing a record that is not in front of the first match changes nothing. -/
lemma predecessor_lost {p : SessionRecord → Bool} (hp : p (.message m) = false)
    (previous : Option SessionRecord) :
    predecessor p previous (front ++ .message m :: back) = some (.message m) ∨
      predecessor p previous (front ++ .message m :: back) =
        predecessor p previous (front ++ back) := by
  induction front generalizing previous with
  | nil =>
    cases back with
    | nil => simp [predecessor, hp]
    | cons first rest =>
      by_cases hfirst : p first
      · simp [predecessor, hp, hfirst]
      · simp [predecessor, hp, hfirst]
  | cons first rest ih =>
    by_cases hfirst : p first
    · simp [predecessor, hfirst]
    · simpa [predecessor, hfirst] using ih (some first)

lemma precedingMessage_lost {c : SessionCompactionRecord}
    (hne : precedingMessage (front ++ .message m :: back) c ≠ some m) :
    precedingMessage (front ++ back) c = precedingMessage (front ++ .message m :: back) c := by
  unfold precedingMessage at hne ⊢
  rcases @predecessor_lost front back m (fun record => record.compaction?.any (sameCompaction c))
      rfl none with h | h
  · rw [h] at hne
    exact absurd rfl hne
  · rw [h]

/-- The third loop after the loss: a compaction whose summary was lost has none. -/
lemma checkScoped_lost
    (hnodup : ((front ++ .message m :: back).filterMap eventId?).Nodup)
    {c : SessionCompactionRecord}
    (h : checkScoped session blobs entries (front ++ .message m :: back) c = .ok ()) :
    checkScoped session blobs entries (front ++ back) c = .ok () ↔
      precedingMessage (front ++ .message m :: back) c ≠ some m := by
  constructor
  · intro hrest hprec
    obtain ⟨summary, message, hsummary, hmessage, hid⟩ := checkScoped_ok session blobs hrest
    obtain ⟨summary', message', hsummary', hmessage', hid'⟩ := checkScoped_ok session blobs h
    -- both messages were introduced by the one summary
    obtain rfl : m = message' := Option.some.inj (hprec.symm.trans hmessage')
    obtain rfl : summary = summary' := by simpa [hsummary] using hsummary'
    obtain ⟨record, hpred, hrecord⟩ := Option.bind_eq_some_iff.mp hmessage
    have hmem : record ∈ front ++ back := by
      rcases predecessor_mem hpred with hmem | hnone
      · exact hmem
      · cases hnone
    have hother := isMessageOf_lost hnodup hmem
    rw [SessionRecord.isMessageOf, hrecord] at hother
    simp [hid, hid'] at hother
  · intro hne
    unfold checkScoped at h ⊢
    rwa [precedingMessage_lost hne]

lemma not_exists_expects_iff {others : List SessionRecord} :
    (∀ e ∈ entries, expectsAssistant entries e → hasProviderMessage entries others) ↔
      ¬ ((∃ e ∈ entries, expectsAssistant entries e) ∧
        hasProviderMessage entries others = false) := by
  constructor
  · rintro h ⟨⟨e, he, hexpects⟩, hnone⟩
    rw [h e he hexpects] at hnone
    cases hnone
  · intro h e he hexpects
    by_contra hnone
    exact h ⟨⟨e, he, hexpects⟩, by simpa using hnone⟩

/-- **The loss of one message record is reported exactly when** its event is
looked for, or it was the last provider-introduced answer while some request
expects one, or it was the summary of a bounded compaction. -/
theorem lost_message_reported_iff {path : String} {malformed : Nat} {restored : RestoredSession}
    {entry : TraceEntry}
    (hlog : restoreFromReport path ⟨front ++ .message m :: back, malformed⟩ = .ok restored)
    (htrace : validateTraceIntegrity session entries = .ok ())
    (halign : validateProjectionAlignment session blobs entries (front ++ .message m :: back) =
      .ok ())
    (hentry : entry ∈ entries) (hid : entry.eventId = m.eventId) :
    validateProjectionAlignment session blobs entries (front ++ back) ≠ .ok () ↔
      LossReported entries (front ++ .message m :: back) (front ++ back) m entry := by
  have hnodup : ((front ++ .message m :: back).filterMap eventId?).Nodup :=
    nodup_of_restoreFromReport hlog
  have hids := nodup_of_validateTraceIntegrity htrace
  obtain ⟨hentries, hcalls, hscoped, hlinked⟩ := (alignment_iff session blobs).mp halign
  have hfirst : (∀ e ∈ entries, checkEntry session entries (front ++ back) e = .ok ()) ↔
      ¬ NeedsRecord entries entry ∧
        ¬ ((∃ e ∈ entries, expectsAssistant entries e) ∧
          hasProviderMessage entries (front ++ back) = false) := by
    rw [← not_exists_expects_iff]
    constructor
    · intro h
      have hloss := fun e he => (checkEntry_lost hnodup (hentries e he)).mp (h e he)
      exact ⟨(hloss entry hentry).1 hid, fun e he => (hloss e he).2⟩
    · rintro ⟨hneeds, hexpects⟩ e he
      refine (checkEntry_lost hnodup (hentries e he)).mpr ⟨fun hsame => ?_, hexpects e he⟩
      rwa [eq_of_eventId_eq hids he hentry (hsame.trans hid.symm)]
  have hthird : (∀ c ∈ scopedCompactions (front ++ back),
      checkScoped session blobs entries (front ++ back) c = .ok ()) ↔
      ¬ ∃ c ∈ scopedCompactions (front ++ .message m :: back),
        precedingMessage (front ++ .message m :: back) c = some m := by
    rw [← scopedCompactions_lost (m := m)]
    push Not
    exact forall₂_congr fun c hc => checkScoped_lost hnodup (hscoped c hc)
  have hsecond : ∀ record ∈ front ++ back,
      checkCalls session blobs entries record = .ok () := by
    intro record hrecord
    refine hcalls record ?_
    rcases List.mem_append.mp hrecord with h | h <;> simp [h]
  have hfourth : ∀ record ∈ linkedRecords (front ++ back),
      checkLinked session blobs entries record = .ok () :=
    fun record hrecord => hlinked record (mem_linked_of_lost hrecord)
  rw [ne_eq, alignment_iff, hfirst, hthird, and_iff_right hsecond, and_iff_left hfourth,
    ← not_or, ← not_or, not_not, or_assoc, LossReported]

end Loss

/-! ### A session of two answered turns -/

namespace TwoTurns

def model : ModelRef := ⟨"p", "m"⟩

def line (seq : EventSeq) (id : EventId) (turn : Option TurnId) (event : AgentEvent) :
    TraceEntry where
  envelope := ⟨1, ⟨id, "s", turn, some seq, 0, some 0, some model, none, none, "tr", "sp"⟩, event⟩
  redactions := 0
  rawPayload := false
  rawRef := none
  externalized := []

def completed : ModelRequestCompleted where
  epoch := 0
  model := model
  finishReason := some "stop"
  inputTokens := some 3
  uncachedInputTokens := none
  logicalPromptTokens := none
  cacheReadTokens := none
  cacheWriteTokens := none
  outputTokens := some 1
  providerTotalTokens := none
  durationMs := 0
  toolCalls := 0
  reasoningProvenance := none
  firstDeltaMs := none

/-- Two turns, each a question and one streamed answer. -/
def trace : List TraceEntry :=
  [line 1 "e1" none (.sessionStarted ⟨"/w", model, ⟨true, false, true, .none, 100, none⟩, false⟩),
    line 2 "e2" (some "t1") (.userMessage ⟨"one?", 0⟩),
    line 3 "e3" (some "t1") (.modelRequestStarted ⟨0, model, 1, 1, 0⟩),
    line 4 "e4" (some "t1") (.assistantDelta ⟨"1", 0⟩),
    line 5 "e5" (some "t1") (.modelRequestCompleted completed),
    line 6 "e6" (some "t1") (.turnCompleted .completed 0),
    line 7 "e7" (some "t2") (.userMessage ⟨"two?", 0⟩),
    line 8 "e8" (some "t2") (.modelRequestStarted ⟨0, model, 3, 3, 0⟩),
    line 9 "e9" (some "t2") (.assistantDelta ⟨"2", 0⟩),
    line 10 "e10" (some "t2") (.modelRequestCompleted completed),
    line 11 "e11" (some "t2") (.turnCompleted .completed 0)]

def message (seq : EventSeq) (id : EventId) (turn : TurnId) (message : Message) :
    SessionMessage :=
  ⟨turn, message.role, message, 0, model, id, some seq, none⟩

def header : SessionHeader := ⟨"s", 3, 0, "/w", model, none, none, none⟩

/-- The log up to the second answer. -/
def earlier : List SessionRecord :=
  [.header header, .message (message 2 "e2" "t1" (.user "one?")),
    .message (message 5 "e5" "t1" (.assistant "1")),
    .message (message 7 "e7" "t2" (.user "two?"))]

def answer : SessionMessage := message 10 "e10" "t2" (.assistant "2")

/-- The event that introduced the second answer. -/
def answered : TraceEntry := line 10 "e10" (some "t2") (.modelRequestCompleted completed)

/-- Nothing of these turns was stored out of line. -/
def noBlobs : BlobReader where
  get _ := .error "missing"
  getRelativeVerified _ := .error "missing"
  decodeEvent _ := .error "missing"

def restored : RestoredSession where
  header := header
  messages := (earlier ++ [SessionRecord.message answer]).filterMap SessionRecord.message?
  checkpoint := none
  checkpointSeq := none
  epochs := []
  compactions := []
  reductions := []
  contextEpoch := 0
  summarizedMessages := 0
  lastSeq := some 10
  malformedRecords := 0
  totalRecords := 5

lemma restores :
    SessionLog.restoreFromReport "s.jsonl" ⟨earlier ++ .message answer :: [], 0⟩ =
      .ok restored := by
  decide

lemma trace_intact : validateTraceIntegrity "s" trace = .ok () := by
  decide

lemma aligned :
    validateProjectionAlignment "s" noBlobs trace (earlier ++ .message answer :: []) = .ok () := by
  decide

/-- The second answer of the session is lost and the alignment still accepts it:
the first answer stands in for it. -/
theorem lost_answer_accepted :
    SessionLog.restoreFromReport "s.jsonl" ⟨earlier ++ .message answer :: [], 0⟩ = .ok restored ∧
      validateTraceIntegrity "s" trace = .ok () ∧
      validateProjectionAlignment "s" noBlobs trace (earlier ++ .message answer :: []) = .ok () ∧
      answered ∈ trace ∧ answered.eventId = answer.eventId ∧
      streamedText trace answered = true ∧
      validateProjectionAlignment "s" noBlobs trace (earlier ++ []) = .ok () :=
  ⟨restores, trace_intact, aligned, by decide, rfl, by decide, by decide⟩

/-- The loss of the second answer is reported exactly when it is one of the losses
that are looked for. -/
theorem lost_message_reported_iff_two_turns :
    validateProjectionAlignment "s" noBlobs trace (earlier ++ []) ≠ .ok () ↔
      LossReported trace (earlier ++ .message answer :: []) (earlier ++ []) answer answered :=
  lost_message_reported_iff restores trace_intact aligned (by decide) rfl

end TwoTurns

end Rupi
