import Rupi.Lib.Run
import Rupi.Runtime.TurnLoop
import Rupi.Store.LogWindow

/-!
Runs of the history operations of a turn loop.

- `TurnLoop.begun`: the loop of a new session.
- `continueState`, `withResumeState`: the loop a later process rebuilds from the log.
- `WindowOp`, `WindowOp.step`: the operations, and what each makes of a loop.
- `WindowOp.cut`: the prefix an operation hands to `compact_range`.
-/

namespace Rupi

open Fallible SessionLog

/-! ### Beginning and resuming -/

namespace TurnLoop

/-- `TurnLoop::new`, over a store session that has just begun. -/
def begun (header : SessionHeader) : TurnLoop where
  messages := []
  messageSeqs := []
  checkpointFloor := 0
  checkpointCitedFrom := none
  contextEpoch := 0
  history := none
  envelopes := []
  epochIndex := 0
  activeModel := header.model
  trace := ⟨[], none, [.header header], false, none, none⟩
  issued := 0

end TurnLoop

/-- What a resumed loop takes over. -/
structure ResumeState where
  messages : List Message
  messageSeqs : List (Option EventSeq)
  epochs : List SessionEpochRecord
  contextEpoch : Nat
  checkpointFloor : Nat
  citedHistory : Option (EventSeq × EventSeq)

/-- The model epochs of a session, from its first on. -/
def resumeEpochs (restored : RestoredSession) : List SessionEpochRecord :=
  let initial : SessionEpochRecord := ⟨0, restored.header.model, .initial⟩
  match restored.epochs with
  | [] => [initial]
  | first :: rest => if first.epoch = 0 then first :: rest else initial :: first :: rest

/-- `continue_state`. -/
def continueState (env : Env) (restored : RestoredSession) : Except TurnError ResumeState := do
  let malformed := restored.malformedRecords
  ensure (malformed = 0)
    (.refused
      (s!"cannot continue session {env.session}: {malformed} record(s) of its session log are " ++
        "unreadable, so the earlier turns it would continue from are missing"))
  let epochs := resumeEpochs restored
  forEach
    (fun record => ensure (env.configured record.model = true)
      (.refused
        (s!"cannot continue session {env.session}: persisted model {record.model.asKey} " ++
          s!"(epoch {record.epoch}) is not configured")))
    epochs
  let citedFirst := (restored.checkpointSeq.map (· + 1)).getD 1
  let capsule := restored.checkpoint.toList
  .ok
    { messages := capsule.map capsuleMessage ++ restored.messages.map SessionMessage.message
      messageSeqs := capsule.map (fun _ => none) ++ restored.messages.map SessionMessage.seq
      epochs := epochs
      contextEpoch := restored.contextEpoch
      checkpointFloor := capsule.length
      citedHistory := restored.lastSeq.map fun last => (citedFirst, last) }

namespace TurnLoop

/-- `with_resume_state`, on a new loop over the store session that `loop` wrote. -/
def withResumeState (loop : TurnLoop) (state : ResumeState) : Except TurnError TurnLoop :=
  match state.epochs.getLast? with
  | none => .error (.sink "cannot resume a session without a model epoch")
  | some active => do
    ensure
      (state.epochs.head?.map SessionEpochRecord.epoch = some 0 ∧
        ∀ pair ∈ state.epochs.zip state.epochs.tail, pair.1.epoch < pair.2.epoch)
      (.sink "cannot resume a session with non-monotonic model epochs")
    ensure (state.messageSeqs.length = state.messages.length)
      (.sink "cannot resume a session with message sequence metadata out of alignment")
    ensure (state.checkpointFloor ≤ state.messages.length)
      (.sink "cannot resume a session with a checkpoint floor beyond its messages")
    .ok
      { messages := state.messages
        messageSeqs := state.messageSeqs
        checkpointFloor := state.checkpointFloor
        checkpointCitedFrom :=
          if 0 < state.checkpointFloor then some ((state.citedHistory.map Prod.fst).getD 1)
          else none
        contextEpoch := state.contextEpoch
        history := state.citedHistory
        envelopes := []
        epochIndex := active.epoch
        activeModel := active.model
        trace :=
          { loop.trace with
            summaryPending := false
            pendingCompactionRange := none
            pendingCheckpoint := none }
        issued := loop.issued }

/-- What the loop has written, read back. -/
def restored (path : String) (loop : TurnLoop) : Except StoreError RestoredSession :=
  restoreFromReport path ⟨loop.trace.records, 0⟩

/-- A later process takes over. -/
def resume (env : Env) (path : String) (loop : TurnLoop) : Except TurnError TurnLoop :=
  match loop.restored path with
  | .error _ => .error (.refused s!"cannot continue session {env.session}")
  | .ok restored => do
    let state ← continueState env restored
    loop.withResumeState state

variable {env : Env} {path : String} {loop loop' : TurnLoop}

/-- A loop that takes over holds the restored window over the same two files. -/
lemma resume_eq_ok (h : loop.resume env path = .ok loop') :
    ∃ restored, loop.restored path = .ok restored ∧
      loop'.messages = restored.checkpoint.toList.map capsuleMessage ++
        restored.messages.map SessionMessage.message ∧
      loop'.messageSeqs = restored.checkpoint.toList.map (fun _ => none) ++
        restored.messages.map SessionMessage.seq ∧
      loop'.checkpointFloor = restored.checkpoint.toList.length ∧
      loop'.contextEpoch = restored.contextEpoch ∧
      loop'.trace.entries = loop.trace.entries ∧ loop'.trace.records = loop.trace.records ∧
      loop'.trace.nextSeq = loop.trace.nextSeq ∧ loop'.issued = loop.issued := by
  unfold resume at h
  cases hrestored : loop.restored path with
  | error error => simp [hrestored] at h
  | ok restored =>
    simp only [hrestored] at h
    obtain ⟨state, hstate, hloop⟩ := bind_eq_ok.mp h
    simp only [continueState, bind_eq_ok, ensure_eq_ok, forEach_eq_ok, exists_const] at hstate
    obtain ⟨-, -, hstate⟩ := hstate
    obtain rfl := Except.ok.inj hstate
    unfold withResumeState at hloop
    cases hactive : (resumeEpochs restored).getLast? with
    | none => simp [hactive] at hloop
    | some active =>
      simp only [hactive, bind_eq_ok, ensure_eq_ok, exists_const] at hloop
      obtain ⟨-, -, -, hloop⟩ := hloop
      obtain rfl := Except.ok.inj hloop
      exact ⟨restored, rfl, rfl, rfl, rfl, rfl, rfl, rfl, rfl, rfl⟩

end TurnLoop

/-! ### Operations -/

/-- The events by which a compaction, a checkpoint or an eviction changes the window. -/
def AgentEvent.rewritesWindow : AgentEvent → Bool
  | .contextReduced reduced => decide (0 < reduced.removedMessages)
  | .contextCompactionStarted _ | .contextCompactionCompleted _ | .contextSummary
  | .contextCompactionEpoch _ | .checkpointCreated _ => true
  | _ => false

/-- An event of a turn that leaves the window as it is, but for a message beside it. -/
abbrev PlainEvent := {event : AgentEvent // event.rewritesWindow = false}

/-- A level at which a compaction leaves a summary. -/
abbrev SummaryLevel := {level : ContextLevel // level = .l1Ordinary ∨ level = .l2Phase}

/-- The history operations of a turn loop. -/
inductive WindowOp where
  | push (turnId : TurnId) (event : PlainEvent) (message : Message) (parent : Option EventId)
  | note (turnId : Option TurnId) (event : PlainEvent) (parent : Option EventId)
  | evictOldest (turnId : TurnId) (target turnHistoryStart : Nat) (promptOnly : Bool)
  | compactRange (turnId : TurnId) (prefixEnd : Nat) (summary : String) (level : SummaryLevel)
      (reason : String)
  | compact (turnId : TurnId) (summary : String) (retained : Nat)
  | compactPrefix (turnId : TurnId) (prefixEnd : Nat) (summary : String)
  | compactWithSummaryOr (turnId : TurnId) (target : Nat) (explicit : Option String)
  | compactPhase (turnId : TurnId) (phase : String) (explicit : Option String)
      (force cooling : Bool)
  | compactTurnPrefix (turnId : TurnId) (turnHistoryStart : Nat) (level : SummaryLevel)
      (reason : String)
  | compactCompletedTurnCycles (turnId : TurnId) (turnHistoryStart target : Nat) (reason : String)
  | checkpoint (turnId : TurnId) (capsule : ContextCapsule)
  | checkpointTurnPrefix (turnId : TurnId) (capsule : ContextCapsule) (turnHistoryStart : Nat)
  | resume

namespace WindowOp

/-- An operation that fails before it wrote anything leaves the loop as it was. -/
def settle {α : Type} (loop : TurnLoop) : Except TurnError (TurnLoop × α) → TurnLoop
  | .ok result => result.1
  | .error _ => loop

variable (env : Env) (path : String)

/-- What an operation makes of a loop. -/
def step (loop : TurnLoop) : WindowOp → TurnLoop
  | push turnId event message parent =>
    settle loop ((loop.recordMessage env turnId event.1 message parent).map (·, ()))
  | note turnId event parent => (loop.emit env turnId event.1 parent).1
  | evictOldest turnId target turnHistoryStart promptOnly =>
    settle loop (loop.evictOldest env turnId target turnHistoryStart promptOnly)
  | compactRange turnId prefixEnd summary level reason =>
    settle loop (loop.compactRange env turnId prefixEnd summary level.1 reason)
  | compact turnId summary retained => settle loop (loop.compact env turnId summary retained)
  | compactPrefix turnId prefixEnd summary =>
    settle loop (loop.compactPrefix env turnId prefixEnd summary)
  | compactWithSummaryOr turnId target explicit =>
    settle loop (loop.compactWithSummaryOr env turnId target explicit)
  | compactPhase turnId phase explicit force cooling =>
    settle loop (loop.compactPhase env turnId phase explicit force cooling)
  | compactTurnPrefix turnId turnHistoryStart level reason =>
    settle loop (loop.compactTurnPrefix env turnId turnHistoryStart level.1 reason)
  | compactCompletedTurnCycles turnId turnHistoryStart target reason =>
    settle loop (loop.compactCompletedTurnCycles env turnId turnHistoryStart target reason)
  | checkpoint turnId capsule => (loop.checkpoint env turnId capsule).1
  | checkpointTurnPrefix turnId capsule turnHistoryStart =>
    (loop.checkpointTurnPrefix env turnId capsule turnHistoryStart).1
  | resume => settle loop ((loop.resume env path).map (·, ()))

/-- The operation that a caller of `compact_range` amounts to; a caller that finds nothing to
compact does nothing. -/
def basic (loop : TurnLoop) : WindowOp → Option WindowOp
  | compact turnId summary retained =>
    let kept := if loop.messages.isEmpty then 0 else min retained (loop.messages.length - 1)
    let removed := loop.messages.length - kept
    some (compactRange turnId removed summary ⟨.l1Ordinary, .inl rfl⟩
      s!"summarizing {removed} oldest messages")
  | compactPrefix turnId prefixEnd summary =>
    let prefixEnd := min prefixEnd loop.messages.length
    some (compactRange turnId prefixEnd summary ⟨.l1Ordinary, .inl rfl⟩
      s!"summarizing {prefixEnd} oldest messages")
  | compactWithSummaryOr turnId target explicit =>
    let start := loop.protectedEnd
    let tail := loop.messages.length - start
    let kept := loop.keptTail env target (tail - 2) 1
    let prefixEnd := loop.messages.length - kept
    if tail ≤ 1 ∨ prefixEnd ≤ start then none
    else
      let summary := explicit.getD (env.summarize ((loop.messages.take prefixEnd).drop start))
      let kept := if loop.messages.isEmpty then 0 else min kept (loop.messages.length - 1)
      let removed := loop.messages.length - kept
      some (compactRange turnId removed summary ⟨.l1Ordinary, .inl rfl⟩
        s!"summarizing {removed} oldest messages")
  | compactPhase turnId phase explicit force cooling =>
    if loop.messages.length ≤ 1 then none
    else if !force && cooling then
      let text := s!"phase compaction '{phase}' deferred: cooldown active (use force to override)"
      some (note (some turnId) ⟨.diagnostic .info text, rfl⟩ none)
    else
      let removed := loop.messages.length - 1
      let base :=
        explicit.getD (env.summarize ((loop.messages.take removed).drop loop.protectedEnd))
      some (compactRange turnId removed s!"[Phase Compaction: {phase}]\n{base}"
        ⟨.l2Phase, .inr rfl⟩ s!"semantic phase: {phase}")
  | compactTurnPrefix turnId turnHistoryStart level reason =>
    let prefixEnd := min turnHistoryStart loop.messages.length
    let start := min loop.checkpointFloor prefixEnd
    if prefixEnd ≤ start then none
    else
      some (compactRange turnId prefixEnd
        (env.summarize ((loop.messages.take prefixEnd).drop start)) level reason)
  | compactCompletedTurnCycles turnId turnHistoryStart target reason =>
    let cycleStart := min turnHistoryStart loop.messages.length
    if loop.messages.length ≤ cycleStart ∨ cycleStart < loop.protectedEnd then none
    else
      let boundaries := (List.range (loop.messages.length - cycleStart)).map (cycleStart + 1 + ·)
      (loop.selectCycles env cycleStart target reason boundaries none).map fun selected =>
        compactRange turnId selected.1 selected.2 ⟨.l1Ordinary, .inl rfl⟩ reason
  | op => some op

/-- The prefix of a `compact_range`. -/
def prefixEnd? : WindowOp → Option Nat
  | compactRange _ prefixEnd _ _ _ => some prefixEnd
  | _ => none

/-- The prefix an operation hands to `compact_range`, when it compacts. -/
def cut (loop : TurnLoop) (op : WindowOp) : Option Nat := (op.basic env loop).bind prefixEnd?

/-- The operation sets a barrier. -/
def isCheckpoint : WindowOp → Bool
  | checkpoint _ _ | checkpointTurnPrefix _ _ _ => true
  | _ => false

variable {env path}

lemma settle_bind {α β : Type} (loop : TurnLoop) (r : Except TurnError (TurnLoop × α))
    (f : TurnLoop × α → β) : settle loop (r >>= fun x => .ok (x.1, f x)) = settle loop r := by
  cases r <;> rfl

/-- Every caller of `compact_range` does what its basic operation does. -/
theorem step_eq_basic (loop : TurnLoop) (op : WindowOp) :
    op.step env path loop = ((op.basic env loop).map (·.step env path loop)).getD loop := by
  cases op with
  | compactWithSummaryOr turnId target explicit =>
    simp only [step, basic, TurnLoop.compactWithSummaryOr, TurnLoop.compact]
    by_cases htail : loop.messages.length - loop.protectedEnd ≤ 1
    · simp [htail, settle]
    · by_cases hstart : loop.messages.length -
          loop.keptTail env target (loop.messages.length - loop.protectedEnd - 2) 1 ≤
            loop.protectedEnd
      · simp [htail, hstart, settle]
      · simp [htail, hstart]
  | compactPhase turnId phase explicit force cooling =>
    simp only [step, basic, TurnLoop.compactPhase]
    split_ifs <;> simp [settle]
  | compactTurnPrefix turnId turnHistoryStart level reason =>
    simp only [step, basic, TurnLoop.compactTurnPrefix]
    split_ifs
    · simp [settle]
    · exact settle_bind loop _ _
  | compactCompletedTurnCycles turnId turnHistoryStart target reason =>
    simp only [step, basic, TurnLoop.compactCompletedTurnCycles]
    split_ifs
    · simp [settle]
    · split
      · rename_i hnone
        simp [hnone, settle]
      · rename_i hsome
        simp only [hsome, Option.map_some, Option.getD_some]
        exact settle_bind loop _ _
  | _ => rfl

/-- The operation is none of the callers of `compact_range`. -/
def isBasic : WindowOp → Bool
  | compact _ _ _ | compactPrefix _ _ _ | compactWithSummaryOr _ _ _ | compactPhase _ _ _ _ _
  | compactTurnPrefix _ _ _ _ | compactCompletedTurnCycles _ _ _ _ => false
  | _ => true

lemma isBasic_of_basic {loop : TurnLoop} {op op' : WindowOp} (h : op.basic env loop = some op') :
    op'.isBasic = true ∧ (op'.isCheckpoint = true → op.isCheckpoint = true) := by
  cases op with
  | compactWithSummaryOr turnId target explicit =>
    simp only [basic] at h
    split_ifs at h
    all_goals obtain rfl := Option.some.inj h; exact ⟨rfl, by simp [isCheckpoint]⟩
  | compactPhase turnId phase explicit force cooling =>
    simp only [basic] at h
    split_ifs at h
    all_goals obtain rfl := Option.some.inj h; exact ⟨rfl, by simp [isCheckpoint]⟩
  | compactTurnPrefix turnId turnHistoryStart level reason =>
    simp only [basic] at h
    split_ifs at h
    obtain rfl := Option.some.inj h
    exact ⟨rfl, by simp [isCheckpoint]⟩
  | compactCompletedTurnCycles turnId turnHistoryStart target reason =>
    simp only [basic] at h
    split_ifs at h
    obtain ⟨selected, -, rfl⟩ := Option.map_eq_some_iff.mp h
    exact ⟨rfl, by simp [isCheckpoint]⟩
  | _ =>
    obtain rfl := Option.some.inj h
    exact ⟨rfl, by simp [isCheckpoint]⟩

/-! ### What an operation can do -/

/-- An eviction does nothing, or writes one reduction and takes the messages out. -/
lemma evictOldest_writes {loop : TurnLoop} (hnorm : loop.normalizeMessageSeqs = loop)
    (turnId : TurnId) (target turnHistoryStart : Nat) (promptOnly : Bool) :
    settle loop (loop.evictOldest env turnId target turnHistoryStart promptOnly) = loop ∨
      ∃ loop' line reduced,
        loop.Writes loop' (some turnId) (.contextReduced reduced) line ∧
        loop'.trace.records = loop.trace.records ++
          [.reduction ⟨env.fresh loop.issued, some loop.trace.nextSeq, reduced.reason,
            reduced.removedMessages, reduced.retainedMessages⟩] ∧
        0 < reduced.removedMessages ∧
        reduced.removedMessages ≤ loop.messages.length - loop.protectedEnd ∧
        reduced.retainedMessages = loop.messages.length - reduced.removedMessages ∧
        settle loop (loop.evictOldest env turnId target turnHistoryStart promptOnly) =
          { loop' with
            messages := TurnLoop.splice loop.messages loop.protectedEnd
              (loop.protectedEnd + reduced.removedMessages) []
            messageSeqs := TurnLoop.splice loop.messageSeqs loop.protectedEnd
              (loop.protectedEnd + reduced.removedMessages) [] } := by
  have hle := loop.evictionCount_le env target turnHistoryStart promptOnly
  simp only [TurnLoop.evictOldest, hnorm]
  by_cases hzero : loop.evictionCount env target turnHistoryStart promptOnly = 0
  · simp [hzero, settle]
  rw [if_neg hzero]
  generalize loop.evictionCount env target turnHistoryStart promptOnly = dropped at *
  by_cases hdropped : dropped ≤ u32Max
  · rw [asU32, if_pos hdropped, ok_bind]
    by_cases hretained : loop.messages.length - dropped ≤ u32Max
    · rw [asU32, if_pos hretained, ok_bind]
      refine .inr ⟨_, _, loop.evictionEvent env target dropped dropped
        (loop.messages.length - dropped), loop.emit_writes env (some turnId) _ none, ?_, ?_, ?_,
        rfl, rfl⟩
      · rw [TurnLoop.emit_records]
        simp [StoreTrace.projection, TurnLoop.newEnvelope, TurnLoop.evictionEvent,
          Nat.pos_of_ne_zero hzero]
      · exact Nat.pos_of_ne_zero hzero
      · exact hle
    · rw [asU32, if_neg hretained]
      exact .inl rfl
  · rw [asU32, if_neg hdropped]
    exact .inl rfl

/-- Nothing was replaced. -/
def Idle (loop : TurnLoop) (result : Except TurnError (TurnLoop × Nat)) : Prop :=
  result = .ok (loop, 0) ∨ ∃ error, result = .error error

lemma Idle.settle_eq {loop : TurnLoop} {result : Except TurnError (TurnLoop × Nat)}
    (h : Idle loop result) : settle loop result = loop := by
  rcases h with rfl | ⟨error, rfl⟩ <;> rfl

/-- A compaction replaces nothing, or writes its lines and records and puts its summary in. -/
lemma compactRange_cases {loop : TurnLoop} (hnorm : loop.normalizeMessageSeqs = loop)
    (turnId : TurnId) (prefixEnd : Nat) (summary : String) (level : SummaryLevel)
    (reason : String) :
    Idle loop (loop.compactRange env turnId prefixEnd summary level.1 reason) ∨
      ∃ k loop' record a b c d,
        0 < k ∧ min prefixEnd loop.messages.length = loop.protectedEnd + k ∧
        loop'.trace.entries = loop.trace.entries ++ [a, b, c, d] ∧
        TurnLoop.CompactionLines turnId level.1 reason
          (loop.replacedRange (min prefixEnd loop.messages.length)) k
          (loop.messages.length - min prefixEnd loop.messages.length) (loop.contextEpoch + 1)
          loop.trace.nextSeq a b c d ∧
        loop'.trace.records = loop.trace.records ++
          [.message record, .compaction (TurnLoop.compactionRecord level.1
            (loop.replacedRange (min prefixEnd loop.messages.length)) k
            (loop.messages.length - min prefixEnd loop.messages.length)
            (loop.contextEpoch + 1))] ∧
        loop'.trace.nextSeq = loop.trace.nextSeq + 4 ∧ loop'.issued = loop.issued + 8 ∧
        loop.SameWindow loop' ∧ record.message = .user summary ∧
        record.seq = some (loop.trace.nextSeq + 1) ∧
        record.eventId = env.fresh (loop.issued + 2) ∧
        loop.compactRange env turnId prefixEnd summary level.1 reason =
          .ok ({ loop' with
            messages := TurnLoop.splice loop.messages loop.protectedEnd (loop.protectedEnd + k)
              [.user summary]
            messageSeqs := TurnLoop.splice loop.messageSeqs loop.protectedEnd
              (loop.protectedEnd + k) [some (loop.trace.nextSeq + 1)]
            contextEpoch := loop.contextEpoch + 1 }, k) := by
  simp only [TurnLoop.compactRange, hnorm]
  generalize min prefixEnd loop.messages.length = stop
  by_cases hstop : stop ≤ loop.protectedEnd
  · rw [if_pos hstop]
    exact .inl (.inl rfl)
  rw [if_neg hstop]
  obtain ⟨k, rfl⟩ : ∃ k, stop = loop.protectedEnd + k := ⟨stop - loop.protectedEnd, by omega⟩
  rw [Nat.add_sub_cancel_left]
  by_cases hreplaced : k ≤ u32Max
  · rw [asU32, if_pos hreplaced, ok_bind]
    by_cases hretained : loop.messages.length - (loop.protectedEnd + k) ≤ u32Max
    · rw [asU32, if_pos hretained, ok_bind]
      by_cases hepoch : loop.contextEpoch = u32Max
      · rw [TurnLoop.nextContextEpoch, if_pos hepoch]
        exact .inl (.inr ⟨_, rfl⟩)
      · rw [TurnLoop.nextContextEpoch, if_neg hepoch, ok_bind]
        obtain ⟨loop', record, a, b, c, d, hemit, hentries, hlines, hrecords, hnext, hissued,
          hsame, hmessage, hseq, hid⟩ := loop.emitCompaction_writes env turnId summary
            level.2 reason (loop.replacedRange (loop.protectedEnd + k)) k
            (loop.messages.length - (loop.protectedEnd + k)) (loop.contextEpoch + 1)
        refine .inr ⟨k, loop', record, a, b, c, d, by omega, rfl, hentries, hlines, hrecords,
          hnext, hissued, hsame, hmessage, hseq, hid, ?_⟩
        rw [hemit, ok_bind]
        simp only [hsame.messages, hsame.messageSeqs]
    · rw [asU32, if_neg hretained]
      exact .inl (.inr ⟨_, rfl⟩)
  · rw [asU32, if_neg hreplaced]
    exact .inl (.inr ⟨_, rfl⟩)

/-- A checkpoint was written, its barrier before its completion, and its capsule stands in
front of what `stop` left. -/
structure Checkpoints (env : Env) (loop loop' : TurnLoop) (capsule : ContextCapsule)
    (removed retained stop : Nat) : Prop where
  entries : ∃ created a b, loop'.trace.entries = loop.trace.entries ++ [a, b] ∧
    a.event = .checkpointCreated created ∧
    b.event = .contextCompactionCompleted
      ⟨.l3Checkpoint, removed, retained, loop.contextEpoch + 1⟩
  records : ∃ path, loop'.trace.records = loop.trace.records ++
    [.checkpointBarrier
        (TurnLoop.barrierRecord (env.fresh loop.issued) path capsule (loop.contextEpoch + 1)),
      .compaction
        ⟨loop.contextEpoch + 1, .l3Checkpoint, removed, 0, retained, false, none, none, false,
          none, none⟩]
  nextSeq : loop'.trace.nextSeq = loop.trace.nextSeq + 2
  issued : loop'.issued = loop.issued + 5
  window : (loop.installCapsule capsule stop (loop.contextEpoch + 1)).SameWindow loop'

/-- Barrier, capsule and completion make a checkpoint. -/
lemma checkpoints_of_emitted (loop : TurnLoop) (turnId : TurnId) (capsule : ContextCapsule)
    (summarized removed retained stop : Nat) :
    let prepared := loop.prepareCheckpoint env capsule
    let created : CheckpointCreated :=
      ⟨prepared.2.1, capsule.version, summarized, prepared.2.2, loop.contextEpoch + 1⟩
    let barred := prepared.1.emitBarrier env turnId created
    let completed := (barred.emit env (some turnId) (.contextCompactionCompleted
      ⟨.l3Checkpoint, removed, retained, loop.contextEpoch + 1⟩) none).1
    Checkpoints env loop (completed.installCapsule capsule stop (loop.contextEpoch + 1)) capsule
      removed retained stop := by
  intro prepared created barred completed
  obtain ⟨-, ⟨a, hentries, ha⟩, hrecords, hnext, hissued, hsame⟩ :=
    loop.emitBarrier_writes env turnId capsule summarized (loop.contextEpoch + 1)
  obtain ⟨⟨b, hwrites⟩, hrecords'⟩ :=
    barred.emitCheckpointCompleted_writes env turnId removed retained (loop.contextEpoch + 1)
  refine ⟨⟨created, a, b, ?_, ha, hwrites.event_eq⟩, ⟨prepared.2.2, ?_⟩, ?_, ?_,
    ⟨rfl, rfl, rfl, rfl⟩⟩
  · change completed.trace.entries = _
    rw [hwrites.entries, hentries]
    simp
  · change completed.trace.records = _
    rw [hrecords', hrecords]
    simp
    rfl
  · exact hwrites.nextSeq.trans (by rw [hnext])
  · exact hwrites.issued.trans (by rw [hissued])

/-- A checkpoint of a window whose count fits does nothing, or is written whole. -/
lemma checkpoint_cases {loop : TurnLoop} (hnorm : loop.normalizeMessageSeqs = loop)
    (hfits : loop.messages.length ≤ u32Max) (turnId : TurnId) (capsule : ContextCapsule) :
    (loop.checkpoint env turnId capsule).1 = loop ∨
      Checkpoints env loop (loop.checkpoint env turnId capsule).1 capsule
        (loop.messages.length - loop.protectedEnd) 1 loop.messages.length := by
  have hremoved : loop.messages.length - loop.protectedEnd ≤ u32Max :=
    le_trans (Nat.sub_le _ _) hfits
  simp only [TurnLoop.checkpoint, hnorm]
  by_cases hepoch : loop.contextEpoch = u32Max
  · rw [TurnLoop.nextContextEpoch, if_pos hepoch]
    exact .inl rfl
  · rw [TurnLoop.nextContextEpoch, if_neg hepoch, asU32, if_pos hremoved]
    -- the capsule is installed before the completion goes out, which does not read the window
    exact .inr (checkpoints_of_emitted loop turnId capsule _ _ 1 loop.messages.length)

/-- A checkpoint of the history before a turn does nothing, prepares a barrier that is never
written, or is written whole. -/
lemma checkpointTurnPrefix_cases {loop : TurnLoop} (hnorm : loop.normalizeMessageSeqs = loop)
    (hfits : loop.messages.length ≤ u32Max) (turnId : TurnId) (capsule : ContextCapsule)
    (turnHistoryStart : Nat) :
    (loop.checkpointTurnPrefix env turnId capsule turnHistoryStart).1 = loop ∨
      (loop.checkpointTurnPrefix env turnId capsule turnHistoryStart).1 =
        (loop.prepareCheckpoint env capsule).1 ∨
      ∃ stop, 0 < stop ∧ stop ≤ loop.messages.length ∧
        Checkpoints env loop (loop.checkpointTurnPrefix env turnId capsule turnHistoryStart).1
          capsule (stop - min loop.checkpointFloor stop) (loop.messages.length - stop + 1) stop := by
  simp only [TurnLoop.checkpointTurnPrefix, hnorm]
  generalize hstop : min turnHistoryStart loop.messages.length = stop
  by_cases hnone : stop = 0 ∨ 0 < loop.checkpointFloor ∧ stop ≤ 1
  · rw [if_pos hnone]
    exact .inl rfl
  rw [if_neg hnone]
  by_cases hepoch : loop.contextEpoch = u32Max
  · have hnext : loop.nextContextEpoch = .error _ := if_pos hepoch
    refine .inr (.inl ?_)
    simp only [TurnLoop.prepareCheckpoint_nextContextEpoch, hnext]
  · have hnext : loop.nextContextEpoch = .ok _ := if_neg hepoch
    have hreplaced (error : String) : asU32 (stop - min loop.checkpointFloor stop) error = .ok _ :=
      if_pos (by omega)
    have hretained (error : String) : asU32 (loop.messages.length - stop + 1) error = .ok _ :=
      if_pos (by omega)
    refine .inr (.inr ⟨stop, by omega, by omega, ?_⟩)
    simp only [TurnLoop.prepareCheckpoint_nextContextEpoch, hnext, TurnLoop.emitBarrier_messages,
      TurnLoop.prepareCheckpoint_messages, hreplaced, hretained]
    exact checkpoints_of_emitted loop turnId capsule _ _ _ stop

end WindowOp

end Rupi
