import Rupi.Lib.Attempt
import Rupi.Runtime.TurnLoop

/-!
Compactions and checkpoints over a sink that fails.

- `Sink`: at which of its calls the sink fails, and what it leaves of the trace then.
- `TurnLoop.tryCompactRange`, `tryCheckpoint`, `tryCheckpointTurnPrefix`: the routines, with
  every call on the sink able to fail.
- `TurnLoop.Atomic`: a failed routine leaves the window as it was.
- `TurnLoop.reductions_atomic_iff`: when that is so.
-/

namespace Rupi

open Attempt

/-- The calls on a sink, counted from the start of a routine: the ones that fail, with the
trace they leave and their error. -/
abbrev Sink := Nat → Option (StoreTrace × TurnError)

namespace TurnLoop

/-- A routine of the loop. -/
abbrev Routine (α : Type) := Attempt TurnLoop TurnError α

/-- One call on the sink. -/
def call {α : Type} (sink : Sink) (k : Nat) (act : TurnLoop → TurnLoop × α) : Routine α :=
  fun loop =>
    match sink k with
    | some (trace, error) => ({ loop with trace := trace }, .error error)
    | none => ((act loop).1, .ok (act loop).2)

variable (env : Env) (sink : Sink)

/-- A message goes out. -/
def callMessage (k : Nat) (turnId : TurnId) (event : AgentEvent) (message : Message) :
    Routine EventSeq :=
  fun loop =>
    match sink k with
    | some (trace, error) => ({ loop with trace := trace }, .error error)
    | none =>
      match loop.emitMessage env turnId event message none with
      | .ok (loop, seq) => (loop, .ok seq)
      | .error error => (loop, .error error)

/-- `compact_range`. -/
def tryCompactRange (turnId : TurnId) (prefixEnd : Nat) (summary : String) (level : ContextLevel)
    (reason : String) : Routine Nat := do
  modify normalizeMessageSeqs
  let loop ← get
  let prefixEnd := min prefixEnd loop.messages.length
  let start := loop.protectedEnd
  if prefixEnd ≤ start then pure 0
  else do
    let replaced ← ofExcept
      (asU32 (prefixEnd - start) "compacted message count exceeds durable limit")
    let retained ← ofExcept
      (asU32 (loop.messages.length - prefixEnd) "retained message count exceeds durable limit")
    let range := loop.replacedRange prefixEnd
    let epoch ← ofExcept loop.nextContextEpoch
    let _ ← call sink 0 fun loop =>
      loop.emit env (some turnId) (.contextCompactionStarted ⟨level, reason⟩) none
    let seq ← callMessage env sink 1 turnId .contextSummary (.user summary)
    let blob ← call sink 2 fun loop => (loop, env.putPayload (utf8Bytes summary.toList))
    let _ ← call sink 3 fun loop => loop.emit env (some turnId)
      (.contextCompactionEpoch ⟨epoch, range.1, range.2, blob⟩) none
    let _ ← call sink 4 fun loop => loop.emit env (some turnId)
      (.contextCompactionCompleted ⟨level, replaced, retained, epoch⟩) none
    modify fun loop =>
      { loop with
        messages := splice loop.messages start prefixEnd [.user summary]
        messageSeqs := splice loop.messageSeqs start prefixEnd [some seq]
        contextEpoch := epoch }
    pure replaced

/-- `create_checkpoint` on the sink. -/
def callCreateCheckpoint (k : Nat) (capsule : ContextCapsule) : Routine (CheckpointId × String) :=
  call sink k fun loop => loop.prepareCheckpoint env capsule

/-- The sequence number that the context cites from, behind a barrier. -/
def citedFrom (seq : EventSeq) : Except TurnError EventSeq :=
  if seq < u64Max then .ok (seq + 1)
  else .error (.sink "checkpoint sequence space is exhausted")

/-- The barrier of a checkpoint goes out, and the context cites from behind it. -/
def callBarrier (turnId : TurnId) (created : CheckpointCreated) : Routine Unit := do
  let _ ← call sink 1 fun loop =>
    ({ loop with trace := loop.trace.setCheckpointContextEpoch created.contextEpoch }, ())
  let seq ← call sink 2 fun loop =>
    loop.emit env (some turnId) (.checkpointCreated created) none
  let cited ← ofExcept (citedFrom seq)
  modify fun loop => { loop with checkpointCitedFrom := some cited }

/-- The completion of a checkpoint goes out. -/
def callCompleted (turnId : TurnId) (removed retained epoch : Nat) : Routine Unit := do
  let _ ← call sink 3 fun loop => loop.emit env (some turnId)
    (.contextCompactionCompleted ⟨.l3Checkpoint, removed, retained, epoch⟩) none
  pure ()

/-- `checkpoint`. -/
def tryCheckpoint (turnId : TurnId) (capsule : ContextCapsule) : Routine CheckpointCreated := do
  modify normalizeMessageSeqs
  let loop ← get
  let removed := loop.messages.length - loop.protectedEnd
  let epoch ← ofExcept loop.nextContextEpoch
  let (id, path) ← callCreateCheckpoint env sink 0 capsule
  let created : CheckpointCreated := ⟨id, capsule.version, removed, path, epoch⟩
  callBarrier env sink turnId created
  modify fun loop => loop.installCapsule capsule loop.messages.length epoch
  let removed ← ofExcept (asU32 removed "checkpoint message count exceeds durable limit")
  callCompleted env sink turnId removed 1 epoch
  pure created

/-- `checkpoint_turn_prefix`: the checkpoint, and the start of the turn's own history. -/
def tryCheckpointTurnPrefix (turnId : TurnId) (capsule : ContextCapsule)
    (turnHistoryStart : Nat) : Routine (Option CheckpointCreated × Nat) := do
  modify normalizeMessageSeqs
  let loop ← get
  let prefixEnd := min turnHistoryStart loop.messages.length
  if prefixEnd = 0 ∨ 0 < loop.checkpointFloor ∧ prefixEnd ≤ 1 then pure (none, turnHistoryStart)
  else do
    let replaced := prefixEnd - min loop.checkpointFloor prefixEnd
    let (id, path) ← callCreateCheckpoint env sink 0 capsule
    let epoch ← ofExcept loop.nextContextEpoch
    let created : CheckpointCreated := ⟨id, capsule.version, replaced, path, epoch⟩
    callBarrier env sink turnId created
    let removed ← ofExcept (asU32 replaced "checkpoint message count exceeds durable limit")
    let retained ← ofExcept (asU32 (loop.messages.length - prefixEnd + 1)
      "checkpoint message count exceeds durable limit")
    callCompleted env sink turnId removed retained epoch
    modify fun loop => loop.installCapsule capsule prefixEnd epoch
    pure (some created, 1)

/-! ### What a failed routine leaves alone -/

/-- The parts of a loop that a reduction changes. -/
def visible (loop : TurnLoop) :
    List Message × List (Option EventSeq) × Nat × Nat × Option EventSeq :=
  (loop.messages, loop.messageSeqs, loop.contextEpoch, loop.checkpointFloor,
    loop.checkpointCitedFrom)

/-- Every message has its place in the vector of sequence numbers. -/
def Aligned (loop : TurnLoop) : Prop := loop.messageSeqs.length = loop.messages.length

/-- The loop behind a failed routine is as it was before. -/
def Atomic {α : Type} (routine : Routine α) (loop : TurnLoop) : Prop :=
  routine.Fails loop → (routine loop).1.visible = loop.visible

section Steps

variable {env sink} {α β : Type} {loop loop' : TurnLoop} {k : Nat}

lemma call_of_none {act : TurnLoop → TurnLoop × α} (h : sink k = none) :
    call sink k act loop = ((act loop).1, .ok (act loop).2) := by
  rw [call, h]

/-- A call that fails leaves the loop, but for the trace. -/
lemma call_of_ne_none (act : TurnLoop → TurnLoop × α) (loop : TurnLoop) (h : sink k ≠ none) :
    ∃ loop' error, call sink k act loop = (loop', .error error) ∧ loop'.visible = loop.visible := by
  obtain ⟨⟨trace, error⟩, hk⟩ := Option.ne_none_iff_exists'.mp h
  refine ⟨{ loop with trace := trace }, error, ?_, rfl⟩
  rw [call, hk]

lemma keeps_call {act : TurnLoop → TurnLoop × α}
    (h : ∀ loop, (act loop).1.visible = loop.visible) : (call sink k act).Keeps visible := by
  intro loop
  cases hk : sink k with
  | none => rw [call_of_none hk, h]
  | some failure =>
    have hne : sink k ≠ none := by
      rw [hk]
      simp
    obtain ⟨loop', error, hcall, hvisible⟩ := call_of_ne_none act loop hne
    rw [hcall, hvisible]

lemma visible_emit (turnId : Option TurnId) (event : AgentEvent) (parent : Option EventId)
    (loop : TurnLoop) : (loop.emit env turnId event parent).1.visible = loop.visible := rfl

lemma keeps_callMessage (turnId : TurnId) (event : AgentEvent) (message : Message) :
    (callMessage env sink k turnId event message).Keeps visible := by
  intro loop
  rw [callMessage]
  cases hk : sink k with
  | some failure => rfl
  | none =>
    dsimp only
    rw [emitMessage]
    cases loop.trace.emitMessage (loop.newEnvelope env (some turnId) event none) message with
    | ok trace => rfl
    | error failure => rfl

lemma visible_normalizeMessageSeqs_iff :
    loop.normalizeMessageSeqs.visible = loop.visible ↔ loop.Aligned := by
  rw [visible, visible, normalizeMessageSeqs, Aligned]
  simp only [Prod.mk.injEq, true_and, and_true]
  constructor
  · intro h
    have hlength := congrArg List.length h
    simp only [List.length_take, List.length_append, List.length_replicate] at hlength
    omega
  · intro h
    rw [h, Nat.sub_self, List.replicate_zero, List.append_nil, ← h, List.take_length]

/-! ### A compaction -/

/-- A compaction that fails has changed nothing behind the alignment of its vectors. -/
lemma tryCompactRange_visible (turnId : TurnId) (prefixEnd : Nat) (summary : String)
    (level : ContextLevel) (reason : String)
    (h : (tryCompactRange env sink turnId prefixEnd summary level reason).Fails loop) :
    (tryCompactRange env sink turnId prefixEnd summary level reason loop).1.visible =
      loop.normalizeMessageSeqs.visible := by
  rw [tryCompactRange] at h ⊢
  rw [Fails] at h
  rw [modify_bind, get_bind] at h ⊢
  generalize loop.normalizeMessageSeqs = loop at h ⊢
  dsimp only at h ⊢
  split_ifs at h ⊢ with hnone
  · rfl
  · refine KeepsOnError.bind (keeps_ofExcept _) (fun replaced => ?_) _ h
    refine KeepsOnError.bind (keeps_ofExcept _) fun retained => ?_
    refine KeepsOnError.bind (keeps_ofExcept _) fun epoch => ?_
    refine KeepsOnError.bind (keeps_call fun loop => visible_emit _ _ _ loop) fun _ => ?_
    refine KeepsOnError.bind (keeps_callMessage _ _ _) fun seq => ?_
    refine KeepsOnError.bind (keeps_call fun loop => rfl) fun blob => ?_
    refine KeepsOnError.bind (keeps_call fun loop => visible_emit _ _ _ loop) fun _ => ?_
    refine KeepsOnError.bind (keeps_call fun loop => visible_emit _ _ _ loop) fun _ => ?_
    exact keepsOnError_modify _ _

/-! ### A barrier -/

/-- The barrier of a checkpoint is out: none of the calls up to it fails. -/
def PastBarrier (sink : Sink) (loop : TurnLoop) : Prop :=
  loop.contextEpoch ≠ u32Max ∧ sink 0 = none ∧ sink 1 = none ∧ sink 2 = none ∧
    loop.trace.nextSeq < u64Max

/-- A barrier that is out has set the citation; one that is not has changed nothing. -/
lemma callBarrier_cases (turnId : TurnId) (created : CheckpointCreated) (loop : TurnLoop) :
    (sink 1 = none ∧ sink 2 = none ∧ loop.trace.nextSeq < u64Max ∧ ∃ loop',
      callBarrier env sink turnId created loop = (loop', .ok ()) ∧
      loop'.visible = { loop with checkpointCitedFrom := some (loop.trace.nextSeq + 1) }.visible) ∨
    (¬ (sink 1 = none ∧ sink 2 = none ∧ loop.trace.nextSeq < u64Max) ∧ ∃ loop' error,
      callBarrier env sink turnId created loop = (loop', .error error) ∧
      loop'.visible = loop.visible) := by
  rw [callBarrier]
  by_cases h1 : sink 1 = none
  · rw [bind_of_ok (call_of_none h1)]
    by_cases h2 : sink 2 = none
    · rw [bind_of_ok (call_of_none h2)]
      have hcited : citedFrom (emit env
          { loop with trace := loop.trace.setCheckpointContextEpoch created.contextEpoch }
          (some turnId) (.checkpointCreated created) none).2 = citedFrom loop.trace.nextSeq := rfl
      rw [hcited, citedFrom]
      by_cases hseq : loop.trace.nextSeq < u64Max
      · rw [if_pos hseq]
        exact .inl ⟨h1, h2, hseq, _, rfl, rfl⟩
      · rw [if_neg hseq]
        exact .inr ⟨fun h => hseq h.2.2, _, _, rfl, rfl⟩
    · obtain ⟨loop', error, hcall, hvisible⟩ := call_of_ne_none _ _ h2
      rw [bind_of_error hcall]
      exact .inr ⟨fun h => h2 h.2.1, _, error, rfl, hvisible⟩
  · obtain ⟨loop', error, hcall, hvisible⟩ := call_of_ne_none _ _ h1
    rw [bind_of_error hcall]
    exact .inr ⟨fun h => h1 h.1, _, error, rfl, hvisible⟩

/-- The capsule is prepared, or nothing has changed. -/
lemma callCreateCheckpoint_cases (capsule : ContextCapsule) (loop : TurnLoop) :
    (sink 0 = none ∧ ∃ prepared created,
      callCreateCheckpoint env sink 0 capsule loop = (prepared, .ok created) ∧
      prepared.visible = loop.visible ∧ prepared.trace.nextSeq = loop.trace.nextSeq) ∨
    (sink 0 ≠ none ∧ ∃ loop' error,
      callCreateCheckpoint env sink 0 capsule loop = (loop', .error error) ∧
      loop'.visible = loop.visible) := by
  by_cases h0 : sink 0 = none
  · exact .inl ⟨h0, _, _, call_of_none h0, rfl, rfl⟩
  · obtain ⟨loop', error, hcall, hvisible⟩ :=
      call_of_ne_none (fun loop => loop.prepareCheckpoint env capsule) loop h0
    exact .inr ⟨h0, loop', error, hcall, hvisible⟩

lemma keeps_callCompleted (turnId : TurnId) (removed retained epoch : Nat) :
    (callCompleted env sink turnId removed retained epoch).Keeps visible :=
  Keeps.bind (keeps_call fun loop => visible_emit _ _ _ loop) fun _ => keeps_pure _

lemma nextContextEpoch_cases (loop : TurnLoop) :
    (loop.contextEpoch ≠ u32Max ∧ loop.nextContextEpoch = .ok (loop.contextEpoch + 1)) ∨
      (loop.contextEpoch = u32Max ∧ ∃ error, loop.nextContextEpoch = .error error) := by
  rw [nextContextEpoch]
  split_ifs with h
  · exact .inr ⟨h, _, rfl⟩
  · exact .inl ⟨h, rfl⟩

/-- A checkpoint whose barrier is out goes on in the loop behind it; otherwise it has failed,
and changed nothing behind the alignment of its vectors. -/
lemma tryCheckpoint_cases (turnId : TurnId) (capsule : ContextCapsule) (loop : TurnLoop) :
    (PastBarrier sink loop ∧
      (tryCheckpoint env sink turnId capsule loop).1.contextEpoch = loop.contextEpoch + 1) ∨
    (¬ PastBarrier sink loop ∧
      (tryCheckpoint env sink turnId capsule loop).1.visible = loop.normalizeMessageSeqs.visible) := by
  have hepoch : loop.contextEpoch = loop.normalizeMessageSeqs.contextEpoch := rfl
  have hpast : PastBarrier sink loop = PastBarrier sink loop.normalizeMessageSeqs := rfl
  rw [tryCheckpoint, modify_bind, get_bind, hepoch, hpast]
  generalize loop.normalizeMessageSeqs = loop
  dsimp only
  obtain ⟨hfree, hnext⟩ | ⟨hfull, error, hnext⟩ := nextContextEpoch_cases loop
  · rw [hnext, ofExcept_ok_bind]
    obtain ⟨h0, prepared, created, hcreate, hvisible, hseq⟩ | ⟨h0, loop', error, hcreate, hvisible⟩ :=
      callCreateCheckpoint_cases capsule loop
    · rw [bind_of_ok hcreate]
      obtain ⟨id, path⟩ := created
      dsimp only
      obtain ⟨h1, h2, hbound, barrier, hbarrier, hcited⟩ | ⟨hnot, loop', error, hbarrier, hkept⟩ :=
        callBarrier_cases turnId
          ⟨id, capsule.version, loop.messages.length - loop.protectedEnd, path,
            loop.contextEpoch + 1⟩ prepared
      · rw [bind_of_ok hbarrier, modify_bind]
        have hkept : ∀ n : Nat, (do
            let removed ← ofExcept (asU32 n "checkpoint message count exceeds durable limit")
            callCompleted env sink turnId removed 1 (loop.contextEpoch + 1)
            pure (⟨id, capsule.version, n, path, loop.contextEpoch + 1⟩ : CheckpointCreated) :
            Routine CheckpointCreated).Keeps visible := fun n =>
          Keeps.bind (keeps_ofExcept _) fun removed =>
            Keeps.bind (keeps_callCompleted _ _ _ _) fun _ => keeps_pure _
        have hinstalled := congrArg (·.2.2.1) (hkept
          (loop.messages.length - loop.protectedEnd) (barrier.installCapsule capsule barrier.messages.length (loop.contextEpoch + 1)))
        exact .inl ⟨⟨hfree, h0, h1, h2, hseq ▸ hbound⟩, hinstalled⟩
      · rw [bind_of_error hbarrier]
        exact .inr ⟨fun h => hnot ⟨h.2.2.1, h.2.2.2.1, hseq.symm ▸ h.2.2.2.2⟩, hkept.trans hvisible⟩
    · rw [bind_of_error hcreate]
      exact .inr ⟨fun h => h0 h.2.1, hvisible⟩
  · rw [hnext, ofExcept_error_bind]
    exact .inr ⟨fun h => h.1 hfull, rfl⟩

lemma visible_cited {loop' : TurnLoop} (h : loop'.visible = loop.visible)
    (cited : Option EventSeq) : { loop' with checkpointCitedFrom := cited }.visible =
      { loop with checkpointCitedFrom := cited }.visible := by
  simp only [visible, Prod.mk.injEq] at h ⊢
  exact ⟨h.1, h.2.1, h.2.2.1, h.2.2.2.1, trivial⟩

/-- A checkpoint of a turn's prefix whose barrier is out has moved the citation, and nothing
else unless it succeeds. -/
lemma tryCheckpointTurnPrefix_cases (turnId : TurnId) (capsule : ContextCapsule)
    (turnHistoryStart : Nat) (loop : TurnLoop)
    (h : (tryCheckpointTurnPrefix env sink turnId capsule turnHistoryStart).Fails loop) :
    (PastBarrier sink loop ∧
      (tryCheckpointTurnPrefix env sink turnId capsule turnHistoryStart loop).1.visible =
        { loop.normalizeMessageSeqs with
          checkpointCitedFrom := some (loop.trace.nextSeq + 1) }.visible) ∨
    (¬ PastBarrier sink loop ∧
      (tryCheckpointTurnPrefix env sink turnId capsule turnHistoryStart loop).1.visible =
        loop.normalizeMessageSeqs.visible) := by
  have hpast : PastBarrier sink loop = PastBarrier sink loop.normalizeMessageSeqs := rfl
  have hnext : loop.trace.nextSeq = loop.normalizeMessageSeqs.trace.nextSeq := rfl
  rw [tryCheckpointTurnPrefix] at h ⊢
  rw [Fails] at h
  rw [modify_bind, get_bind] at h ⊢
  rw [hpast, hnext]
  generalize loop.normalizeMessageSeqs = loop at h ⊢
  dsimp only at h ⊢
  split_ifs at h ⊢ with hnone
  · obtain ⟨error, herror⟩ := h
    contradiction
  obtain ⟨h0, prepared, created, hcreate, hvisible, hseq⟩ | ⟨h0, loop', error, hcreate, hvisible⟩ :=
    callCreateCheckpoint_cases capsule loop
  · rw [bind_of_ok hcreate] at h ⊢
    obtain ⟨id, path⟩ := created
    dsimp only at h ⊢
    obtain ⟨hfree, hepoch⟩ | ⟨hfull, error, hepoch⟩ := nextContextEpoch_cases loop
    · rw [hepoch, ofExcept_ok_bind] at h ⊢
      obtain ⟨h1, h2, hbound, barrier, hbarrier, hcited⟩ | ⟨hnot, loop', error, hbarrier, hkept⟩ :=
        callBarrier_cases turnId ⟨id, capsule.version, min turnHistoryStart loop.messages.length -
          min loop.checkpointFloor (min turnHistoryStart loop.messages.length), path,
            loop.contextEpoch + 1⟩ prepared
      · rw [bind_of_ok hbarrier] at h ⊢
        refine .inl ⟨⟨hfree, h0, h1, h2, hseq ▸ hbound⟩, ?_⟩
        have htail := KeepsOnError.bind (keeps_ofExcept _) (fun removed =>
          KeepsOnError.bind (keeps_ofExcept _) fun retained =>
            KeepsOnError.bind (keeps_callCompleted _ _ _ _) fun _ =>
              keepsOnError_modify _ _) barrier h
        refine htail.trans (hcited.trans ?_)
        rw [hseq]
        exact visible_cited hvisible _
      · rw [bind_of_error hbarrier]
        exact .inr ⟨fun h => hnot ⟨h.2.2.1, h.2.2.2.1, hseq.symm ▸ h.2.2.2.2⟩, hkept.trans hvisible⟩
    · rw [hepoch, ofExcept_error_bind]
      exact .inr ⟨fun h => h.1 hfull, hvisible⟩
  · rw [bind_of_error hcreate]
    exact .inr ⟨fun h => h0 h.2.1, hvisible⟩

/-! ### Without failures -/

lemma callBarrier_of_noFailure (turnId : TurnId) (created : CheckpointCreated)
    (hseq : loop.trace.nextSeq < u64Max) :
    callBarrier env (fun _ => none) turnId created loop =
      (loop.emitBarrier env turnId created, .ok ()) := by
  have hcited : citedFrom (emit env
      { loop with trace := loop.trace.setCheckpointContextEpoch created.contextEpoch }
      (some turnId) (.checkpointCreated created) none).2 = .ok (loop.trace.nextSeq + 1) := by
    rw [citedFrom]
    exact if_pos hseq
  rw [callBarrier, bind_of_ok (call_of_none rfl), bind_of_ok (call_of_none rfl), hcited]
  rfl

/-- Over a sink that does not fail, the checkpoint is the one of the loop. -/
lemma tryCheckpoint_of_noFailure (turnId : TurnId) (capsule : ContextCapsule)
    (hseq : loop.trace.nextSeq < u64Max) :
    tryCheckpoint env (fun _ => none) turnId capsule loop = loop.checkpoint env turnId capsule := by
  have hbound : loop.normalizeMessageSeqs.trace.nextSeq < u64Max := hseq
  rw [tryCheckpoint, modify_bind, get_bind, checkpoint]
  generalize loop.normalizeMessageSeqs = loop at hbound ⊢
  dsimp only
  obtain ⟨-, hnext⟩ | ⟨-, error, hnext⟩ := nextContextEpoch_cases loop
  · have hprepared : (loop.prepareCheckpoint env capsule).1.trace.nextSeq < u64Max := hbound
    rw [hnext, ofExcept_ok_bind, callCreateCheckpoint, bind_of_ok (call_of_none rfl)]
    dsimp only
    rw [bind_of_ok (callBarrier_of_noFailure _ _ hprepared), modify_bind]
    cases asU32 (loop.messages.length - loop.protectedEnd)
      "checkpoint message count exceeds durable limit" <;> rfl
  · rw [hnext]
    rfl

/-- Over a sink that does not fail, the checkpoint of a turn's prefix is the one of the loop. -/
lemma tryCheckpointTurnPrefix_of_noFailure (turnId : TurnId) (capsule : ContextCapsule)
    (turnHistoryStart : Nat) (hseq : loop.trace.nextSeq < u64Max) :
    tryCheckpointTurnPrefix env (fun _ => none) turnId capsule turnHistoryStart loop =
      loop.checkpointTurnPrefix env turnId capsule turnHistoryStart := by
  have hbound : loop.normalizeMessageSeqs.trace.nextSeq < u64Max := hseq
  rw [tryCheckpointTurnPrefix, modify_bind, get_bind, checkpointTurnPrefix]
  generalize loop.normalizeMessageSeqs = loop at hbound ⊢
  dsimp only
  split_ifs with hnone
  · rfl
  rw [callCreateCheckpoint, bind_of_ok (call_of_none rfl), prepareCheckpoint_nextContextEpoch]
  obtain ⟨-, hnext⟩ | ⟨-, error, hnext⟩ := nextContextEpoch_cases loop
  · have hprepared : (loop.prepareCheckpoint env capsule).1.trace.nextSeq < u64Max := hbound
    rw [hnext, ofExcept_ok_bind, bind_of_ok (callBarrier_of_noFailure _ _ hprepared)]
    simp only [emitBarrier_messages, prepareCheckpoint_messages]
    cases asU32 (min turnHistoryStart loop.messages.length - min loop.checkpointFloor
        (min turnHistoryStart loop.messages.length))
        "checkpoint message count exceeds durable limit" with
    | error failure => rfl
    | ok removed =>
      cases asU32 (loop.messages.length - min turnHistoryStart loop.messages.length + 1)
        "checkpoint message count exceeds durable limit" <;> rfl
  · rw [hnext]
    rfl

end Steps

/-! ### When a failed routine is atomic -/

/-- **A failed reduction leaves the window exactly when it fails in front of its barrier**,
and its vectors are aligned. A compaction has no barrier in front of its last call; behind the
one of a checkpoint the window is reset, and behind that of a turn's prefix the citation has
moved. -/
theorem reductions_atomic_iff (loop : TurnLoop) (turnId : TurnId) :
    (∀ prefixEnd summary level reason,
      Atomic (tryCompactRange env sink turnId prefixEnd summary level reason) loop ↔
        ((tryCompactRange env sink turnId prefixEnd summary level reason).Fails loop →
          loop.Aligned)) ∧
    (∀ capsule,
      Atomic (tryCheckpoint env sink turnId capsule) loop ↔
        ((tryCheckpoint env sink turnId capsule).Fails loop →
          loop.Aligned ∧ ¬ PastBarrier sink loop)) ∧
    ∀ capsule turnHistoryStart,
      Atomic (tryCheckpointTurnPrefix env sink turnId capsule turnHistoryStart) loop ↔
        ((tryCheckpointTurnPrefix env sink turnId capsule turnHistoryStart).Fails loop →
          loop.Aligned ∧ (PastBarrier sink loop →
            loop.checkpointCitedFrom = some (loop.trace.nextSeq + 1))) := by
  refine ⟨fun prefixEnd summary level reason => ?_, fun capsule => ?_,
    fun capsule turnHistoryStart => ?_⟩
  · refine forall_congr' fun hfails => ?_
    rw [tryCompactRange_visible _ _ _ _ _ hfails, visible_normalizeMessageSeqs_iff]
  · refine forall_congr' fun hfails => ?_
    obtain ⟨hpast, hepoch⟩ | ⟨hnot, hvisible⟩ := tryCheckpoint_cases turnId capsule loop
    · refine iff_of_false (fun hsame => ?_) fun h => h.2 hpast
      have hkept : (tryCheckpoint env sink turnId capsule loop).1.contextEpoch =
          loop.contextEpoch := congrArg (fun fields => fields.2.2.1) hsame
      exact Nat.succ_ne_self _ (hepoch.symm.trans hkept)
    · rw [hvisible, visible_normalizeMessageSeqs_iff]
      exact ⟨fun h => ⟨h, hnot⟩, fun h => h.1⟩
  · refine forall_congr' fun hfails => ?_
    obtain ⟨hpast, hvisible⟩ | ⟨hnot, hvisible⟩ :=
      tryCheckpointTurnPrefix_cases turnId capsule turnHistoryStart loop hfails
    · rw [hvisible, ← visible_normalizeMessageSeqs_iff]
      simp only [visible, Prod.mk.injEq, hpast, forall_const]
      exact ⟨fun ⟨hm, hs, he, hf, hc⟩ => ⟨⟨hm, hs, he, hf, rfl⟩, hc.symm⟩,
        fun ⟨⟨hm, hs, he, hf, _⟩, hc⟩ => ⟨hm, hs, he, hf, hc.symm⟩⟩
    · rw [hvisible, visible_normalizeMessageSeqs_iff]
      exact ⟨fun h => ⟨h, fun hpast => absurd hpast hnot⟩, fun h => h.1⟩

end TurnLoop

namespace FailedCheckpoint

def env : Env where
  session := "s"
  traceId := "t"
  fresh n := String.ofList (List.replicate n 'e')
  clock n := n
  configured _ := true
  putPayload _ := none
  estimate messages _ := messages.length
  estimateMessages messages := messages.length
  summarize _ := "summary"
  summarizeCycles _ _ := "summary"

/-- One message is visible. -/
def loop : TurnLoop where
  messages := [.user "hello"]
  messageSeqs := [none]
  checkpointFloor := 0
  checkpointCitedFrom := none
  contextEpoch := 0
  history := none
  envelopes := []
  epochIndex := 0
  activeModel := ⟨"p", "m"⟩
  trace := ⟨[], none, [], false, none, none⟩
  issued := 0

def capsule : ContextCapsule := ⟨1, "", [], [], [], "", [], [], []⟩

/-- The sink fails at the completion of a checkpoint. -/
def sink : Sink := fun k => if k = 3 then some (loop.trace, .sink "disk full") else none

end FailedCheckpoint

/-- A checkpoint whose completion is not written has already reset the window. -/
theorem TurnLoop.failed_checkpoint_resets_window :
    ¬ ∀ (env : Env) (sink : Sink) (loop : TurnLoop) (turnId : TurnId) (capsule : ContextCapsule),
      loop.Aligned → TurnLoop.Atomic (TurnLoop.tryCheckpoint env sink turnId capsule) loop := by
  intro h
  have hfails : (TurnLoop.tryCheckpoint FailedCheckpoint.env FailedCheckpoint.sink "turn"
      FailedCheckpoint.capsule).Fails FailedCheckpoint.loop := ⟨.sink "disk full", rfl⟩
  have haligned : FailedCheckpoint.loop.Aligned := rfl
  have hsame := h _ _ _ "turn" _ haligned hfails
  have hlength : (TurnLoop.tryCheckpoint FailedCheckpoint.env FailedCheckpoint.sink "turn"
      FailedCheckpoint.capsule FailedCheckpoint.loop).1.contextEpoch = 0 :=
    congrArg (fun fields => fields.2.2.1) hsame
  exact absurd hlength (by decide +kernel)

end Rupi
