import Rupi.Lib.Window
import Rupi.Store.SessionLog

/-!
The window a session log shows, and what each kind of record does to it.

- `Restoring.window`: the capsule and the messages a restore has kept so far.
- `Restoring.Settled`: no barrier is open, and what comes next is new to the log.
- `restoreMessage_settled`, `restoreReduction_settled`, `restoreCheckpoint_settled`: a record
  of what a writer did is read back as the same change of the window.
- `restoreSummary_iff`: so is a summary, exactly when the bounds beside it are in order.
-/

namespace Rupi

open Fallible

namespace SessionLog

/-- The message of a capsule. -/
def capsuleMessage (capsule : ContextCapsule) : Message := .user capsule.formatForModel

/-- A restored message, beside its sequence number. -/
def shown (message : SessionMessage) : Message × Option EventSeq := (message.message, message.seq)

/-- The window a restore has kept. -/
def Restoring.window (s : Restoring) : Window Message (Message × Option EventSeq) :=
  (⟨s.checkpoint, s.messages⟩ : Window ContextCapsule SessionMessage).map capsuleMessage shown

/-- Between two transactions of a writer: no barrier waits for its completion, the context
epoch is `epoch`, sequence numbers stay below `next`, and the identifiers of `unused` have
not been seen. -/
structure Restoring.Settled (epoch : Nat) (next : EventSeq) (unused : Set String)
    (s : Restoring) : Prop where
  preBarrier : s.preBarrier = none
  contextEpoch : s.contextEpoch = epoch
  lastContextEpoch : ∀ e ∈ s.lastContextEpoch, e ≤ epoch
  lastCompactionEpoch : ∀ e ∈ s.lastCompactionEpoch, e ≤ epoch
  lastMessageSeq : ∀ n ∈ s.lastMessageSeq, n < next
  lastReductionSeq : ∀ n ∈ s.lastReductionSeq, n < next
  eventIds : ∀ id ∈ s.seenEventIds, id ∉ unused
  checkpointIds : ∀ id ∈ s.seenCheckpointIds, id ∉ unused

lemma above_eq_true {last : Option Nat} {n : Nat} : above last n = true ↔ ∀ m ∈ last, m < n := by
  cases last <;> simp [above]

lemma keepMax_le {last : Option EventSeq} {n epoch : EventSeq} (hlast : ∀ m ∈ last, m ≤ epoch)
    (hn : n ≤ epoch) : ∀ m ∈ keepMax last n, m ≤ epoch := by
  intro m hm
  cases last with
  | none =>
    obtain rfl := Option.some.inj hm
    exact hn
  | some last =>
    obtain rfl := Option.some.inj hm
    exact max_le (hlast last rfl) hn

namespace Restoring

lemma start_settled {next : EventSeq} {unused : Set String} :
    Restoring.start.Settled 0 next unused := by
  constructor <;> simp [Restoring.start]

@[simp] lemma start_window : Restoring.start.window = Window.empty := rfl

@[simp] lemma window_push (s : Restoring) (message : SessionMessage) :
    (s.push message).window = s.window.push (shown message) :=
  Window.map_push (w := ⟨s.checkpoint, s.messages⟩) message

@[simp] lemma window_closePending (s : Restoring) : s.closePending.window = s.window := rfl

section Settled

variable {epoch next next' : Nat} {unused unused' : Set String} {s : Restoring}

lemma Settled.mono (h : s.Settled epoch next unused) (hnext : next ≤ next')
    (hunused : unused' ⊆ unused) : s.Settled epoch next' unused' where
  preBarrier := h.preBarrier
  contextEpoch := h.contextEpoch
  lastContextEpoch := h.lastContextEpoch
  lastCompactionEpoch := h.lastCompactionEpoch
  lastMessageSeq := fun n hn => lt_of_lt_of_le (h.lastMessageSeq n hn) hnext
  lastReductionSeq := fun n hn => lt_of_lt_of_le (h.lastReductionSeq n hn) hnext
  eventIds := fun id hid hmem => h.eventIds id hid (hunused hmem)
  checkpointIds := fun id hid hmem => h.checkpointIds id hid (hunused hmem)

lemma Settled.closePending_eq (h : s.Settled epoch next unused) : s.closePending = s := by
  have hbarrier := h.preBarrier
  cases s
  simp only at hbarrier
  simp [closePending, hbarrier]

/-- What carries the next number and an unused identifier is admitted. -/
lemma Settled.admits (h : s.Settled epoch next unused) (hpos : 0 < next) {id : EventId}
    (hid : id ∈ unused) : s.Admits id (some next) := by
  refine ⟨fun hmem => h.eventIds id hmem hid, fun n hn => ?_⟩
  obtain rfl := Option.some.inj hn
  exact ⟨hpos.ne', above_eq_true.mpr h.lastMessageSeq, above_eq_true.mpr h.lastReductionSeq⟩

end Settled

end Restoring

/-! ### The records of a writer -/

section Records

variable {path : String} {epoch next : Nat} {unused unused' : Set String} {s : Restoring}

/-- A new message is read and joins the window. -/
lemma restoreMessage_settled (h : s.Settled epoch next unused) (hpos : 0 < next)
    {message : SessionMessage} (hid : message.eventId ∈ unused) (hseq : message.seq = some next)
    (hsub : unused' ⊆ unused) (hdrawn : message.eventId ∉ unused') :
    restoreMessage path s message = .ok (s.push message) ∧
      (s.push message).Settled epoch (next + 1) unused' := by
  constructor
  · rw [restoreMessage_eq_ok, h.closePending_eq, hseq]
    exact ⟨h.admits hpos hid, rfl⟩
  · have hmono := h.mono (Nat.le_succ next) hsub
    constructor
    · exact hmono.preBarrier
    · exact hmono.contextEpoch
    · exact hmono.lastContextEpoch
    · exact hmono.lastCompactionEpoch
    · intro n hn
      rw [Restoring.push, hseq] at hn
      obtain rfl := Option.some.inj hn
      exact Nat.lt_succ_self next
    · exact hmono.lastReductionSeq
    · intro id hmem
      rcases List.mem_cons.mp hmem with rfl | hmem
      · exact hdrawn
      · exact hmono.eventIds id hmem
    · exact hmono.checkpointIds

/-- A reduction that counts what the window shows is read and evicts it. -/
lemma restoreReduction_settled (h : s.Settled epoch next unused) (hpos : 0 < next)
    {reduction : SessionReductionRecord} (hid : reduction.eventId ∈ unused)
    (hseq : reduction.seq = some next) (hsub : unused' ⊆ unused)
    (hdrawn : reduction.eventId ∉ unused') (hremoved : 0 < reduction.removedMessages)
    (havailable : reduction.removedMessages ≤ s.window.tail.length)
    (hretained : reduction.retainedMessages =
      s.window.capsule.toList.length + (s.window.tail.length - reduction.removedMessages)) :
    restoreReduction path s reduction = .ok (s.drain reduction) ∧
      (s.drain reduction).Settled epoch (next + 1) unused' ∧
      (s.drain reduction).window = s.window.evict reduction.removedMessages := by
  have htail : s.window.tail.length = s.messages.length := by simp [Restoring.window, Window.map]
  have hcapsule : s.window.capsule.toList.length = s.checkpoint.toList.length := by
    cases hc : s.checkpoint <;> simp [Restoring.window, Window.map, hc]
  rw [htail] at havailable hretained
  rw [hcapsule] at hretained
  refine ⟨?_, ?_, ?_⟩
  · rw [restoreReduction_eq_ok, hseq]
    refine ⟨hremoved.ne', h.admits hpos hid, havailable, ?_, ?_, rfl⟩
    · intro hsome
      obtain ⟨capsule, hcapsule⟩ := Option.isSome_iff_exists.mp hsome
      rw [hretained, hcapsule, Option.toList_some, List.length_singleton]
      omega
    · cases hc : s.checkpoint with
      | none => simp [hretained, hc]
      | some capsule => simp [hretained, hc]
  · have hmono := h.mono (Nat.le_succ next) hsub
    constructor
    · exact hmono.preBarrier
    · exact hmono.contextEpoch
    · exact hmono.lastContextEpoch
    · exact hmono.lastCompactionEpoch
    · exact hmono.lastMessageSeq
    · intro n hn
      rw [Restoring.drain, hseq] at hn
      obtain rfl := Option.some.inj hn
      exact Nat.lt_succ_self next
    · intro id hmem
      rcases List.mem_cons.mp hmem with rfl | hmem
      · exact hdrawn
      · exact hmono.eventIds id hmem
    · exact hmono.checkpointIds
  · exact Window.map_evict (w := ⟨s.checkpoint, s.messages⟩) reduction.removedMessages

/-- The state after a staged summary took its place. -/
def Restoring.placed (s : Restoring) (summary : SessionMessage)
    (compaction : SessionCompactionRecord) : Restoring :=
  { ((s.push summary).advanceEpoch compaction.contextEpoch).record compaction with
    messages := summary :: s.messages.drop compaction.removedMessages }

/-- A compaction that counts what the window showed before its summary is read exactly when
its bounds are in order. -/
lemma restoreSummary_iff {s' : Restoring} {summary : SessionMessage}
    {compaction : SessionCompactionRecord} (h : (s.push summary).Settled epoch next unused)
    (haborted : compaction.aborted = false) (hlevel : compaction.level ≠ .l3Checkpoint)
    (hepoch : compaction.contextEpoch = epoch + 1) (hsummary : compaction.summaryPresent = true)
    (hremoved : compaction.removedMessages ≤ s.messages.length)
    (hretained :
      compaction.retainedMessages = s.messages.length - compaction.removedMessages) :
    restoreCompaction path (s.push summary) compaction = .ok s' ↔
      boundsValid compaction = true ∧ s' = s.placed summary compaction := by
  have hplaced : placeIfSummary path
      (((s.push summary).advanceEpoch compaction.contextEpoch).record compaction) compaction =
        .ok (s.placed summary compaction) := by
    rw [placeIfSummary, if_pos hsummary, placeSummary_eq_ok]
    refine ⟨summary, by simp [Restoring.record, Restoring.advanceEpoch, Restoring.push], ?_, ?_, ?_⟩
    · simp [Restoring.record, Restoring.advanceEpoch, Restoring.push, hretained]
    · simp only [Restoring.record, Restoring.advanceEpoch, Restoring.push, hretained,
        List.length_append, List.length_singleton]
      omega
    · simp [Restoring.placed, Restoring.record, Restoring.advanceEpoch, Restoring.push]
  have hlast : above (s.push summary).lastCompactionEpoch compaction.contextEpoch = true :=
    above_eq_true.mpr fun e he => by
      rw [hepoch]
      exact Nat.lt_succ_of_le (h.lastCompactionEpoch e he)
  have hcontext : above (s.push summary).lastContextEpoch compaction.contextEpoch = true :=
    above_eq_true.mpr fun e he => by
      rw [hepoch]
      exact Nat.lt_succ_of_le (h.lastContextEpoch e he)
  rw [restoreCompaction_eq_ok haborted]
  constructor
  · rintro ⟨hbounds, -, -, m, hclose, hplace⟩
    rw [closeIfCheckpoint, if_neg hlevel] at hclose
    obtain rfl := Except.ok.inj hclose
    exact ⟨hbounds, Except.ok.inj (hplace.symm.trans hplaced)⟩
  · rintro ⟨hbounds, rfl⟩
    refine ⟨hbounds, ⟨by omega, hlast⟩, .inr hcontext, _, ?_, hplaced⟩
    rw [closeIfCheckpoint, if_neg hlevel]

lemma placed_settled {summary : SessionMessage} {compaction : SessionCompactionRecord}
    (h : (s.push summary).Settled epoch next unused)
    (hepoch : compaction.contextEpoch = epoch + 1) :
    (s.placed summary compaction).Settled (epoch + 1) next unused where
  preBarrier := h.preBarrier
  contextEpoch := by
    have hcontext : (s.push summary).contextEpoch = epoch := h.contextEpoch
    change max (s.push summary).contextEpoch compaction.contextEpoch = epoch + 1
    omega
  lastContextEpoch :=
    keepMax_le (fun e he => le_trans (h.lastContextEpoch e he) (Nat.le_succ epoch)) hepoch.le
  lastCompactionEpoch := by
    intro e he
    obtain rfl := Option.some.inj he
    exact hepoch.le
  lastMessageSeq := h.lastMessageSeq
  lastReductionSeq := h.lastReductionSeq
  eventIds := h.eventIds
  checkpointIds := h.checkpointIds

lemma placed_window (summary : SessionMessage) (compaction : SessionCompactionRecord) :
    (s.placed summary compaction).window =
      s.window.summarize compaction.removedMessages (shown summary) :=
  Window.map_summarize (w := ⟨s.checkpoint, s.messages⟩) compaction.removedMessages summary

/-- The state after a checkpoint. -/
def Restoring.checkpointed (s : Restoring) (barrier : SessionCheckpointRecord)
    (compaction : SessionCompactionRecord) : Restoring :=
  (((s.setAside barrier).advanceEpoch compaction.contextEpoch).keepSuffix s.messages
    compaction.removedMessages).record compaction

/-- A barrier and the completion that counts what the window showed before it are read, and
reset the window. -/
lemma restoreCheckpoint_settled (h : s.Settled epoch next unused)
    {barrier : SessionCheckpointRecord} {compaction : SessionCompactionRecord}
    (hid : barrier.checkpointId ∈ unused) (hbarrier : barrier.contextEpoch = epoch + 1)
    (haborted : compaction.aborted = false) (hlevel : compaction.level = .l3Checkpoint)
    (hepoch : compaction.contextEpoch = epoch + 1) (hsummary : compaction.summaryPresent = false)
    (hfrom : compaction.replacesFrom = none) (hthrough : compaction.replacesThrough = none)
    (hremoved : compaction.removedMessages ≤ s.messages.length)
    (hretained :
      compaction.retainedMessages = s.messages.length - compaction.removedMessages + 1)
    (hsub : unused' ⊆ unused) (hdrawn : barrier.checkpointId ∉ unused') :
    restoreBarrier path s barrier = .ok (s.setAside barrier) ∧
      restoreCompaction path (s.setAside barrier) compaction =
        .ok (s.checkpointed barrier compaction) ∧
      (s.checkpointed barrier compaction).Settled (epoch + 1) next unused' ∧
      (s.checkpointed barrier compaction).window =
        s.window.reset compaction.removedMessages (capsuleMessage barrier.capsule) := by
  have hpos : 0 < barrier.contextEpoch := by omega
  refine ⟨?_, ?_, ?_, ?_⟩
  · rw [restoreBarrier_eq_ok, if_pos hpos]
    refine ⟨fun hmem => h.checkpointIds _ hmem hid, above_eq_true.mpr fun e he => ?_,
      h.preBarrier, rfl⟩
    rw [hbarrier]
    exact Nat.lt_succ_of_le (h.lastContextEpoch e he)
  · rw [restoreCompaction_eq_ok haborted]
    refine ⟨by simp [boundsValid, hfrom, hthrough], ⟨by omega, above_eq_true.mpr fun e he => ?_⟩,
      .inl ⟨hlevel, ?_⟩,
      ((s.setAside barrier).advanceEpoch compaction.contextEpoch).keepSuffix s.messages
        compaction.removedMessages, ?_, ?_⟩
    · rw [hepoch]
      exact Nat.lt_succ_of_le (h.lastCompactionEpoch e he)
    · rw [hepoch, ← hbarrier]
      exact if_pos hpos
    · rw [closeIfCheckpoint, if_pos hlevel]
      exact closeCheckpoint_eq_ok.mpr
        ⟨s.messages, rfl, hsummary, hremoved, hretained, rfl⟩
    · rw [placeIfSummary, if_neg (by simp [hsummary])]
      rfl
  · have hmono := h.mono le_rfl hsub
    constructor
    · rfl
    · change max (max s.contextEpoch barrier.contextEpoch) compaction.contextEpoch = epoch + 1
      have hcontext := h.contextEpoch
      omega
    · change ∀ e ∈ keepMax (if 0 < barrier.contextEpoch then some barrier.contextEpoch else
        s.lastContextEpoch) compaction.contextEpoch, e ≤ epoch + 1
      rw [if_pos hpos]
      refine keepMax_le (fun e he => ?_) hepoch.le
      obtain rfl := Option.some.inj he
      exact hbarrier.le
    · intro e he
      obtain rfl := Option.some.inj he
      exact hepoch.le
    · exact hmono.lastMessageSeq
    · exact hmono.lastReductionSeq
    · exact hmono.eventIds
    · intro id hmem
      rcases List.mem_cons.mp hmem with rfl | hmem
      · exact hdrawn
      · exact hmono.checkpointIds id hmem
  · exact Window.map_reset (w := ⟨s.checkpoint, s.messages⟩) compaction.removedMessages
      barrier.capsule

end Records

end SessionLog

end Rupi
