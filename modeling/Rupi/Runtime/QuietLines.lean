import Rupi.Runtime.Moves

/-!
What operations on the window write.

- `AgentEvent.isQuiet`: the events about the window, and diagnostics.
- `TurnLoop.Tells`: a line of that kind without a parent, or none.
- `WindowMove.tells`: an operation on the window writes nothing else, and leaves the model alone.
-/

namespace Rupi

open Fallible

/-- The events about the window, and diagnostics. -/
def AgentEvent.isQuiet : AgentEvent → Bool
  | .contextReduced _ | .contextCompactionStarted _ | .contextCompactionCompleted _
  | .contextSummary | .contextCompactionEpoch _ | .checkpointCreated _ | .diagnostic _ _ => true
  | _ => false

namespace TurnLoop

/-- A line about the window, or none. -/
inductive Tells (env : Env) (turnId : TurnId) : TurnLoop → TurnLoop → Prop where
  | line {loop loop' : TurnLoop} {turn : Option TurnId} {event : AgentEvent}
      (hturn : turn = none ∨ turn = some turnId) (hquiet : event.isQuiet = true)
      (h : Emits env loop loop' turn event none) : Tells env turnId loop loop'
  | still {loop loop' : TurnLoop} (entries : loop'.trace.entries = loop.trace.entries)
      (lastSeq : loop'.trace.lastSeq = loop.trace.lastSeq) (issued : loop.issued ≤ loop'.issued)
      (epochIndex : loop'.epochIndex = loop.epochIndex)
      (activeModel : loop'.activeModel = loop.activeModel) : Tells env turnId loop loop'

/-- Estimates are not part of a line. -/
lemma tells_of_toBackup {env : Env} {turnId : TurnId} {loop loop' : TurnLoop} (provider : Backup)
    (h : Relation.ReflTransGen (Tells (env.toBackup provider) turnId) loop loop') :
    Relation.ReflTransGen (Tells env turnId) loop loop' := by
  refine Relation.ReflTransGen.mono (fun a b hstep => ?_) _ _ h
  cases hstep with
  | line hturn hquiet h =>
    exact .line hturn hquiet ⟨h.entries, h.lastSeq, h.issued, h.epochIndex, h.activeModel⟩
  | still entries lastSeq issued epochIndex activeModel =>
    exact .still entries lastSeq issued epochIndex activeModel

lemma tells_activeModel {env : Env} {turnId : TurnId} {loop loop' : TurnLoop}
    (h : Relation.ReflTransGen (Tells env turnId) loop loop') :
    loop'.activeModel = loop.activeModel := by
  induction h with
  | refl => rfl
  | tail _ hstep ih =>
    cases hstep with
    | line hturn hquiet h => exact h.activeModel.trans ih
    | still entries lastSeq issued epochIndex activeModel => exact activeModel.trans ih

section Emission

variable {env : Env} {loop loop' : TurnLoop} {turnId : TurnId} {turn : Option TurnId}
  {event : AgentEvent} {parent : Option EventId} {message : Message}

lemma emitMessage_emits {seq : EventSeq}
    (h : loop.emitMessage env turnId event message parent = .ok (loop', seq)) :
    loop.Emits env loop' (some turnId) event parent := by
  rw [emitMessage] at h
  cases htrace : loop.trace.emitMessage (loop.newEnvelope env (some turnId) event parent)
    message with
  | ok trace =>
    obtain ⟨-, -, hentries, -, hlast, -⟩ := StoreTrace.emitMessage_eq_ok htrace
    rw [htrace] at h
    cases h
    exact ⟨hentries, hlast, rfl, rfl, rfl⟩
  | error error =>
    rw [htrace] at h
    cases h

/-- A compaction writes its four lines. -/
lemma emitCompaction_tells {summary reason : String} {level : ContextLevel}
    {range : EventSeq × EventSeq} {removed retained epoch : ℕ} {seq : EventSeq}
    (h : loop.emitCompaction env turnId summary level reason range removed retained epoch =
      .ok (loop', seq)) : Relation.ReflTransGen (Tells env turnId) loop loop' := by
  rw [emitCompaction] at h
  obtain ⟨⟨told, seq'⟩, hmessage, h⟩ := bind_eq_ok.1 h
  cases h
  exact .tail (.tail (.tail (.single (.line (.inr rfl) rfl emit_emits))
    (.line (.inr rfl) rfl (emitMessage_emits hmessage))) (.line (.inr rfl) rfl emit_emits))
      (.line (.inr rfl) rfl emit_emits)

lemma compactRange_tells {prefixEnd replaced : ℕ} {summary reason : String} {level : ContextLevel}
    (h : loop.compactRange env turnId prefixEnd summary level reason = .ok (loop', replaced)) :
    Relation.ReflTransGen (Tells env turnId) loop loop' := by
  rw [compactRange] at h
  dsimp only at h
  split_ifs at h with hnone
  · cases h
    exact .single (.still rfl rfl le_rfl rfl rfl)
  · obtain ⟨removed, -, h⟩ := bind_eq_ok.1 h
    obtain ⟨retained, -, h⟩ := bind_eq_ok.1 h
    obtain ⟨epoch, -, h⟩ := bind_eq_ok.1 h
    obtain ⟨⟨told, seq⟩, hcompaction, h⟩ := bind_eq_ok.1 h
    cases h
    exact .head (b := loop.normalizeMessageSeqs) (.still rfl rfl le_rfl rfl rfl)
      (.tail (emitCompaction_tells hcompaction) (.still rfl rfl le_rfl rfl rfl))

lemma evictOldest_tells {target start start' dropped : ℕ} {promptOnly : Bool}
    (h : loop.evictOldest env turnId target start promptOnly = .ok (loop', dropped, start')) :
    Relation.ReflTransGen (Tells env turnId) loop loop' := by
  rw [evictOldest] at h
  dsimp only at h
  split_ifs at h with hnone
  · cases h
    exact .single (.still rfl rfl le_rfl rfl rfl)
  all_goals
    obtain ⟨removed, -, h⟩ := bind_eq_ok.1 h
    obtain ⟨retained, -, h⟩ := bind_eq_ok.1 h
    cases h
    exact .head (b := loop.normalizeMessageSeqs) (.still rfl rfl le_rfl rfl rfl)
      (.tail (.single (.line (.inr rfl) rfl emit_emits)) (.still rfl rfl le_rfl rfl rfl))

lemma checkpointTurnPrefix_tells {capsule : ContextCapsule} {start : ℕ}
    {result : Except TurnError (Option CheckpointCreated × ℕ)}
    (h : loop.checkpointTurnPrefix env turnId capsule start = (loop', result)) :
    Relation.ReflTransGen (Tells env turnId) loop loop' := by
  let prepared := (loop.normalizeMessageSeqs.prepareCheckpoint env capsule).1
  have hprepared : Relation.ReflTransGen (Tells env turnId) loop prepared :=
    .single (.still rfl rfl (Nat.le_succ _) rfl rfl)
  have hbarrier : ∀ created : CheckpointCreated,
      Relation.ReflTransGen (Tells env turnId) loop (prepared.emitBarrier env turnId created) :=
    fun created =>
      let told : TurnLoop :=
        { prepared with trace := prepared.trace.setCheckpointContextEpoch created.contextEpoch }
      have hstill : Tells env turnId prepared told := .still rfl rfl le_rfl rfl rfl
      .tail (.tail (.tail hprepared hstill) (.line (.inr rfl) rfl emit_emits))
        (.still rfl rfl le_rfl rfl rfl)
  rw [checkpointTurnPrefix] at h
  dsimp only at h
  split_ifs at h with hnone
  · cases h
    exact .single (.still rfl rfl le_rfl rfl rfl)
  · split at h
    · cases h
      exact hprepared
    · split at h
      · cases h
        exact .tail (.tail (hbarrier _) (.line (.inr rfl) rfl emit_emits))
          (.still rfl rfl le_rfl rfl rfl)
      · cases h
        exact hbarrier _
      · cases h
        exact hbarrier _

lemma compactTurnPrefix_tells {start start' removed : ℕ} {level : ContextLevel} {reason : String}
    (h : loop.compactTurnPrefix env turnId start level reason = .ok (loop', removed, start')) :
    Relation.ReflTransGen (Tells env turnId) loop loop' := by
  rw [compactTurnPrefix] at h
  dsimp only at h
  split_ifs at h with hnone
  · cases h
    exact .refl
  all_goals
    obtain ⟨⟨compacted, n⟩, hrange, h⟩ := bind_eq_ok.1 h
    cases h
    exact compactRange_tells hrange

lemma compactCompletedTurnCycles_tells {start start' target replaced : ℕ} {reason : String}
    (h : loop.compactCompletedTurnCycles env turnId start target reason =
      .ok (loop', replaced, start')) : Relation.ReflTransGen (Tells env turnId) loop loop' := by
  rw [compactCompletedTurnCycles] at h
  dsimp only at h
  split_ifs at h with hnone
  · cases h
    exact .refl
  · split at h
    · cases h
      exact .refl
    · obtain ⟨⟨compacted, n⟩, hrange, h⟩ := bind_eq_ok.1 h
      cases h
      exact compactRange_tells hrange

end Emission

end TurnLoop

open TurnLoop in
/-- An operation on the window writes lines about the window, and leaves the model alone. -/
lemma ActiveTurn.WindowMove.tells {around : Surroundings} {turnId : TurnId} {a b : TurnLoop × ℕ}
    (h : WindowMove around turnId a b) :
    Relation.ReflTransGen (Tells around.env turnId) a.1 b.1 := by
  cases h with
  | note loop start level message hturn => exact .single (.line hturn rfl emit_emits)
  | normalize loop start => exact .single (.still rfl rfl le_rfl rfl rfl)
  | evict provider h => exact tells_of_toBackup provider (evictOldest_tells h)
  | compactPrefix provider h => exact tells_of_toBackup provider (compactTurnPrefix_tells h)
  | compactCycles provider h =>
    exact tells_of_toBackup provider (compactCompletedTurnCycles_tells h)
  | checkpoint provider capsule h => exact tells_of_toBackup provider (checkpointTurnPrefix_tells h)
  | failedCheckpoint provider capsule h =>
    exact tells_of_toBackup provider (checkpointTurnPrefix_tells h)
  | recover h => exact compactRange_tells h

end Rupi
