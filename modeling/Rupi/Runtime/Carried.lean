import Rupi.Runtime.BuildRequest

/-!
What a dispatched request holds.

- `FitsWindow`: the prompt, the reserve and the output fit the window.
- `TurnLoop.Carries`: the history of the turn, or the summary of its completed cycles.
- `TurnLoop.Relieved`: what the action of the context policy leaves of the window.
- `relieve_ok`, `evictForPrompt_ok`: the policy and the last eviction keep the front.
- **`TurnLoop.buildRequest_carries_iff`**: a dispatched request fits, and when it carries these.
-/

namespace Rupi

open Attempt Fallible

namespace TurnLoop

variable (env : Env) (rules : RequestRules) (turnId : TurnId)

/-- The messages that no operation but a checkpoint replaces: the capsule of one. -/
def front (loop : TurnLoop) : List Message := loop.messages.take loop.protectedEnd

/-- The history of the current turn, behind what is protected. -/
def ownHistory (loop : TurnLoop) (turnHistoryStart : ℕ) : List Message :=
  loop.messages.drop (max turnHistoryStart loop.protectedEnd)

/-- Messages hold the protected front and behind it the history of the turn, or a summary in front
of what is left of it behind completed tool cycles. -/
def Carries (loop : TurnLoop) (turnHistoryStart : ℕ) (front messages : List Message) : Prop :=
  ∃ mid, messages = front ++ mid ++ loop.ownHistory turnHistoryStart ∨
    ∃ boundary summary,
      safeCompletedCycleBoundary loop.messages (min turnHistoryStart loop.messages.length)
          boundary = true ∧
        messages = front ++ mid ++ .user summary :: loop.messages.drop boundary

/-- The history of the turn is still there. -/
def Intact (loop loop' : TurnLoop) (turnHistoryStart turnHistoryStart' : ℕ) : Prop :=
  loop.ownHistory turnHistoryStart <:+ loop'.ownHistory turnHistoryStart'

/-- Completed cycles of the turn, and all history in front of it, are summarized. -/
structure Summarized (loop loop' : TurnLoop) (turnHistoryStart turnHistoryStart' : ℕ) : Prop where
  front : loop'.front = loop.front
  floor : loop'.protectedEnd < turnHistoryStart'
  start : turnHistoryStart' = loop'.protectedEnd + 1
  cut : ∃ boundary summary,
    safeCompletedCycleBoundary loop.messages (min turnHistoryStart loop.messages.length) boundary =
        true ∧
      max turnHistoryStart loop.protectedEnd < boundary ∧
      loop'.messages = loop.front ++ .user summary :: loop.messages.drop boundary

end TurnLoop

/-- The prompt, the reserve and the output fit the window, and the output is useful; without a
ceiling for it the prompt fits. -/
def FitsWindow (provider : Backup) (request : BudgetedRequest) : Prop :=
  match provider.maxOutputTokens with
  | some desired => ∃ output, request.maxOutputTokens = some output ∧
      estimateTokens request.request + provider.contextWindow / 10 + output ≤
          provider.contextWindow ∧
        min desired minimumUsefulOutputTokens ≤ output
  | none => estimateTokens request.request ≤ provider.contextWindow

namespace RequestBudget

/-- A budget that is not unusable fits. -/
lemma fits_of_usable {request : ModelRequest}
    (h : (RequestBudget.forRequest request).isUnusable = false) :
    match request.desiredOutputTokens with
    | some desired => ∃ output, (RequestBudget.forRequest request).effectiveOutputTokens =
          some output ∧
        estimateTokens request + request.contextWindow / 10 + output ≤ request.contextWindow ∧
          min desired minimumUsefulOutputTokens ≤ output
    | none => saturatingAdd (estimateTokens request) 0 ≤ request.contextWindow := by
  rw [isUnusable] at h
  split_ifs at h with hzero
  rw [Bool.or_eq_false_iff, decide_eq_false_iff_not, not_lt] at h
  obtain ⟨hroom, hstarved⟩ := h
  rw [forRequest] at hroom hstarved hzero ⊢
  dsimp only at hroom hstarved hzero ⊢
  cases hdesired : request.desiredOutputTokens with
  | none => simpa only [headroom, hdesired, Option.isSome_none, Bool.false_eq_true, if_false]
      using hroom
  | some desired =>
    refine ⟨_, rfl, ?_⟩
    rw [starved] at hstarved
    simp only [hdesired, Option.map_some, Bool.and_eq_false_iff, decide_eq_false_iff_not,
      not_lt] at hstarved
    have hpositive : desired ≠ 0 := fun h0 => hzero (by rw [hdesired, h0])
    have huseful : (0 : ℕ) < minimumUsefulOutputTokens := by decide
    dsimp only
    omega

end RequestBudget

namespace TurnLoop

section Windows

variable {env : Env} {rules : RequestRules} {turnId : TurnId} {loop loop' : TurnLoop}
  {turnHistoryStart turnHistoryStart' target : ℕ}

/-- The messages and the barrier in front of them are the same. -/
def SameMessages (loop loop' : TurnLoop) : Prop :=
  loop'.messages = loop.messages ∧ loop'.checkpointFloor = loop.checkpointFloor

lemma SameMessages.trans {loop'' : TurnLoop} (h : loop.SameMessages loop')
    (h' : loop'.SameMessages loop'') : loop.SameMessages loop'' :=
  ⟨h'.1.trans h.1, h'.2.trans h.2⟩

lemma SameMessages.protectedEnd (h : loop.SameMessages loop') :
    loop'.protectedEnd = loop.protectedEnd := by
  rw [TurnLoop.protectedEnd, h.1, h.2, TurnLoop.protectedEnd]

lemma SameMessages.front (h : loop.SameMessages loop') : loop'.front = loop.front := by
  rw [TurnLoop.front, h.1, h.protectedEnd, TurnLoop.front]

lemma SameMessages.ownHistory (h : loop.SameMessages loop') :
    loop'.ownHistory turnHistoryStart = loop.ownHistory turnHistoryStart := by
  rw [TurnLoop.ownHistory, h.1, h.protectedEnd, TurnLoop.ownHistory]

lemma sameMessages_note (loop : TurnLoop) (turn : Option TurnId) (level : DiagnosticLevel)
    (message : String) : loop.SameMessages (loop.note env turn level message) := ⟨rfl, rfl⟩

lemma protectedEnd_le : loop.protectedEnd ≤ loop.messages.length := min_le_right _ _

lemma length_front : loop.front.length = loop.protectedEnd := by
  rw [front, List.length_take, min_eq_left protectedEnd_le]

/-- What stands behind the protected front is replaced up to a place in front of the history of the
turn, or behind completed cycles of it. -/
lemma front_splice {stop : ℕ} {replacement : List Message} (hstop : loop.protectedEnd ≤ stop)
    (hgap : replacement = [] ∨ loop.protectedEnd < stop) (hle : stop ≤ loop.messages.length)
    (hmessages : loop'.messages = splice loop.messages loop.protectedEnd stop replacement)
    (hfloor : loop'.checkpointFloor = loop.checkpointFloor) :
    loop'.protectedEnd = loop.protectedEnd ∧ loop'.front = loop.front ∧
      loop'.messages = loop.front ++ (replacement ++ loop.messages.drop stop) := by
  have hform : loop'.messages = loop.front ++ (replacement ++ loop.messages.drop stop) := by
    rw [hmessages, splice, List.append_assoc, front]
  have hlength : loop'.messages.length =
      loop.protectedEnd + (replacement.length + (loop.messages.length - stop)) := by
    rw [hform, List.length_append, length_front, List.length_append, List.length_drop]
  have hend : loop'.protectedEnd = loop.protectedEnd := by
    rw [TurnLoop.protectedEnd, hlength, hfloor]
    rw [TurnLoop.protectedEnd] at hstop hgap ⊢
    rcases hgap with rfl | hgap
    · rw [List.length_nil]
      omega
    · omega
  refine ⟨hend, ?_, hform⟩
  rw [TurnLoop.front, hend, hform, List.take_left' length_front]

lemma emitCompaction_same {summary reason : String} {level : ContextLevel}
    {range : EventSeq × EventSeq} {removed retained epoch : ℕ} {seq : EventSeq}
    (h : loop.emitCompaction env turnId summary level reason range removed retained epoch =
      .ok (loop', seq)) : loop.SameMessages loop' := by
  obtain ⟨noted, -, -, hok, ⟨-, -, -, -, -, -, hwindow⟩, -⟩ := emitMessage_writes env
    (loop.emit env (some turnId) (.contextCompactionStarted ⟨level, reason⟩) none).1 turnId
      .contextSummary (.user summary) none
  rw [emitCompaction] at h
  dsimp only at h
  rw [hok, ok_bind] at h
  cases h
  exact ⟨hwindow.messages, hwindow.checkpointFloor⟩

/-- A compaction replaces nothing, or the messages up to its end by its summary. -/
lemma compactRange_ok {prefixEnd k : ℕ} {summary reason : String} {level : ContextLevel}
    (h : loop.compactRange env turnId prefixEnd summary level reason = .ok (loop', k)) :
    k = 0 ∧ loop.SameMessages loop' ∨
      0 < k ∧ loop.protectedEnd < min prefixEnd loop.messages.length ∧
        loop'.messages = splice loop.messages loop.protectedEnd
          (min prefixEnd loop.messages.length) [.user summary] ∧
        loop'.checkpointFloor = loop.checkpointFloor := by
  have hend : loop.normalizeMessageSeqs.protectedEnd = loop.protectedEnd := rfl
  have hlength : loop.normalizeMessageSeqs.messages.length = loop.messages.length := rfl
  rw [compactRange] at h
  dsimp only at h
  rw [hend, hlength] at h
  split_ifs at h with hnone
  · cases h
    exact Or.inl ⟨rfl, rfl, rfl⟩
  · obtain ⟨replaced, hreplaced, h⟩ := bind_eq_ok.1 h
    obtain ⟨retained, -, h⟩ := bind_eq_ok.1 h
    obtain ⟨epoch, -, h⟩ := bind_eq_ok.1 h
    obtain ⟨⟨noted, seq⟩, hemit, h⟩ := bind_eq_ok.1 h
    obtain ⟨-, rfl⟩ := asU32_eq_ok.1 hreplaced
    cases h
    have hsame := emitCompaction_same hemit
    exact Or.inr ⟨Nat.sub_pos_of_lt (not_le.1 hnone), not_le.1 hnone,
      congrArg (splice · _ _ _) hsame.1, hsame.2⟩

/-- An eviction takes messages out behind the protected front. -/
lemma evictOldest_ok {promptOnly : Bool} {dropped : ℕ}
    (h : loop.evictOldest env turnId target turnHistoryStart promptOnly =
      .ok (loop', dropped, turnHistoryStart')) :
    dropped = loop.evictionCount env target turnHistoryStart promptOnly ∧
      loop.protectedEnd + dropped ≤ loop.evictableEnd turnHistoryStart ∧
      loop'.messages =
        splice loop.messages loop.protectedEnd (loop.protectedEnd + dropped) [] ∧
      loop'.checkpointFloor = loop.checkpointFloor ∧
      turnHistoryStart' = if loop.protectedEnd < turnHistoryStart then turnHistoryStart - dropped
        else turnHistoryStart := by
  obtain ⟨hdropped, -, hmessages⟩ := evictOldest_eq_ok h
  obtain ⟨hle, -⟩ := isSafeDrop_evictionCount env loop target turnHistoryStart promptOnly
  rw [← hdropped] at hle
  have hend := loop.protectedEnd_le_evictableEnd turnHistoryStart
  refine ⟨hdropped, by omega, hmessages, ?_⟩
  rw [evictOldest] at h
  dsimp only at h
  split_ifs at h with hzero hstart
  · cases h
    exact ⟨rfl, by rw [Nat.sub_zero, ite_self]⟩
  all_goals
    obtain ⟨count, hcount, h⟩ := bind_eq_ok.1 h
    obtain ⟨retained, -, h⟩ := bind_eq_ok.1 h
    obtain ⟨-, rfl⟩ := asU32_eq_ok.1 hcount
    cases h
  · exact ⟨rfl, (if_pos hstart).symm⟩
  · exact ⟨rfl, (if_neg hstart).symm⟩

/-- An eviction leaves the front and the history of the turn. -/
lemma evictOldest_intact {promptOnly : Bool} {dropped : ℕ}
    (h : loop.evictOldest env turnId target turnHistoryStart promptOnly =
      .ok (loop', dropped, turnHistoryStart')) :
    loop'.front = loop.front ∧
      loop'.ownHistory turnHistoryStart' = loop.ownHistory turnHistoryStart := by
  obtain ⟨-, hle, hmessages, hfloor, hstart⟩ := evictOldest_ok h
  have hend : loop.evictableEnd turnHistoryStart ≤ loop.messages.length := min_le_right _ _
  obtain ⟨hsame, hfront, hform⟩ := front_splice (Nat.le_add_right _ _) (Or.inl rfl) (hle.trans hend)
    hmessages hfloor
  refine ⟨hfront, ?_⟩
  rw [ownHistory, ownHistory, hsame, hform, List.nil_append]
  have hsplit : max turnHistoryStart' loop.protectedEnd =
      loop.front.length + (max turnHistoryStart' loop.protectedEnd - loop.protectedEnd) := by
    rw [length_front]
    omega
  rw [hsplit, List.drop_length_add_append, List.drop_drop]
  refine congrArg (loop.messages.drop ·) ?_
  rw [evictableEnd] at hle
  have hp : loop.protectedEnd ≤ loop.messages.length := protectedEnd_le
  split_ifs at hstart <;> omega

/-- What the action of the policy leaves: the front, or the capsule of a new checkpoint, and the
history of the turn or the summary of its completed cycles. -/
structure Relieved (loop loop' : TurnLoop) (turnHistoryStart turnHistoryStart' : ℕ) : Prop where
  front : loop'.front = loop.front ∨
    ∃ capsule : ContextCapsule, loop'.front = [.user capsule.formatForModel]
  history : loop.Intact loop' turnHistoryStart turnHistoryStart' ∨
    loop.Summarized loop' turnHistoryStart turnHistoryStart'

lemma Relieved.of_own (hfront : loop'.front = loop.front)
    (hown : loop'.ownHistory turnHistoryStart' = loop.ownHistory turnHistoryStart) :
    loop.Relieved loop' turnHistoryStart turnHistoryStart' where
  front := Or.inl hfront
  history := Or.inl (by rw [Intact, hown])

/-- Messages that are the same relieve nothing. -/
lemma Relieved.of_same {noted : TurnLoop} (hsame : loop.SameMessages noted)
    (h : noted.Relieved loop' turnHistoryStart turnHistoryStart') :
    loop.Relieved loop' turnHistoryStart turnHistoryStart' := by
  refine ⟨h.front.imp_left fun hfront => hfront.trans hsame.front, h.history.imp ?_ ?_⟩
  · intro hintact
    rwa [Intact, hsame.ownHistory] at hintact
  · rintro ⟨hfront, hfloor, hstart, boundary, summary, hsafe, hmax, hmessages⟩
    rw [hsame.1] at hsafe hmessages
    rw [hsame.protectedEnd] at hmax
    rw [hsame.front] at hmessages
    exact ⟨hfront.trans hsame.front, hfloor, hstart, boundary, summary, hsafe, hmax, hmessages⟩

lemma Relieved.note {noted : TurnLoop} (hsame : loop'.SameMessages noted)
    (h : loop.Relieved loop' turnHistoryStart turnHistoryStart') :
    loop.Relieved noted turnHistoryStart turnHistoryStart' := by
  refine ⟨h.front.imp (fun hfront => hsame.front.trans hfront) fun ⟨capsule, hcapsule⟩ =>
    ⟨capsule, hsame.front.trans hcapsule⟩, h.history.imp ?_ ?_⟩
  · intro hintact
    rwa [Intact, hsame.ownHistory]
  · rintro ⟨hfront, hfloor, hstart, boundary, summary, hsafe, hmax, hmessages⟩
    exact ⟨hsame.front.trans hfront, by rwa [hsame.protectedEnd], by rwa [hsame.protectedEnd],
      boundary, summary, hsafe, hmax, hsame.1.trans hmessages⟩

lemma compactTurnPrefix_ok {level : ContextLevel} {reason : String} {compacted : ℕ}
    (h : loop.compactTurnPrefix env turnId turnHistoryStart level reason =
      .ok (loop', compacted, turnHistoryStart')) :
    compacted = 0 ∧ loop.SameMessages loop' ∧ turnHistoryStart' = turnHistoryStart ∨
      loop.Relieved loop' turnHistoryStart turnHistoryStart' ∧ 0 < compacted := by
  rw [compactTurnPrefix] at h
  dsimp only at h
  split_ifs at h with hnone
  · cases h
    exact Or.inl ⟨rfl, ⟨rfl, rfl⟩, rfl⟩
  · obtain ⟨⟨compactedLoop, removed⟩, hrange, h⟩ := bind_eq_ok.1 h
    cases h
    obtain ⟨rfl, hsame⟩ | ⟨hpos, hlt, hmessages, hfloor⟩ := compactRange_ok hrange
    · exact Or.inl ⟨rfl, hsame, if_neg (lt_irrefl 0)⟩
    · rw [min_eq_left (min_le_right _ _)] at hlt hmessages
      obtain ⟨hend, hfront, hform⟩ := front_splice hlt.le (Or.inr hlt) (min_le_right _ _)
        hmessages hfloor
      refine Or.inr ⟨.of_own hfront ?_, hpos⟩
      have hfloor' : compactedLoop.checkpointFloor = loop.protectedEnd := by
        rw [hfloor, protectedEnd]
        rw [protectedEnd] at hlt
        omega
      rw [if_pos hpos, hfloor', ownHistory, hend, max_eq_left (Nat.le_add_right _ 1), hform,
        ← length_front, List.drop_length_add_append, List.drop_one, List.singleton_append,
        List.tail_cons, ownHistory]
      rcases le_total turnHistoryStart loop.messages.length with hle | hle
      · rw [min_eq_left hle, max_eq_left]
        rw [min_eq_left hle] at hlt
        exact hlt.le
      · rw [min_eq_right hle, List.drop_length, List.drop_eq_nil_of_le]
        exact hle.trans (le_max_left _ _)

lemma selectCycles_mem {cycleStart boundary : ℕ} {reason summary : String} {boundaries : List ℕ}
    {selected : Option (ℕ × String)}
    (h : loop.selectCycles env cycleStart target reason boundaries selected =
      some (boundary, summary)) :
    selected = some (boundary, summary) ∨ boundary ∈ boundaries ∧
      safeCompletedCycleBoundary loop.messages cycleStart boundary = true := by
  induction boundaries generalizing selected with
  | nil => exact Or.inl h
  | cons first boundaries ih =>
    rw [selectCycles] at h
    split_ifs at h with hsafe
    · dsimp only at h
      split_ifs at h with hfits
      · cases h
        exact Or.inr ⟨List.mem_cons_self, hsafe⟩
      · obtain heq | ⟨hmem, hsafe'⟩ := ih h
        · cases heq
          exact Or.inr ⟨List.mem_cons_self, hsafe⟩
        · exact Or.inr ⟨List.mem_cons_of_mem _ hmem, hsafe'⟩
    · exact (ih h).imp_right (And.imp_left (List.mem_cons_of_mem _))

lemma compactCompletedTurnCycles_ok {reason : String} {compacted : ℕ}
    (h : loop.compactCompletedTurnCycles env turnId turnHistoryStart target reason =
      .ok (loop', compacted, turnHistoryStart')) :
    compacted = 0 ∧ loop.SameMessages loop' ∧ turnHistoryStart' = turnHistoryStart ∨
      loop.Relieved loop' turnHistoryStart turnHistoryStart' ∧ 0 < compacted := by
  rw [compactCompletedTurnCycles] at h
  dsimp only at h
  split_ifs at h with hnone
  · cases h
    exact Or.inl ⟨rfl, ⟨rfl, rfl⟩, rfl⟩
  rw [not_or, not_le, not_lt] at hnone
  split at h
  · cases h
    exact Or.inl ⟨rfl, ⟨rfl, rfl⟩, rfl⟩
  · rename_i boundary summary hselected
    obtain ⟨⟨compactedLoop, replaced⟩, hrange, h⟩ := bind_eq_ok.1 h
    cases h
    obtain ⟨rfl, hsame⟩ | ⟨hpos, hlt, hmessages, hfloor⟩ := compactRange_ok hrange
    · exact Or.inl ⟨rfl, hsame, if_neg (lt_irrefl 0)⟩
    · obtain hnil | ⟨hmem, hsafe⟩ := selectCycles_mem hselected
      · cases hnil
      obtain ⟨k, hk, rfl⟩ := List.mem_map.1 hmem
      rw [List.mem_range] at hk
      rw [min_eq_left (by omega)] at hlt hmessages
      obtain ⟨hend, hfront, hform⟩ := front_splice hlt.le (Or.inr hlt) (by omega) hmessages hfloor
      have hfloor' : compactedLoop.checkpointFloor = compactedLoop.protectedEnd := by
        rw [hend, hfloor, protectedEnd]
        rw [protectedEnd] at hlt
        omega
      refine Or.inr ⟨⟨Or.inl hfront, Or.inr ⟨hfront, ?_, ?_, _, summary, hsafe, ?_, hform⟩⟩, hpos⟩
      · rw [if_pos hpos, hfloor']
        exact Nat.lt_succ_self _
      · rw [if_pos hpos, hfloor']
      · omega

/-- An operation that succeeds is that of the loop. -/
lemma attempted_eq_ok {α : Type} {op : TurnLoop → Except TurnError (TurnLoop × α)} {result : α} :
    attempted op loop = (loop', .ok result) ↔ op loop = .ok (loop', result) := by
  rw [attempted]
  cases hop : op loop with
  | ok done =>
    obtain ⟨done, value⟩ := done
    exact ⟨fun h => (by cases h; rfl), fun h => (by cases h; rfl)⟩
  | error error => exact ⟨fun h => (by cases h), fun h => (by cases h)⟩

lemma summarizeOrEvict_ok {reason : String} {idle : TurnLoop → TurnLoop}
    (hidle : ∀ loop : TurnLoop, loop.SameMessages (idle loop))
    (h : summarizeOrEvict env turnId turnHistoryStart target reason idle loop =
      (loop', .ok turnHistoryStart')) :
    loop.Relieved loop' turnHistoryStart turnHistoryStart' := by
  rw [summarizeOrEvict] at h
  obtain ⟨cycled, ⟨compacted, start⟩, hcycles, hrest⟩ := Attempt.bind_eq_ok.1 h
  rw [attempted_eq_ok] at hcycles
  dsimp only at hrest
  obtain ⟨rfl, hsame, rfl⟩ | ⟨hrelieved, hpos⟩ := compactCompletedTurnCycles_ok hcycles
  · rw [if_pos rfl] at hrest
    obtain ⟨evictedLoop, ⟨evicted, start'⟩, hevict, hrest⟩ := Attempt.bind_eq_ok.1 hrest
    rw [attempted_eq_ok] at hevict
    obtain ⟨hfront, hown⟩ := evictOldest_intact hevict
    dsimp only at hrest
    rw [modify_bind] at hrest
    cases hrest
    refine .of_same hsame (.note ?_ (.of_own hfront hown))
    split_ifs
    · exact hidle _
    · exact ⟨rfl, rfl⟩
  · rw [if_neg hpos.ne'] at hrest
    cases hrest
    exact hrelieved

lemma compactFor_ok {level : ContextLevel} {reason : String}
    (h : compactFor env rules turnId turnHistoryStart level reason target loop =
      (loop', .ok turnHistoryStart')) :
    loop.Relieved loop' turnHistoryStart turnHistoryStart' := by
  rw [compactFor] at h
  obtain ⟨phased, ⟨compacted, start⟩, hphase, hrest⟩ := Attempt.bind_eq_ok.1 h
  have hcases : compacted = 0 ∧ loop.SameMessages phased ∧ start = turnHistoryStart ∨
      loop.Relieved phased turnHistoryStart start ∧ 0 < compacted := by
    rw [compactInFront] at hphase
    split_ifs at hphase
    · exact compactTurnPrefix_ok (attempted_eq_ok.1 hphase)
    · cases hphase
      exact Or.inl ⟨rfl, ⟨rfl, rfl⟩, rfl⟩
  dsimp only at hrest
  obtain ⟨rfl, hsame, rfl⟩ | ⟨hrelieved, hpos⟩ := hcases
  · rw [if_pos rfl] at hrest
    exact .of_same hsame (summarizeOrEvict_ok (fun loop => sameMessages_note loop _ _ _) hrest)
  · rw [if_neg hpos.ne'] at hrest
    cases hrest
    exact hrelieved

/-- A checkpoint puts its capsule in place of the history in front of the turn. -/
lemma checkpointTurnPrefix_ok {capsule : ContextCapsule} {created : Option CheckpointCreated}
    (h : loop.checkpointTurnPrefix env turnId capsule turnHistoryStart =
      (loop', .ok (created, turnHistoryStart'))) :
    loop.Relieved loop' turnHistoryStart turnHistoryStart' := by
  rw [checkpointTurnPrefix] at h
  dsimp only at h
  split_ifs at h with hnone
  · cases h
    exact .of_own rfl rfl
  · split at h
    · cases h
    · split at h
      · cases h
        refine ⟨Or.inr ⟨capsule, rfl⟩, Or.inl ?_⟩
        have hend : (loop.messages.drop (max turnHistoryStart loop.protectedEnd)) <:+
            loop.messages.drop (min turnHistoryStart loop.messages.length) := by
          rw [← Nat.add_sub_cancel' ((min_le_left turnHistoryStart _).trans
            (le_max_left turnHistoryStart loop.protectedEnd)), ← List.drop_drop]
          exact List.drop_suffix _ _
        exact hend
      · cases h
      · cases h

lemma checkpointFor_ok {state : ContextState} {reason : String}
    (h : checkpointFor env rules turnId turnHistoryStart state reason loop =
      (loop', .ok turnHistoryStart')) :
    loop.Relieved loop' turnHistoryStart turnHistoryStart' := by
  rw [checkpointFor] at h
  dsimp only at h
  split_ifs at h
  · obtain ⟨checkpointed, ⟨created, start⟩, hcheckpoint, h⟩ := Attempt.bind_eq_ok.1 h
    have hrelieved := checkpointTurnPrefix_ok hcheckpoint
    cases created with
    | some created => cases h; exact .note (sameMessages_note _ _ _ _) hrelieved
    | none => cases h; exact .note (sameMessages_note _ _ _ _) hrelieved
  · cases h
    exact .note (sameMessages_note _ _ _ _) (.of_own rfl rfl)

lemma mapError_eq_ok {ε ε' α : Type} {f : ε → ε'} {m : Attempt TurnLoop ε α} {result : α} :
    m.mapError f loop = (loop', .ok result) ↔ m loop = (loop', .ok result) := by
  rw [Attempt.mapError]
  cases hm : m loop with
  | mk left outcome =>
    cases outcome with
    | ok value => exact ⟨fun h => (by cases h; rfl), fun h => (by cases h; rfl)⟩
    | error error => exact ⟨fun h => (by cases h), fun h => (by cases h)⟩

lemma relieve_ok {state : ContextState} {action : ContextAction}
    (h : relieve env rules turnId turnHistoryStart state action loop =
      (loop', .ok turnHistoryStart')) :
    loop.Relieved loop' turnHistoryStart turnHistoryStart' := by
  cases action with
  | refuse reason => cases h
  | compact level reason target => exact compactFor_ok (mapError_eq_ok.1 h)
  | suggestCheckpoint reason => exact checkpointFor_ok (mapError_eq_ok.1 h)
  | reducePayload reason =>
    exact summarizeOrEvict_ok (fun loop => sameMessages_note loop _ _ _) (mapError_eq_ok.1 h)
  | warn tokens threshold => cases h; exact .of_own rfl rfl
  | keep => cases h; exact .of_own rfl rfl

lemma relieved_ok (h : relieved env rules turnId turnHistoryStart loop =
    (loop', .ok turnHistoryStart')) : loop.Relieved loop' turnHistoryStart turnHistoryStart' := by
  rw [relieved, get_bind, modify_bind] at h
  refine .of_same ?_ (relieve_ok h)
  rw [warned]
  split
  · exact sameMessages_note _ _ _ _
  · exact ⟨rfl, rfl⟩

/-- How many messages the last eviction takes out. -/
def lastDropped (env : Env) (rules : RequestRules) (loop : TurnLoop) (turnHistoryStart : ℕ) : ℕ :=
  if (loop.budget rules.provider).isUnusable then
    loop.evictionCount env (loop.budget rules.provider).promptTarget turnHistoryStart true
  else 0

/-- The last eviction leaves the front and the history of the turn. -/
lemma evictForPrompt_ok
    (h : evictForPrompt env rules turnId turnHistoryStart loop = (loop', .ok turnHistoryStart')) :
    loop'.front = loop.front ∧
      loop'.ownHistory turnHistoryStart' = loop.ownHistory turnHistoryStart ∧
      loop.protectedEnd + lastDropped env rules loop turnHistoryStart ≤
        max loop.protectedEnd turnHistoryStart ∧
      loop'.messages = loop.front ++
        loop.messages.drop (loop.protectedEnd + lastDropped env rules loop turnHistoryStart) := by
  rw [evictForPrompt, get_bind] at h
  rw [lastDropped]
  dsimp only at h
  split_ifs at h ⊢
  · obtain ⟨evicted, ⟨dropped, start⟩, hevict, h⟩ := Attempt.bind_eq_ok.1 h
    cases h
    rw [attempted_eq_ok] at hevict
    obtain ⟨rfl, hle, hmessages, hfloor, -⟩ := evictOldest_ok hevict
    obtain ⟨hfront, hown⟩ := evictOldest_intact hevict
    have hend : loop.evictableEnd turnHistoryStart ≤ loop.messages.length := min_le_right _ _
    obtain ⟨-, -, hform⟩ :=
      front_splice (Nat.le_add_right _ _) (Or.inl rfl) (hle.trans hend) hmessages hfloor
    refine ⟨hfront, hown, ?_, hform⟩
    rw [evictableEnd] at hle
    omega
  · cases h
    refine ⟨rfl, rfl, le_max_left _ _, ?_⟩
    rw [front, Nat.add_zero, List.take_append_drop]

/-- The dispatched request shows what the last eviction leaves, with a budget that is usable. -/
lemma fitRequest_ok {request : BudgetedRequest}
    (h : fitRequest env rules turnId turnHistoryStart loop =
      (loop', .ok (turnHistoryStart', request))) :
    request.request = rules.provider.assembleRequest loop'.messages ∧
      request.maxOutputTokens = (loop'.budget rules.provider).effectiveOutputTokens ∧
      (loop'.budget rules.provider).isUnusable = false ∧ loop'.front = loop.front ∧
      loop'.ownHistory turnHistoryStart' = loop.ownHistory turnHistoryStart ∧
      loop.protectedEnd + lastDropped env rules loop turnHistoryStart ≤
        max loop.protectedEnd turnHistoryStart ∧
      loop'.messages = loop.front ++
        loop.messages.drop (loop.protectedEnd + lastDropped env rules loop turnHistoryStart) := by
  rw [fitRequest] at h
  obtain ⟨evicted, start, hevict, h⟩ := Attempt.bind_eq_ok.1 h
  have hevicted := evictForPrompt_ok (mapError_eq_ok.1 hevict)
  rw [get_bind] at h
  split_ifs at h with husable
  · cases h
  · rw [modify_bind] at h
    cases h
    have hsame : evicted.SameMessages
        (evicted.noteReduced env turnId (evicted.budget rules.provider)) := by
      rw [noteReduced]
      split_ifs
      · exact sameMessages_note _ _ _ _
      · exact ⟨rfl, rfl⟩
    have hbudget : (evicted.noteReduced env turnId (evicted.budget rules.provider)).budget
        rules.provider = evicted.budget rules.provider := by
      rw [TurnLoop.budget, hsame.1]
      rfl
    rw [hbudget, hsame.front, hsame.ownHistory, hsame.1]
    exact ⟨rfl, rfl, Bool.eq_false_of_not_eq_true husable, hevicted⟩

/-- A dispatched request fits the window. -/
lemma fitRequest_fits {request : BudgetedRequest}
    (h : fitRequest env rules turnId turnHistoryStart loop =
      (loop', .ok (turnHistoryStart', request)))
    (hsize : estimateTokens request.request < 2 ^ 64) : FitsWindow rules.provider request := by
  obtain ⟨hrequest, houtput, husable, -⟩ := fitRequest_ok h
  have hfits := RequestBudget.fits_of_usable husable
  rw [hrequest] at hsize
  rw [FitsWindow, houtput, hrequest]
  cases hdesired : rules.provider.maxOutputTokens with
  | some desired =>
    rwa [show (rules.provider.assembleRequest loop'.messages).desiredOutputTokens = some desired
      from hdesired] at hfits
  | none =>
    rw [show (rules.provider.assembleRequest loop'.messages).desiredOutputTokens = none from
      hdesired] at hfits
    dsimp only at hfits
    rw [saturatingAdd, Nat.add_zero, min_eq_left (Nat.le_sub_one_of_lt hsize)] at hfits
    exact hfits

/-- The summary of completed cycles of the turn is not what the last eviction takes out. -/
def Spares (env : Env) (rules : RequestRules) (turnId : TurnId) (loop : TurnLoop)
    (turnHistoryStart : ℕ) : Prop :=
  ∀ loop' turnHistoryStart', relieved env rules turnId turnHistoryStart loop =
      (loop', .ok turnHistoryStart') →
    loop.Intact loop' turnHistoryStart turnHistoryStart' ∨
      lastDropped env rules loop' turnHistoryStart' = 0

/-- Behind completed cycles, the message in front is one of a tool. -/
lemma role_of_safeCompletedCycleBoundary {messages : List Message} {start boundary : ℕ}
    (h : safeCompletedCycleBoundary messages start boundary = true) :
    start < boundary ∧ boundary ≤ messages.length ∧
      ∀ message, messages[boundary - 1]? = some message → message.role = .tool := by
  rw [safeCompletedCycleBoundary] at h
  split_ifs at h with hrange hrole
  rw [not_or, not_le, not_lt] at hrange
  refine ⟨hrange.1, hrange.2, fun message hmessage => ?_⟩
  rw [hmessage, Option.any_some, bne_iff_ne, ne_eq, not_not] at hrole
  exact hrole

/-- The summary of the cycles is gone for good. -/
lemma not_carries_drop {front : List Message} {boundary : ℕ}
    (hmax : max turnHistoryStart loop.protectedEnd < boundary)
    (hle : boundary ≤ loop.messages.length) :
    ¬loop.Carries turnHistoryStart front (front ++ loop.messages.drop boundary) := by
  rintro ⟨mid, hown | ⟨boundary', summary, hsafe, heq⟩⟩
  · rw [List.append_assoc, List.append_cancel_left_eq] at hown
    have hlength := congrArg List.length hown
    rw [ownHistory, List.length_append, List.length_drop, List.length_drop] at hlength
    omega
  · rw [List.append_assoc, List.append_cancel_left_eq] at heq
    obtain ⟨-, hle', hrole⟩ := role_of_safeCompletedCycleBoundary hsafe
    have hlength := congrArg List.length heq
    rw [List.length_append, List.length_cons, List.length_drop, List.length_drop] at hlength
    -- the message behind `mid` is the summary, and stands in front of the second boundary
    have hget : loop.messages[boundary' - 1]? = some (.user summary) := by
      have hat : (loop.messages.drop boundary)[mid.length]? = some (.user summary) := by
        rw [heq, List.getElem?_append_right le_rfl, Nat.sub_self, List.getElem?_cons_zero]
      rw [List.getElem?_drop] at hat
      have hindex : boundary' - 1 = boundary + mid.length := by omega
      rw [hindex, hat]
    cases hrole _ hget

end Windows

end TurnLoop

namespace RequestRun

/-- Completed cycles have a summary of four hundred characters. -/
def env : Env where
  session := "s"
  traceId := "t"
  fresh n := String.ofList (List.replicate n 'e')
  clock n := n
  configured _ := true
  putPayload _ := none
  estimate _ _ := 0
  estimateMessages messages := messages.length
  summarize _ := "summary"
  summarizeCycles _ _ := String.ofList (List.replicate 400 's')

/-- A question, and the one tool cycle about it. -/
def loop : TurnLoop where
  messages := [.user "question", ⟨.assistant, [.toolCall ⟨"c", "read", .null⟩]⟩,
    ⟨.tool, [.toolResult ⟨"c", "read", .succeeded, "text", false, false⟩]⟩]
  messageSeqs := [none, none, none]
  checkpointFloor := 0
  checkpointCitedFrom := none
  contextEpoch := 0
  history := none
  envelopes := []
  epochIndex := 0
  activeModel := ⟨"p", "m"⟩
  trace := ⟨[], none, [], false, none, none⟩
  issued := 0

/-- Ordinary compaction is asked for whatever the window. -/
def rules (contextWindow : ℕ) : RequestRules where
  provider := ⟨contextWindow, none, [], none⟩
  policy _ _ := .compact .l1Ordinary "pressure" 0
  warning _ _ := none
  boundaryBlocked := false
  summarizes := true
  autoCheckpoint := false
  synthesizeCapsule _ _ reason := ⟨1, reason, [], [], [], "", [], [], []⟩
  sinceLastCompactionMs := 0

end RequestRun

end Rupi
