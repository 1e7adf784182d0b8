import Rupi.Runtime.LiveWindow
import Rupi.Store.Compactions

/-!
The ranges that compactions name in the journal.

A compaction takes its range from the first and the last message it replaces. A summary
stands in front of messages that are older than it, so the two need not be the least and
the greatest of the messages between them.

- `compactRange_covers_iff`: **a compaction names what it replaced exactly when the first
  message it replaces is not younger than the second.**
- `run_covers`: **so does every compaction of a run that keeps to this, and the store accepts
  the trace and the log.**
-/

namespace Rupi

open Fallible SessionLog WindowOp

namespace TurnLoop

/-- The range of an epoch covers the messages with these numbers, and no more. -/
structure Covers (epoch : ContextCompactionEpoch) (seqs : List (Option EventSeq)) : Prop where
  positive : 0 < epoch.replacesFrom
  ordered : epoch.replacesFrom ≤ epoch.replacesThrough
  from_mem : some epoch.replacesFrom ∈ seqs
  through_mem : some epoch.replacesThrough ∈ seqs
  bounds : ∀ n, some n ∈ seqs → epoch.replacesFrom ≤ n ∧ n ≤ epoch.replacesThrough

/-- The first message is not younger than the second. -/
def RangeAscends (seqs : List (Option EventSeq)) : Prop :=
  ∀ a ∈ seqs[0]?.join, ∀ b ∈ seqs[1]?.join, a ≤ b

instance (seqs : List (Option EventSeq)) : Decidable (RangeAscends seqs) := by
  unfold RangeAscends
  infer_instance

lemma rangeAscends_map_some (n : Nat) (rest : List Nat) :
    RangeAscends ((n :: rest).map some) ↔ ∀ b ∈ rest.head?, n ≤ b := by
  cases rest <;> simp [RangeAscends]

/-- In a list that ascends behind its first element, the range from the first to the last
covers the list exactly when the first is not above the second. -/
lemma covers_map_some_iff {n : Nat} {rest : List Nat} (hasc : rest.Pairwise (· < ·))
    (hpos : 0 < n) (contextEpoch : Nat) (blob : Option BlobRef) :
    Covers ⟨contextEpoch, n, (n :: rest).getLast (List.cons_ne_nil n rest), blob⟩
        ((n :: rest).map some) ↔
      RangeAscends ((n :: rest).map some) := by
  rw [rangeAscends_map_some, ← Window.extremes_iff hasc]
  constructor
  · intro h m hm
    exact h.bounds m (List.mem_map.mpr ⟨m, hm, rfl⟩)
  · intro h
    refine ⟨hpos, (h n List.mem_cons_self).2, List.mem_map.mpr ⟨n, List.mem_cons_self, rfl⟩,
      List.mem_map.mpr ⟨_, List.getLast_mem _, rfl⟩, fun m hm => ?_⟩
    obtain ⟨m', hm', heq⟩ := List.mem_map.mp hm
    obtain rfl := Option.some.inj heq
    exact h m' hm'

/-- A compaction that replaced something: its epoch covers what it replaced exactly when the
first message it replaced was not younger than the second. -/
theorem compactRange_covers_iff {env : Env} {path : String} {loop loop' : TurnLoop}
    {s : Restoring} (h : Linked env path loop s) {turnId : TurnId} {prefixEnd : Nat}
    {summary : String} {level : SummaryLevel} {reason : String} {k : Nat} (hk : 0 < k)
    (hcompact : loop.compactRange env turnId prefixEnd summary level.1 reason = .ok (loop', k)) :
    (∀ entry ∈ loop'.trace.entries.drop loop.trace.entries.length,
        ∀ epoch, entry.event = .contextCompactionEpoch epoch →
          Covers epoch (loop.replacedSeqs (min prefixEnd loop.messages.length))) ↔
      RangeAscends (loop.replacedSeqs (min prefixEnd loop.messages.length)) := by
  rcases compactRange_cases h.window.normalizeMessageSeqs_eq turnId prefixEnd summary level
    reason with (hidle | ⟨error, herror⟩) | ⟨k', loop'', record, a, b, c, d, hk', hstop, hentries,
      hlines, -, -, -, -, -, -, -, hloop⟩
  · obtain ⟨-, rfl⟩ := Prod.mk.inj (Except.ok.inj (hidle.symm.trans hcompact))
    exact absurd hk (lt_irrefl 0)
  · exact absurd (herror.symm.trans hcompact) (by simp)
  obtain ⟨rfl, -⟩ := Prod.mk.inj (Except.ok.inj (hloop.symm.trans hcompact))
  have hle : min prefixEnd loop.messages.length ≤ loop.messages.length := Nat.min_le_right _ _
  generalize min prefixEnd loop.messages.length = stop at *
  obtain ⟨n, rest, hpos, hasc, hseqs, hrange⟩ := h.replaced hk' hstop hle
  obtain ⟨blob, hepoch⟩ := hlines.opened_event
  have hcovers := covers_map_some_iff hasc hpos (loop.contextEpoch + 1) blob
  rw [hrange] at hepoch
  rw [hseqs]
  change (∀ entry ∈ loop''.trace.entries.drop loop.trace.entries.length, _) ↔ _
  rw [hentries, List.drop_left]
  constructor
  · intro hall
    exact hcovers.mp (hall c (by simp) _ hepoch)
  · intro hok entry hentry epoch heq
    simp only [List.mem_cons, List.not_mem_nil, or_false] at hentry
    rcases hentry with rfl | rfl | rfl | rfl
    · simp [hlines.started_event] at heq
    · simp [hlines.summary_event] at heq
    · rw [hepoch] at heq
      obtain rfl := AgentEvent.contextCompactionEpoch.inj heq
      exact hcovers.mpr hok
    · simp [hlines.completed_event] at heq

/-! ### Runs -/

/-- The line is no part of a compaction of a summary level. -/
def OutsideCompaction (line : TraceEntry) : Prop :=
  line.event.boundsCompaction = false ∧ ∀ epoch, line.event ≠ .contextCompactionEpoch epoch

lemma outsideCompaction_of_plain {line : TraceEntry} {event : AgentEvent}
    (heq : line.event = event) (hplain : event.rewritesWindow = false) :
    OutsideCompaction line := by
  cases event <;> simp_all [OutsideCompaction, AgentEvent.boundsCompaction,
    AgentEvent.rewritesWindow]

section Steps

variable {env : Env} {path : String} {loop : TurnLoop} {s : Restoring}

lemma lines_of_checkpoints {loop' : TurnLoop} {capsule : ContextCapsule}
    {removed retained stop : Nat}
    (h : Checkpoints env loop loop' capsule removed retained stop) :
    ∃ lines, loop'.trace.entries = loop.trace.entries ++ lines ∧
      ∀ line ∈ lines, OutsideCompaction line := by
  obtain ⟨created, a, b, hentries, ha, hb⟩ := h.entries
  refine ⟨[a, b], hentries, fun line hline => ?_⟩
  simp only [List.mem_cons, List.not_mem_nil, or_false] at hline
  rcases hline with rfl | rfl
  · simp [OutsideCompaction, ha, AgentEvent.boundsCompaction]
  · simp [OutsideCompaction, hb, AgentEvent.boundsCompaction]

/-- An operation that does not compact writes no line of a compaction. -/
lemma lines_of_basic (h : Linked env path loop s) {op : WindowOp} (hbasic : op.isBasic = true)
    (hcutAt : op.prefixEnd? = none)
    (hfits : op.isCheckpoint = true → loop.messages.length ≤ u32Max) :
    ∃ lines, (op.step env path loop).trace.entries = loop.trace.entries ++ lines ∧
      ∀ line ∈ lines, OutsideCompaction line := by
  have hnorm := h.window.normalizeMessageSeqs_eq
  have hsame : ∃ lines, loop.trace.entries = loop.trace.entries ++ lines ∧
      ∀ line ∈ lines, OutsideCompaction line := ⟨[], by simp, by simp⟩
  cases op with
  | push turnId event message parent =>
    obtain ⟨loop', record, line, hemit, hwrites, -⟩ :=
      loop.emitMessage_writes env turnId event.1 message parent
    refine ⟨[line], ?_, fun other hother => ?_⟩
    · rw [step, recordMessage, hemit]
      exact hwrites.entries
    · obtain rfl := List.mem_singleton.mp hother
      exact outsideCompaction_of_plain hwrites.event_eq event.2
  | note turnId event parent =>
    refine ⟨[_], (loop.emit_writes env turnId event.1 parent).entries, fun other hother => ?_⟩
    obtain rfl := List.mem_singleton.mp hother
    exact outsideCompaction_of_plain rfl event.2
  | evictOldest turnId target turnHistoryStart promptOnly =>
    rw [step]
    rcases evictOldest_writes hnorm turnId target turnHistoryStart promptOnly with
      heq | ⟨loop', line, reduced, hwrites, -, -, -, -, hloop⟩
    · rw [heq]
      exact hsame
    · refine ⟨[line], by rw [hloop]; exact hwrites.entries, fun other hother => ?_⟩
      obtain rfl := List.mem_singleton.mp hother
      simp [OutsideCompaction, hwrites.event_eq, AgentEvent.boundsCompaction]
  | checkpoint turnId capsule =>
    rw [step]
    rcases checkpoint_cases hnorm (hfits rfl) turnId capsule with heq | hcheckpoint
    · rw [heq]
      exact hsame
    · exact lines_of_checkpoints hcheckpoint
  | checkpointTurnPrefix turnId capsule turnHistoryStart =>
    rw [step]
    rcases checkpointTurnPrefix_cases hnorm (hfits rfl) turnId capsule turnHistoryStart with
      heq | hprepared | ⟨stop, -, -, hcheckpoint⟩
    · rw [heq]
      exact hsame
    · rw [hprepared]
      exact hsame
    · exact lines_of_checkpoints hcheckpoint
  | resume =>
    cases hresume : loop.resume env path with
    | error error =>
      rw [step, hresume]
      exact hsame
    | ok loop' =>
      obtain ⟨-, -, -, -, -, -, hentries, -⟩ := resume_eq_ok hresume
      rw [step, hresume]
      exact ⟨[], by rw [List.append_nil]; exact hentries, by simp⟩
  | compactRange => simp [prefixEnd?] at hcutAt
  | compact | compactPrefix | compactWithSummaryOr | compactPhase | compactTurnPrefix
  | compactCompletedTurnCycles => simp [isBasic] at hbasic

/-- A compaction whose first message is not younger than its second writes four lines that
the store accepts. -/
lemma lines_of_compactRange (h : Linked env path loop s) {turnId : TurnId} {prefixEnd : Nat}
    {summary : String} {level : SummaryLevel} {reason : String}
    (hok : RangeAscends (loop.replacedSeqs (min prefixEnd loop.messages.length)))
    (session : SessionId) :
    ∃ lines, ((WindowOp.compactRange turnId prefixEnd summary level reason).step env path
        loop).trace.entries = loop.trace.entries ++ lines ∧
      scan (scanCompaction session) none lines = .ok none ∧
      ∀ line ∈ lines, ∀ epoch, line.event = .contextCompactionEpoch epoch →
        Covers epoch (loop.replacedSeqs (min prefixEnd loop.messages.length)) := by
  rw [step]
  rcases compactRange_cases h.window.normalizeMessageSeqs_eq turnId prefixEnd summary level
    reason with hidle | ⟨k, loop', record, a, b, c, d, hk, hstop, hentries, hlines, -, -, -, -,
      -, -, -, hloop⟩
  · exact ⟨[], by rw [hidle.settle_eq, List.append_nil], rfl, by simp⟩
  have hcovers := (compactRange_covers_iff h hk hloop).mpr hok
  have hdrop : loop'.trace.entries.drop loop.trace.entries.length = [a, b, c, d] := by
    rw [hentries, List.drop_left]
  change ∀ entry ∈ loop'.trace.entries.drop loop.trace.entries.length, _ at hcovers
  rw [hdrop] at hcovers
  refine ⟨[a, b, c, d], by rw [hloop]; exact hentries, ?_, hcovers⟩
  obtain ⟨blob, hepoch⟩ := hlines.opened_event
  have hrange := hcovers c (by simp) _ hepoch
  have hturn (line : TraceEntry) (hline : line ∈ [a, b, c, d]) := hlines.turnId_eq line hline
  have hturns : b.turnId = a.turnId ∧ c.turnId = a.turnId ∧ d.turnId = a.turnId := by
    simp [hturn a, hturn b, hturn c, hturn d]
  have hseqs := hlines.seq_eq
  simp only [List.map_cons, List.map_nil, List.cons.injEq, and_true] at hseqs
  obtain ⟨-, hb, hc, hd⟩ := hseqs
  exact (scan_compaction_iff hlines.started_event hlines.summary_event hepoch
    hlines.completed_event level.2 rfl rfl (Nat.succ_ne_zero _) hk.ne' hturns hb hc hd
    (Nat.lt_succ_self _) (Nat.lt_succ_self _)).mpr ⟨hrange.positive, hrange.ordered⟩

/-- What a compaction replaces ascends from its first message on, and a checkpoint counts the
window in 32 bits. -/
def Ascending (env : Env) (loop : TurnLoop) (op : WindowOp) : Prop :=
  (∀ n ∈ op.cut env loop, RangeAscends (loop.replacedSeqs (min n loop.messages.length))) ∧
    (op.isCheckpoint = true → loop.messages.length ≤ u32Max)

instance (env : Env) (loop : TurnLoop) (op : WindowOp) : Decidable (Ascending env loop op) := by
  unfold Ascending
  infer_instance

lemma Ascending.inOrder (h : Linked env path loop s) {op : WindowOp}
    (hok : Ascending env loop op) : InOrder env loop op := by
  refine ⟨fun n hn => ?_, hok.2⟩
  have hascends := hok.1 n hn
  have hle : min n loop.messages.length ≤ loop.messages.length := Nat.min_le_right _ _
  generalize min n loop.messages.length = stop at *
  rcases le_or_gt stop loop.protectedEnd with hstop | hstop
  · have hempty : loop.replacedSeqs stop = [] := by
      rw [replacedSeqs]
      exact List.drop_of_length_le (le_trans (List.length_take_le _ _) hstop)
    simp [hempty, RangeOrdered]
  · obtain ⟨first, rest, hpos, hasc, hseqs, -⟩ :=
      h.replaced (Nat.sub_pos_of_lt hstop) (by omega) hle
    rw [hseqs] at hascends ⊢
    rw [rangeOrdered_map_some]
    exact ((covers_map_some_iff hasc hpos 0 none).mpr hascends).ordered

/-- Every epoch that the operation adds to the trace covers what it replaced. -/
def EpochsCover (env : Env) (path : String) (loop : TurnLoop) (op : WindowOp) : Prop :=
  ∀ line ∈ (op.step env path loop).trace.entries.drop loop.trace.entries.length,
    ∀ epoch, line.event = .contextCompactionEpoch epoch →
      ∃ n ∈ op.cut env loop, Covers epoch (loop.replacedSeqs (min n loop.messages.length))

/-- One operation: the lines it adds are accepted, and their epochs cover what it replaced. -/
lemma ascending_step (h : Linked env path loop s) {op : WindowOp} (hok : Ascending env loop op)
    (session : SessionId) :
    EpochsCover env path loop op ∧
      ∃ lines, (op.step env path loop).trace.entries = loop.trace.entries ++ lines ∧
        scan (scanCompaction session) none lines = .ok none := by
  -- it is enough that the added lines are accepted, and that an epoch among them comes of a cut
  suffices hlines : ∃ lines, (op.step env path loop).trace.entries = loop.trace.entries ++ lines ∧
      scan (scanCompaction session) none lines = .ok none ∧
      ∀ line ∈ lines, ∀ epoch, line.event = .contextCompactionEpoch epoch →
        ∃ n ∈ op.cut env loop, Covers epoch (loop.replacedSeqs (min n loop.messages.length)) by
    obtain ⟨lines, hentries, hscan, hcovers⟩ := hlines
    refine ⟨?_, lines, hentries, hscan⟩
    unfold EpochsCover
    rw [hentries, List.drop_left]
    exact hcovers
  rw [step_eq_basic]
  cases hbasic : op.basic env loop with
  | none => exact ⟨[], by simp, rfl, by simp⟩
  | some op' =>
    obtain ⟨hisBasic, hcheckpoint⟩ := isBasic_of_basic hbasic
    have hcut : op.cut env loop = op'.prefixEnd? := by rw [cut, hbasic]; rfl
    cases hcutAt : op'.prefixEnd? with
    | none =>
      obtain ⟨lines, hentries, houtside⟩ :=
        lines_of_basic h hisBasic hcutAt fun hop => hok.2 (hcheckpoint hop)
      exact ⟨lines, hentries, scan_quiet fun line hline => (houtside line hline).1,
        fun line hline epoch heq => absurd heq ((houtside line hline).2 epoch)⟩
    | some n =>
      have hascends := hok.1 n (by rw [hcut, hcutAt]; rfl)
      obtain ⟨turnId, summary, level, reason, rfl⟩ : ∃ turnId summary level reason,
          op' = .compactRange turnId n summary level reason := by
        cases op' <;> simp_all [prefixEnd?]
      obtain ⟨lines, hentries, hscan, hcovers⟩ := lines_of_compactRange h hascends session
      exact ⟨lines, hentries, hscan,
        fun line hline epoch heq => ⟨n, by rw [hcut]; rfl, hcovers line hline epoch heq⟩⟩

/-- **Along a run whose compactions replace messages that ascend from the first on, every
epoch covers what it replaced, and the store accepts the trace and the log.** -/
theorem run_covers (hfresh : Function.Injective env.fresh) {header : SessionHeader}
    (hheader : validateHeader path header = .ok ()) {ops : List WindowOp}
    (hok : Run.Along (step env path) (Ascending env) (begun header) ops) (session : SessionId) :
    Run.Along (step env path) (EpochsCover env path) (begun header) ops ∧
      validateCompactionLifecycles session
        (Run.run (step env path) (begun header) ops).trace.entries = .ok () ∧
      ∃ restored, (Run.run (step env path) (begun header) ops).restored path = .ok restored := by
  let inv (loop : TurnLoop) : Prop := (∃ s, Linked env path loop s) ∧
    scan (scanCompaction session) none loop.trace.entries = .ok none
  have hstep (loop : TurnLoop) (op : WindowOp) (hinv : inv loop) (hop : Ascending env loop op) :
      inv (op.step env path loop) ∧ EpochsCover env path loop op := by
    obtain ⟨⟨s, hlinked⟩, hscan⟩ := hinv
    obtain ⟨hcover, lines, hentries, hlines⟩ := ascending_step hlinked hop session
    refine ⟨⟨linked_step hfresh hlinked (hop.inOrder hlinked), ?_⟩, hcover⟩
    rw [hentries, scan_append, hscan, ok_bind, hlines]
  have hstart : inv (begun header) := ⟨⟨.start, begun_linked hheader⟩, rfl⟩
  obtain ⟨⟨s, hlinked⟩, hscan⟩ :=
    Run.Along.invariant (fun loop op hinv hop => (hstep loop op hinv hop).1) hok hstart
  obtain ⟨header', hrestored⟩ := hlinked.restored_eq
  exact ⟨Run.Along.strengthen hstep hok hstart, validateCompactionLifecycles_eq_ok.mpr hscan,
    _, hrestored⟩

end Steps

namespace ShortSession

theorem run_covers_ops :
    Run.Along (step env "s") (EpochsCover env "s") (begun header) ops ∧
      validateCompactionLifecycles "s"
        (Run.run (step env "s") (begun header) ops).trace.entries = .ok () ∧
      ∃ restored, (Run.run (step env "s") (begun header) ops).restored "s" = .ok restored :=
  run_covers fresh_injective (by decide) (by decide) "s"

/-- The summary of the first compaction, the fifth line, stands before the third. The second
compaction names the range from the fifth to the third, and the store refuses the session. -/
theorem twice_not_covered :
    Function.Injective env.fresh ∧ validateHeader "s" header = .ok () ∧
      (Run.run (step env "s") (begun header) (twice.take 4)).messageSeqs = [some 5, some 3] ∧
      (Run.run (step env "s") (begun header) twice).trace.entries[9]?.map TraceEntry.event =
        some (.contextCompactionEpoch ⟨2, 5, 3, none⟩) ∧
      validateCompactionLifecycles "s"
        (Run.run (step env "s") (begun header) twice).trace.entries ≠ .ok () ∧
      ((Run.run (step env "s") (begun header) twice).restored "s").toOption = none := by
  refine ⟨fresh_injective, ?_, ?_, ?_, ?_, ?_⟩
  · decide
  · decide
  · decide
  · intro hok
    have herror : (validateCompactionLifecycles "s"
        (Run.run (step env "s") (begun header) twice).trace.entries).toOption = none := by
      decide
    rw [hok] at herror
    simp [Except.toOption] at herror
  · decide

end ShortSession

end TurnLoop

end Rupi
