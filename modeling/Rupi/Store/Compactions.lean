import Rupi.Store.Trace

/-!
The compactions of a trace: each opens, stages one summary and one epoch, and closes.

- `validateCompactionLifecycles`: the check of a whole trace, line by line.
- `scanCompaction_quiet`: a line that opens or closes nothing is passed over.
- `closeCompaction_eq_ok`: what a completion needs.
-/

namespace Rupi

open Fallible

/-- A compaction that was started, and the lines since. -/
structure OpenCompaction where
  start : TraceEntry
  level : ContextLevel
  since : List TraceEntry

namespace OpenCompaction

/-- The summaries of the turn. -/
def summaries (opened : OpenCompaction) : List TraceEntry :=
  opened.since.filter fun entry =>
    entry.turnId == opened.start.turnId && entry.event.isContextSummary

/-- The epoch of a line, if it is the one looked for. -/
def epochLine (contextEpoch : Nat) (entry : TraceEntry) : Option ContextCompactionEpoch :=
  match entry.event with
  | .contextCompactionEpoch epoch => if epoch.contextEpoch = contextEpoch then some epoch else none
  | _ => none

/-- The epochs of the turn that a completion names. -/
def epochs (opened : OpenCompaction) (contextEpoch : Nat) : List ContextCompactionEpoch :=
  opened.since.filterMap fun entry =>
    if entry.turnId = opened.start.turnId then epochLine contextEpoch entry else none

/-- The number of the first line with the epoch. -/
def epochSeq (opened : OpenCompaction) (contextEpoch : Nat) : Option EventSeq :=
  opened.since.findSome? fun entry => (epochLine contextEpoch entry).bind fun _ => entry.seq

end OpenCompaction

section Validate

variable (session : SessionId)

/-- A completion closes the compaction that is open. -/
def closeCompaction (opened : OpenCompaction) (entry : TraceEntry)
    (completed : ContextCompactionCompleted) : Except StoreError Unit := do
  let contextEpoch := completed.contextEpoch
  ensure (opened.level = completed.level ∧ opened.start.turnId = entry.turnId)
    (.invalid
      (s!"session {session} compaction completion does not match its start; resume requires " ++
        "recovery"))
  ensure (contextEpoch ≠ 0 ∧ completed.removedMessages ≠ 0)
    (.invalid
      (s!"session {session} has an invalid context-compaction completion; resume requires " ++
        "recovery"))
  match entry.seq with
  | none =>
    .error (.invalid
      (s!"session {session} compaction completion has no canonical sequence; resume requires " ++
        "recovery"))
  | some completionSeq =>
    match opened.summaries, opened.epochs contextEpoch with
    | [summary], [epoch] => do
      ensure (epoch.replacesFrom ≠ 0 ∧ epoch.replacesFrom ≤ epoch.replacesThrough)
        (.invalid
          (s!"session {session} compaction epoch {contextEpoch} has invalid canonical bounds; " ++
            "resume requires recovery"))
      match summary.seq with
      | none =>
        .error (.invalid
          (s!"session {session} compaction summary has no canonical sequence; resume requires " ++
            "recovery"))
      | some summarySeq =>
        match opened.epochSeq contextEpoch with
        | none =>
          .error (.invalid
            (s!"session {session} compaction epoch {contextEpoch} has no canonical sequence; " ++
              "resume requires recovery"))
        | some epochSeq =>
          ensure (summarySeq < epochSeq ∧ epochSeq < completionSeq)
            (.invalid
              (s!"session {session} compaction epoch {contextEpoch} is out of order; resume " ++
                "requires recovery"))
    | _, _ =>
      .error (.invalid
        (s!"session {session} compaction epoch {contextEpoch} has incomplete summary " ++
          "boundaries; resume requires recovery"))

/-- The line joins the open compaction. -/
def OpenCompaction.join (opened : Option OpenCompaction) (entry : TraceEntry) :
    Option OpenCompaction :=
  opened.map fun opened => { opened with since := opened.since ++ [entry] }

/-- One line: it starts a compaction, closes it, aborts it, or joins it. -/
def scanCompaction (opened : Option OpenCompaction) (entry : TraceEntry) :
    Except StoreError (Option OpenCompaction) :=
  match entry.event with
  | .contextCompactionStarted started => do
    ensure (started.level ≠ .l3Checkpoint)
      (.invalid
        (s!"session {session} has a checkpoint compaction start without a checkpoint barrier; " ++
          "resume requires recovery"))
    ensure (started.level ≠ .l0Payload ∧ opened.isNone = true)
      (.invalid
        (s!"session {session} has an ambiguous context-compaction lifecycle; resume requires " ++
          "recovery"))
    .ok (some ⟨entry, started.level, []⟩)
  | .contextCompactionCompleted completed =>
    if completed.level = .l3Checkpoint then .ok (OpenCompaction.join opened entry)
    else
      match opened with
      | none =>
        .error (.invalid
          (s!"session {session} has a compaction completion without a matching start; resume " ++
            "requires recovery"))
      | some opened => do
        closeCompaction session opened entry completed
        .ok none
  | .diagnostic _ _ =>
    if opened.any fun opened => isCompactionAbort entry opened.start.eventId then .ok none
    else .ok (OpenCompaction.join opened entry)
  | _ => .ok (OpenCompaction.join opened entry)

/-- `validate_compaction_lifecycles`. -/
def validateCompactionLifecycles (entries : List TraceEntry) : Except StoreError Unit := do
  let opened ← scan (scanCompaction session) none entries
  ensure (opened.isNone = true)
    (.invalid
      (s!"session {session} trace contains an incomplete context-compaction lifecycle; resume " ++
        "requires recovery"))

end Validate

/-! ### What is accepted -/

section Accepted

variable {session : SessionId}

/-- The line opens or closes a compaction. -/
def AgentEvent.boundsCompaction : AgentEvent → Bool
  | .contextCompactionStarted _ => true
  | .contextCompactionCompleted completed => completed.level != .l3Checkpoint
  | _ => false

lemma scanCompaction_quiet {entry : TraceEntry} (h : entry.event.boundsCompaction = false) :
    scanCompaction session none entry = .ok none := by
  unfold scanCompaction
  cases hevent : entry.event with
  | contextCompactionStarted started => simp [hevent, AgentEvent.boundsCompaction] at h
  | contextCompactionCompleted completed =>
    have hlevel : completed.level = .l3Checkpoint := by
      simpa [hevent, AgentEvent.boundsCompaction] using h
    simp [hlevel, OpenCompaction.join]
  | diagnostic level message => simp [OpenCompaction.join]
  | _ => rfl

lemma scan_quiet {entries : List TraceEntry}
    (h : ∀ entry ∈ entries, entry.event.boundsCompaction = false) :
    scan (scanCompaction session) none entries = .ok none := by
  induction entries with
  | nil => rfl
  | cons entry entries ih =>
    rw [scan_cons, scanCompaction_quiet (h entry List.mem_cons_self), ok_bind]
    exact ih fun other hother => h other (List.mem_cons_of_mem _ hother)

/-- A trace is accepted when its scan ends with nothing open. -/
lemma validateCompactionLifecycles_eq_ok {entries : List TraceEntry} :
    validateCompactionLifecycles session entries = .ok () ↔
      scan (scanCompaction session) none entries = .ok none := by
  simp only [validateCompactionLifecycles, bind_eq_ok, ensure_eq_ok]
  constructor
  · rintro ⟨opened, hscan, hnone⟩
    rwa [Option.isNone_iff_eq_none.mp hnone] at hscan
  · intro hscan
    exact ⟨none, hscan, rfl⟩

/-- The four lines of one compaction are accepted exactly when its bounds are in order. -/
lemma scan_compaction_iff {a b c d : TraceEntry} {started : ContextCompactionStarted}
    {epoch : ContextCompactionEpoch} {completed : ContextCompactionCompleted}
    (ha : a.event = .contextCompactionStarted started) (hb : b.event = .contextSummary)
    (hc : c.event = .contextCompactionEpoch epoch)
    (hd : d.event = .contextCompactionCompleted completed)
    (hlevel : started.level = .l1Ordinary ∨ started.level = .l2Phase)
    (hsame : completed.level = started.level) (hepoch : completed.contextEpoch = epoch.contextEpoch)
    (hnonzero : epoch.contextEpoch ≠ 0) (hremoved : completed.removedMessages ≠ 0)
    (hturns : b.turnId = a.turnId ∧ c.turnId = a.turnId ∧ d.turnId = a.turnId)
    {x y z : EventSeq} (hx : b.seq = some x) (hy : c.seq = some y) (hz : d.seq = some z)
    (hxy : x < y) (hyz : y < z) :
    scan (scanCompaction session) none [a, b, c, d] = .ok none ↔
      0 < epoch.replacesFrom ∧ epoch.replacesFrom ≤ epoch.replacesThrough := by
  obtain ⟨hturnb, hturnc, hturnd⟩ := hturns
  have hthree : started.level ≠ .l3Checkpoint ∧ started.level ≠ .l0Payload := by
    rcases hlevel with hl | hl <;> simp [hl]
  have hopen : scan (scanCompaction session) none [a, b, c] =
      .ok (some ⟨a, started.level, [b, c]⟩) := by
    simp [scan_cons, scanCompaction, ha, hb, hc, hthree, ensure, OpenCompaction.join]
  have hsummaries : OpenCompaction.summaries ⟨a, started.level, [b, c]⟩ = [b] := by
    simp [OpenCompaction.summaries, hb, hc, hturnb, AgentEvent.isContextSummary]
  have hepochs : OpenCompaction.epochs ⟨a, started.level, [b, c]⟩ completed.contextEpoch =
      [epoch] := by
    simp [OpenCompaction.epochs, OpenCompaction.epochLine, hb, hc, hturnb, hturnc, hepoch]
  have hseq : OpenCompaction.epochSeq ⟨a, started.level, [b, c]⟩ completed.contextEpoch =
      some y := by
    simp [OpenCompaction.epochSeq, OpenCompaction.epochLine, hb, hc, hepoch, hy]
  have hclose : scanCompaction session (some ⟨a, started.level, [b, c]⟩) d = .ok none ↔
      epoch.replacesFrom ≠ 0 ∧ epoch.replacesFrom ≤ epoch.replacesThrough := by
    have hcompleted : completed.level ≠ .l3Checkpoint := hsame ▸ hthree.1
    have hnonzero' : completed.contextEpoch ≠ 0 := hepoch ▸ hnonzero
    simp only [scanCompaction, hd, if_neg hcompleted, bind_eq_ok, closeCompaction, hsummaries,
      hepochs, hseq, hx, hz, ensure_eq_ok, exists_const]
    simp [hsame, hturnd, hnonzero', hremoved, hxy, hyz]
  change scan (scanCompaction session) none ([a, b, c] ++ [d]) = .ok none ↔ _
  rw [scan_append, hopen, ok_bind, scan_cons, bind_eq_ok]
  simp only [scan_nil, Except.ok.injEq, exists_eq_right, hclose, Nat.pos_iff_ne_zero]

end Accepted

end Rupi
