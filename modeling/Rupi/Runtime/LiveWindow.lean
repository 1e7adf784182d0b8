import Rupi.Runtime.WindowOps

/-!
The live window of a loop against the window its log restores to.

Both sides follow one abstract `Window`: `TurnLoop.Shows` reads it off the vectors of a
loop, `Restoring.window` off the state of a restore. Every operation writes records that
change the restored window the way the loop changed its own.

- `Logged`, `Linked`: the log restores, to the window the loop shows.
- `linked_push`, `linked_evict`, `linked_compactRange`, `linked_checkpoint`,
  `linked_checkpointTurnPrefix`, `linked_resume`: one operation.
- `run_restores`: **after a run whose compactions name their ranges in order, the log
  restores the live window.**
- `compactRange_restores_iff`: after a compaction that does not, it does not restore at all.
-/

namespace Rupi

open Fallible SessionLog WindowOp

/-- Identifiers that were not drawn before the n-th draw. -/
def Env.undrawn (env : Env) (n : Nat) : Set String := {id | ∃ k, n ≤ k ∧ env.fresh k = id}

section Draws

variable (env : Env) {m n : Nat}

lemma Env.undrawn_subset (h : m ≤ n) : env.undrawn n ⊆ env.undrawn m := by
  rintro id ⟨k, hk, rfl⟩
  exact ⟨k, le_trans h hk, rfl⟩

lemma Env.fresh_mem_undrawn (h : m ≤ n) : env.fresh n ∈ env.undrawn m := ⟨n, h, rfl⟩

variable {env} in
lemma Env.fresh_not_mem_undrawn (hfresh : Function.Injective env.fresh) (h : m < n) :
    env.fresh m ∉ env.undrawn n := by
  rintro ⟨k, hk, heq⟩
  obtain rfl := hfresh heq
  omega

end Draws

namespace TurnLoop

/-! ### The window of a loop -/

/-- The loop holds a window: the capsule in front, with the floor right behind it. -/
structure Shows (loop : TurnLoop) (w : Window Message (Message × Option EventSeq)) : Prop where
  messages_eq : loop.messages = w.capsule.toList ++ w.tail.map Prod.fst
  messageSeqs_eq :
    loop.messageSeqs = w.capsule.toList.map (fun _ => none) ++ w.tail.map Prod.snd
  floor_eq : loop.checkpointFloor = w.capsule.toList.length

lemma splice_behind {α : Type} (front tail replacement : List α) {start : Nat}
    (hstart : start = front.length) (n : Nat) :
    splice (front ++ tail) start (start + n) replacement =
      front ++ replacement ++ tail.drop n := by
  rw [splice, hstart, List.take_left, List.drop_append, List.drop_of_length_le (by omega)]
  simp

section Shows

variable {loop loop' : TurnLoop} {w : Window Message (Message × Option EventSeq)}

lemma begun_shows (header : SessionHeader) : (begun header).Shows .empty := ⟨rfl, rfl, rfl⟩

lemma Shows.length_eq (h : loop.Shows w) :
    loop.messages.length = w.capsule.toList.length + w.tail.length := by
  rw [h.messages_eq, List.length_append, List.length_map]

lemma Shows.protectedEnd_eq (h : loop.Shows w) :
    loop.protectedEnd = w.capsule.toList.length := by
  rw [protectedEnd, h.length_eq, h.floor_eq]
  omega

lemma Shows.normalizeMessageSeqs_eq (h : loop.Shows w) : loop.normalizeMessageSeqs = loop := by
  have hlength : loop.messageSeqs.length = loop.messages.length := by
    rw [h.messageSeqs_eq, h.messages_eq]
    simp
  unfold normalizeMessageSeqs
  rw [← hlength, Nat.sub_self, List.replicate_zero, List.append_nil, List.take_length]

lemma Shows.sameWindow (h : loop.Shows w) (hsame : loop.SameWindow loop') : loop'.Shows w :=
  ⟨hsame.messages.trans h.messages_eq, hsame.messageSeqs.trans h.messageSeqs_eq,
    hsame.checkpointFloor.trans h.floor_eq⟩

lemma Shows.push (h : loop.Shows w) (message : Message) (seq : Option EventSeq) :
    (loop.pushMessage message seq).Shows (w.push (message, seq)) where
  messages_eq := by simp [pushMessage, Window.push, h.messages_eq]
  messageSeqs_eq := by simp [pushMessage, Window.push, h.messageSeqs_eq]
  floor_eq := h.floor_eq

/-- The sequence numbers behind the capsule that a prefix covers. -/
lemma Shows.replacedSeqs_eq (h : loop.Shows w) (n : Nat) :
    loop.replacedSeqs (w.capsule.toList.length + n) = (w.tail.take n).map Prod.snd := by
  rw [replacedSeqs, h.protectedEnd_eq, h.messageSeqs_eq, List.take_append, List.drop_append]
  simp [List.take_of_length_le]

/-- Taking out the oldest messages behind the capsule evicts them. -/
lemma Shows.evict (h : loop.Shows w) {start : Nat} (hstart : start = loop.protectedEnd)
    (n : Nat) (hmessages : loop'.messages = splice loop.messages start (start + n) [])
    (hseqs : loop'.messageSeqs = splice loop.messageSeqs start (start + n) [])
    (hfloor : loop'.checkpointFloor = loop.checkpointFloor) : loop'.Shows (w.evict n) where
  messages_eq := by
    rw [hmessages, h.messages_eq, splice_behind _ _ _ (hstart.trans h.protectedEnd_eq)]
    simp [Window.evict]
  messageSeqs_eq := by
    rw [hseqs, h.messageSeqs_eq, splice_behind _ _ _ (by simp [hstart, h.protectedEnd_eq])]
    simp [Window.evict]
  floor_eq := hfloor.trans h.floor_eq

/-- Putting a message in their place summarizes them. -/
lemma Shows.summarize (h : loop.Shows w) {start : Nat} (hstart : start = loop.protectedEnd)
    (n : Nat) {message : Message} {seq : Option EventSeq}
    (hmessages : loop'.messages = splice loop.messages start (start + n) [message])
    (hseqs : loop'.messageSeqs = splice loop.messageSeqs start (start + n) [seq])
    (hfloor : loop'.checkpointFloor = loop.checkpointFloor) :
    loop'.Shows (w.summarize n (message, seq)) where
  messages_eq := by
    rw [hmessages, h.messages_eq, splice_behind _ _ _ (hstart.trans h.protectedEnd_eq)]
    simp [Window.summarize]
  messageSeqs_eq := by
    rw [hseqs, h.messageSeqs_eq, splice_behind _ _ _ (by simp [hstart, h.protectedEnd_eq])]
    simp [Window.summarize]
  floor_eq := hfloor.trans h.floor_eq

/-- A new capsule in the place of everything in front of a message resets the window. -/
lemma Shows.installCapsule (h : loop.Shows w) (capsule : ContextCapsule) {stop : Nat} {n : Nat}
    (hstop : stop = w.capsule.toList.length + n) (epoch : Nat) :
    (loop.installCapsule capsule stop epoch).Shows (w.reset n (capsuleMessage capsule)) where
  messages_eq := by
    simp [TurnLoop.installCapsule, Window.reset, h.messages_eq, hstop, capsuleMessage,
      List.drop_append]
  messageSeqs_eq := by
    simp [TurnLoop.installCapsule, Window.reset, h.messageSeqs_eq, hstop, List.drop_append]
  floor_eq := rfl

end Shows

/-! ### The log of a loop -/

/-- The log restores to `s`, and what the loop draws next is new to it. -/
structure Logged (env : Env) (path : String) (loop : TurnLoop) (s : Restoring) : Prop where
  reads : ∃ header rest, loop.trace.records = .header header :: rest ∧
    validateHeader path header = .ok () ∧ scan (restoreRecord path) .start rest = .ok s
  settled : s.Settled loop.contextEpoch loop.trace.nextSeq (env.undrawn loop.issued)

/-- The log restores the window the loop shows. Behind its first message the window is in the
order of the journal: only a summary is younger than what comes after it. -/
structure Linked (env : Env) (path : String) (loop : TurnLoop) (s : Restoring) : Prop
    extends Logged env path loop s where
  window : loop.Shows s.window
  numbers : ∃ ns, Window.Numbers Prod.snd loop.trace.nextSeq s.window ns

section Logged

variable {env : Env} {path : String} {loop loop' : TurnLoop} {s s' : Restoring}

lemma begun_linked {header : SessionHeader} (hheader : validateHeader path header = .ok ()) :
    Linked env path (begun header) .start where
  reads := ⟨header, [], rfl, hheader, rfl⟩
  settled := Restoring.start_settled
  window := begun_shows header
  numbers := ⟨[], Window.Numbers.start⟩

lemma nextSeq_pos (loop : TurnLoop) : 0 < loop.trace.nextSeq := by
  unfold StoreTrace.nextSeq
  cases loop.trace.lastSeq <;> simp

/-- A log that restores is read to its end. -/
lemma Logged.restored_eq (h : Logged env path loop s) :
    ∃ header, loop.restored path = .ok (s.finish header ⟨loop.trace.records, 0⟩) := by
  obtain ⟨header, rest, hrecords, hheader, hscan⟩ := h.reads
  refine ⟨header, ?_⟩
  simp only [restored, restoreFromReport, readHeader, hrecords, List.head?_cons, hheader,
    List.tail_cons, ok_bind, hscan]

/-- More records are read on from where the log ended. -/
lemma Logged.extend (h : Logged env path loop s) {records : List SessionRecord}
    (hrecords : loop'.trace.records = loop.trace.records ++ records)
    (hscan : scan (restoreRecord path) s records = .ok s')
    (hsettled : s'.Settled loop'.contextEpoch loop'.trace.nextSeq (env.undrawn loop'.issued)) :
    Logged env path loop' s' where
  reads := by
    obtain ⟨header, rest, hold, hheader, hread⟩ := h.reads
    refine ⟨header, rest ++ records, by rw [hrecords, hold]; rfl, hheader, ?_⟩
    exact scan_append_eq_ok.mpr ⟨s, hread, hscan⟩
  settled := hsettled

/-- An event without a record leaves the log as it is. -/
lemma Logged.quiet (h : Logged env path loop s) {turnId : Option TurnId} {event : AgentEvent}
    {line : TraceEntry} (hwrites : loop.Writes loop' turnId event line)
    (hrecords : loop'.trace.records = loop.trace.records) : Logged env path loop' s := by
  refine h.extend (by rw [hrecords, List.append_nil]) rfl ?_
  have hmono := h.settled.mono (Nat.le_succ loop.trace.nextSeq)
    (Env.undrawn_subset env (Nat.le_add_right loop.issued 2))
  rw [hwrites.nextSeq, hwrites.issued, hwrites.window.contextEpoch]
  exact hmono

/-- A message with its event is read as the next of the window. -/
lemma Logged.message (hfresh : Function.Injective env.fresh) (h : Logged env path loop s)
    {turnId : Option TurnId} {event : AgentEvent} {line : TraceEntry} {record : SessionMessage}
    (hwrites : loop.Writes loop' turnId event line)
    (hrecords : loop'.trace.records = loop.trace.records ++ [.message record])
    (hseq : record.seq = some loop.trace.nextSeq) (hid : record.eventId = env.fresh loop.issued) :
    Logged env path loop' (s.push record) := by
  obtain ⟨hread, hsettled⟩ := @restoreMessage_settled path _ _ _ (env.undrawn (loop.issued + 2)) s
    h.settled (nextSeq_pos loop) record
    (by rw [hid]; exact Env.fresh_mem_undrawn env le_rfl) hseq
    (Env.undrawn_subset env (Nat.le_add_right loop.issued 2))
    (by rw [hid]; exact Env.fresh_not_mem_undrawn hfresh (by omega))
  refine h.extend hrecords ?_ ?_
  · rw [scan_cons, restoreRecord, hread]
    rfl
  · rw [hwrites.nextSeq, hwrites.issued, hwrites.window.contextEpoch]
    exact hsettled

/-- A plain event leaves no record, or that of a model epoch. -/
lemma projection_of_plain (trace : StoreTrace) (envelope : EventEnvelope)
    (hplain : envelope.event.rewritesWindow = false) :
    trace.projection envelope = none ∨ ∃ epoch, trace.projection envelope = some (.epoch epoch) := by
  unfold StoreTrace.projection
  cases hevent : envelope.event with
  | modelEpochStarted started => exact .inr ⟨_, rfl⟩
  | contextReduced reduced =>
    rw [hevent] at hplain
    have hzero : ¬ 0 < reduced.removedMessages := by simpa [AgentEvent.rewritesWindow] using hplain
    exact .inl (if_neg hzero)
  | contextCompactionStarted _ | contextCompactionCompleted _ | contextSummary
  | contextCompactionEpoch _ | checkpointCreated _ =>
    rw [hevent] at hplain
    simp [AgentEvent.rewritesWindow] at hplain
  | _ => exact .inl rfl

/-! ### One operation -/

lemma linked_note (h : Linked env path loop s) (turnId : Option TurnId) (event : PlainEvent)
    (parent : Option EventId) :
    ∃ s', Linked env path (loop.emit env turnId event.1 parent).1 s' := by
  have hwrites := loop.emit_writes env turnId event.1 parent
  have hrecords := loop.emit_records env turnId event.1 parent
  have hwindow : (loop.emit env turnId event.1 parent).1.Shows s.window :=
    h.window.sameWindow hwrites.window
  have hnumbers : ∃ ns, Window.Numbers Prod.snd
      (loop.emit env turnId event.1 parent).1.trace.nextSeq s.window ns := by
    obtain ⟨ns, hns⟩ := h.numbers
    exact ⟨ns, hns.mono (by rw [hwrites.nextSeq]; exact Nat.le_succ _)⟩
  rcases projection_of_plain loop.trace (loop.newEnvelope env turnId event.1 parent)
    event.2 with hnone | ⟨epoch, hsome⟩
  · rw [hnone, Option.toList_none, List.append_nil] at hrecords
    exact ⟨s, h.toLogged.quiet hwrites hrecords, hwindow, hnumbers⟩
  · rw [hsome, Option.toList_some] at hrecords
    have hquiet := h.settled.mono (Nat.le_succ loop.trace.nextSeq)
      (Env.undrawn_subset env (Nat.le_add_right loop.issued 2))
    refine ⟨{ s with epochs := s.epochs ++ [epoch] }, h.toLogged.extend hrecords rfl ?_, hwindow,
      hnumbers⟩
    rw [hwrites.nextSeq, hwrites.issued, hwrites.window.contextEpoch]
    exact ⟨hquiet.1, hquiet.2, hquiet.3, hquiet.4, hquiet.5, hquiet.6, hquiet.7, hquiet.8⟩

lemma linked_push (hfresh : Function.Injective env.fresh) (h : Linked env path loop s)
    (turnId : TurnId) (event : AgentEvent) (message : Message) (parent : Option EventId) :
    ∃ loop' s', loop.recordMessage env turnId event message parent = .ok loop' ∧
      Linked env path loop' s' := by
  obtain ⟨loop', record, line, hemit, hwrites, hrecords, -, -, hmessage, hseq, hid⟩ :=
    loop.emitMessage_writes env turnId event message parent
  have hlogged := h.toLogged.message hfresh hwrites hrecords hseq hid
  refine ⟨loop'.pushMessage message (some loop.trace.nextSeq), s.push record, ?_,
    ⟨hlogged.reads, hlogged.settled⟩, ?_, ?_⟩
  · rw [recordMessage, hemit]
    rfl
  · rw [Restoring.window_push, shown, hmessage, hseq]
    exact (h.window.sameWindow hwrites.window).push message _
  · obtain ⟨ns, hns⟩ := h.numbers
    rw [Restoring.window_push, shown, hseq]
    have hpushed := hns.push (nextSeq_pos loop) (a := (record.message, some loop.trace.nextSeq)) rfl
    have hnext : (loop'.pushMessage message (some loop.trace.nextSeq)).trace.nextSeq =
        loop.trace.nextSeq + 1 := hwrites.nextSeq
    rw [hnext]
    exact ⟨_, hpushed⟩

lemma window_tail_length (s : Restoring) : s.window.tail.length = s.messages.length := by
  simp [Restoring.window, Window.map]

lemma linked_evict (hfresh : Function.Injective env.fresh) (h : Linked env path loop s)
    (turnId : TurnId) (target turnHistoryStart : Nat) (promptOnly : Bool) :
    ∃ s', Linked env path
      (settle loop (loop.evictOldest env turnId target turnHistoryStart promptOnly)) s' := by
  rcases evictOldest_writes h.window.normalizeMessageSeqs_eq turnId target turnHistoryStart
    promptOnly with hsame | ⟨loop', line, reduced, hwrites, hrecords, hpos, hle, hretained, hloop⟩
  · exact ⟨s, by rw [hsame]; exact h⟩
  have hlength := h.window.length_eq
  have hprotected := h.window.protectedEnd_eq
  have havailable : reduced.removedMessages ≤ s.window.tail.length := by omega
  have hcounted : reduced.retainedMessages = s.window.capsule.toList.length +
      (s.window.tail.length - reduced.removedMessages) := by omega
  obtain ⟨hread, hsettled, hwindow⟩ := @restoreReduction_settled path _ _ _
    (env.undrawn (loop.issued + 2)) s h.settled (nextSeq_pos loop)
    ⟨env.fresh loop.issued, some loop.trace.nextSeq, reduced.reason, reduced.removedMessages,
      reduced.retainedMessages⟩
    (Env.fresh_mem_undrawn env le_rfl) rfl (Env.undrawn_subset env (Nat.le_add_right _ 2))
    (Env.fresh_not_mem_undrawn hfresh (by omega)) hpos havailable hcounted
  rw [hloop]
  refine ⟨_, h.toLogged.extend hrecords (by rw [scan_cons, restoreRecord, hread]; rfl) ?_, ?_, ?_⟩
  · change Restoring.Settled loop'.contextEpoch loop'.trace.nextSeq (env.undrawn loop'.issued) _
    rw [hwrites.nextSeq, hwrites.issued, hwrites.window.contextEpoch]
    exact hsettled
  · rw [hwindow]
    exact h.window.evict rfl _ rfl rfl hwrites.window.checkpointFloor
  · obtain ⟨ns, hns⟩ := h.numbers
    rw [hwindow]
    refine ⟨_, (hns.evict reduced.removedMessages).mono ?_⟩
    change loop.trace.nextSeq ≤ loop'.trace.nextSeq
    rw [hwrites.nextSeq]
    exact Nat.le_succ _

lemma findSome?_map_some {α : Type} (as : List α) : (as.map some).findSome? id = as.head? := by
  cases as <;> simp

/-- What a compaction replaces: numbers that ascend behind the first, which with the last is
its range. -/
lemma Linked.replaced (h : Linked env path loop s) {k stop : Nat} (hk : 0 < k)
    (hstop : stop = loop.protectedEnd + k) (hle : stop ≤ loop.messages.length) :
    ∃ n rest, 0 < n ∧ rest.Pairwise (· < ·) ∧ loop.replacedSeqs stop = (n :: rest).map some ∧
      loop.replacedRange stop = (n, (n :: rest).getLast (List.cons_ne_nil n rest)) := by
  obtain ⟨ns, hns⟩ := h.numbers
  have hlength := h.window.length_eq
  have hprotected := h.window.protectedEnd_eq
  obtain ⟨n, rest, htake⟩ : ∃ n rest, ns.take k = n :: rest := by
    have hnonempty : (ns.take k).length = k := by
      rw [List.length_take, ← hns.length_eq]
      omega
    exact List.exists_cons_of_length_pos (by omega)
  have hseqs : loop.replacedSeqs stop = (n :: rest).map some := by
    rw [hstop, hprotected, h.window.replacedSeqs_eq, List.map_take, hns.tail_eq,
      ← List.map_take, htake]
  have hlast : ((n :: rest).map some).reverse.findSome? id =
      some ((n :: rest).getLast (List.cons_ne_nil n rest)) := by
    rw [← List.map_reverse, findSome?_map_some, List.head?_reverse]
    exact List.getLast?_eq_some_getLast _
  have hrest : rest = ns.tail.take (k - 1) := by
    cases ns with
    | nil => simp at htake
    | cons m ms =>
      rw [List.take_cons hk] at htake
      exact (List.cons.inj htake).2.symm
  refine ⟨n, rest, (hns.bounded n (List.mem_of_mem_take (by rw [htake]; simp))).1, ?_, hseqs, ?_⟩
  · rw [hrest]
    exact hns.ascending.sublist (List.take_sublist _ _)
  · rw [replacedRange, hseqs, hlast]
    simp

/-- The first of the replaced messages is not younger than the last. -/
def RangeOrdered (seqs : List (Option EventSeq)) : Prop :=
  ∀ a ∈ seqs.head?.join, ∀ b ∈ seqs.getLast?.join, a ≤ b

instance (seqs : List (Option EventSeq)) : Decidable (RangeOrdered seqs) := by
  unfold RangeOrdered
  infer_instance

lemma rangeOrdered_map_some (n : Nat) (rest : List Nat) :
    RangeOrdered ((n :: rest).map some) ↔ n ≤ (n :: rest).getLast (List.cons_ne_nil n rest) := by
  have hlast : ((n :: rest).map some).getLast? =
      some (some ((n :: rest).getLast (List.cons_ne_nil n rest))) := by
    rw [List.getLast?_map, List.getLast?_eq_some_getLast (List.cons_ne_nil n rest)]
    rfl
  simp only [RangeOrdered, hlast]
  simp

/-- The records of a compaction are read exactly when its range is in order, and then show
the window of the loop. -/
lemma compactRange_reads (hfresh : Function.Injective env.fresh) (h : Linked env path loop s)
    (turnId : TurnId) (prefixEnd : Nat) (summary : String) (level : SummaryLevel)
    (reason : String) :
    Idle loop (loop.compactRange env turnId prefixEnd summary level.1 reason) ∨
      ∃ k loop' records s',
        loop.compactRange env turnId prefixEnd summary level.1 reason = .ok (loop', k) ∧
        loop'.trace.records = loop.trace.records ++ records ∧
        (∀ t, scan (restoreRecord path) s records = .ok t ↔
          RangeOrdered (loop.replacedSeqs (min prefixEnd loop.messages.length)) ∧ t = s') ∧
        (RangeOrdered (loop.replacedSeqs (min prefixEnd loop.messages.length)) →
          Linked env path loop' s') := by
  rcases compactRange_cases h.window.normalizeMessageSeqs_eq turnId prefixEnd summary level
    reason with hidle | ⟨k, loop', record, a, b, c, d, hk, hstop, -, -, hrecords, hnext, hissued,
      hsame, hmessage, hseq, hid, hloop⟩
  · exact .inl hidle
  have hle : min prefixEnd loop.messages.length ≤ loop.messages.length := Nat.min_le_right _ _
  generalize min prefixEnd loop.messages.length = stop at *
  obtain ⟨ns, hns⟩ := h.numbers
  have hlength := h.window.length_eq
  have hprotected := h.window.protectedEnd_eq
  have htail := window_tail_length s
  obtain ⟨n, rest, hpos, -, hseqs, hrange⟩ := h.replaced hk hstop hle
  let compaction := compactionRecord level.1 (loop.replacedRange stop) k
    (loop.messages.length - stop) (loop.contextEpoch + 1)
  have hordered : boundsValid compaction = true ↔ RangeOrdered (loop.replacedSeqs stop) := by
    rw [hseqs, rangeOrdered_map_some]
    simp [boundsValid, compaction, compactionRecord, hrange, hpos]
  obtain ⟨hread, hpushed⟩ := @restoreMessage_settled path _ _ _
    (env.undrawn (loop.issued + 8)) s
    (h.settled.mono (Nat.le_succ _) (Env.undrawn_subset env le_rfl)) (Nat.succ_pos _) record
    (by rw [hid]; exact Env.fresh_mem_undrawn env (by omega)) hseq
    (Env.undrawn_subset env (by omega))
    (by rw [hid]; exact Env.fresh_not_mem_undrawn hfresh (by omega))
  have hlevel : level.1 ≠ .l3Checkpoint := by
    rcases level.2 with hl | hl <;> simp [hl]
  have hplaced (t : Restoring) := @restoreSummary_iff path _ _ _ s t record compaction hpushed rfl
    hlevel rfl rfl (by change k ≤ _; omega)
    (by change loop.messages.length - stop = s.messages.length - k; omega)
  refine .inr ⟨k, _, _, s.placed record compaction, hloop, hrecords, fun t => ?_, fun hok => ?_⟩
  · rw [scan_cons, restoreRecord, hread, ok_bind, scan_cons]
    change (restoreCompaction path (s.push record) compaction >>= fun s => .ok s) = _ ↔ _
    rw [bind_eq_ok, ← hordered, ← hplaced t]
    simp
  · have hscan : scan (restoreRecord path) s [.message record, .compaction compaction] =
        .ok (s.placed record compaction) := by
      rw [scan_cons, restoreRecord, hread, ok_bind, scan_cons]
      change (restoreCompaction path (s.push record) compaction >>= fun s => .ok s) = _
      rw [(hplaced _).mpr ⟨hordered.mpr hok, rfl⟩, ok_bind]
    have hwindow : (s.placed record compaction).window =
        s.window.summarize k (.user summary, some (loop.trace.nextSeq + 1)) := by
      rw [placed_window, shown, hmessage, hseq]
      rfl
    refine ⟨h.toLogged.extend hrecords hscan ?_, ?_, ?_⟩
    · change Restoring.Settled (loop.contextEpoch + 1) loop'.trace.nextSeq
        (env.undrawn loop'.issued) _
      rw [hnext, hissued]
      exact (placed_settled hpushed rfl).mono (Nat.add_le_add_left (by decide : 2 ≤ 4) _)
        (Env.undrawn_subset env le_rfl)
    · rw [hwindow]
      exact h.window.summarize rfl k rfl rfl hsame.checkpointFloor
    · rw [hwindow]
      have hsummarized := (hns.mono (Nat.le_succ _)).summarize (Nat.succ_pos _) hk
        (a := ((.user summary : Message), some (loop.trace.nextSeq + 1))) rfl
      refine ⟨_, hsummarized.mono ?_⟩
      change loop.trace.nextSeq + 1 + 1 ≤ loop'.trace.nextSeq
      rw [hnext]
      exact Nat.add_le_add_left (by decide : 2 ≤ 4) _

/-- A checkpoint that counts the window it takes up is read back as its reset. -/
lemma linked_of_checkpoints (hfresh : Function.Injective env.fresh) (h : Linked env path loop s)
    {capsule : ContextCapsule} {removed retained stop : Nat}
    (hcheckpoint : Checkpoints env loop loop' capsule removed retained stop)
    (hstop : stop = s.window.capsule.toList.length + removed)
    (hremoved : removed ≤ s.messages.length)
    (hretained : retained = s.messages.length - removed + 1) :
    ∃ s', Linked env path loop' s' := by
  obtain ⟨capsulePath, hrecords⟩ := hcheckpoint.records
  let barrier := barrierRecord (env.fresh loop.issued) capsulePath capsule (loop.contextEpoch + 1)
  let compaction : SessionCompactionRecord :=
    ⟨loop.contextEpoch + 1, .l3Checkpoint, removed, 0, retained, false, none, none, false, none,
      none⟩
  obtain ⟨hbarrier, hcompaction, hsettled, hwindow⟩ := @restoreCheckpoint_settled path _ _ _
    (env.undrawn (loop.issued + 5)) s h.settled barrier compaction
    (Env.fresh_mem_undrawn env le_rfl) rfl rfl rfl rfl rfl rfl rfl hremoved hretained
    (Env.undrawn_subset env (by omega)) (Env.fresh_not_mem_undrawn hfresh (by omega))
  have hwindow' : (s.checkpointed barrier compaction).window =
      s.window.reset removed (capsuleMessage capsule) := hwindow
  refine ⟨s.checkpointed barrier compaction, h.toLogged.extend hrecords ?_ ?_, ?_, ?_⟩
  · rw [scan_cons, restoreRecord, hbarrier, ok_bind, scan_cons, restoreRecord, hcompaction]
    rfl
  · rw [hcheckpoint.window.contextEpoch, hcheckpoint.nextSeq, hcheckpoint.issued]
    exact hsettled.mono (Nat.le_add_right _ 2) le_rfl
  · rw [hwindow']
    exact (h.window.installCapsule capsule hstop _).sameWindow hcheckpoint.window
  · obtain ⟨ns, hns⟩ := h.numbers
    rw [hwindow', hcheckpoint.nextSeq]
    exact ⟨_, (hns.reset removed _).mono (Nat.le_add_right _ 2)⟩

lemma linked_checkpoint (hfresh : Function.Injective env.fresh) (h : Linked env path loop s)
    (hfits : loop.messages.length ≤ u32Max) (turnId : TurnId) (capsule : ContextCapsule) :
    ∃ s', Linked env path (loop.checkpoint env turnId capsule).1 s' := by
  rcases checkpoint_cases h.window.normalizeMessageSeqs_eq hfits turnId capsule with
    hsame | hcheckpoint
  · exact ⟨s, by rw [hsame]; exact h⟩
  have hlength := h.window.length_eq
  have hprotected := h.window.protectedEnd_eq
  have htail := window_tail_length s
  exact linked_of_checkpoints hfresh h hcheckpoint (by omega) (by omega) (by omega)

/-- A barrier that is prepared and never written leaves the log as it is. -/
lemma linked_prepareCheckpoint (h : Linked env path loop s) (capsule : ContextCapsule) :
    Linked env path (loop.prepareCheckpoint env capsule).1 s where
  reads := h.reads
  settled := h.settled.mono le_rfl (Env.undrawn_subset env (Nat.le_succ loop.issued))
  window := h.window.sameWindow ⟨rfl, rfl, rfl, rfl⟩
  numbers := h.numbers

lemma linked_checkpointTurnPrefix (hfresh : Function.Injective env.fresh)
    (h : Linked env path loop s) (hfits : loop.messages.length ≤ u32Max) (turnId : TurnId)
    (capsule : ContextCapsule) (turnHistoryStart : Nat) :
    ∃ s', Linked env path
      (loop.checkpointTurnPrefix env turnId capsule turnHistoryStart).1 s' := by
  rcases checkpointTurnPrefix_cases h.window.normalizeMessageSeqs_eq hfits turnId capsule
    turnHistoryStart with hsame | hprepared | ⟨stop, hpos, hstop, hcheckpoint⟩
  · exact ⟨s, by rw [hsame]; exact h⟩
  · exact ⟨s, by rw [hprepared]; exact linked_prepareCheckpoint h capsule⟩
  have hlength := h.window.length_eq
  have hfloor := h.window.floor_eq
  have htail := window_tail_length s
  have hcapsule : s.window.capsule.toList.length ≤ 1 := by
    cases s.window.capsule <;> simp
  exact linked_of_checkpoints hfresh h hcheckpoint (by omega) (by omega) (by omega)

lemma linked_resume (h : Linked env path loop s) (hresume : loop.resume env path = .ok loop') :
    Linked env path loop' s := by
  obtain ⟨restored, hrestored, hmessages, hseqs, hfloor, hepoch, -, hrecords, hnext, hissued⟩ :=
    resume_eq_ok hresume
  obtain ⟨header, heq⟩ := h.restored_eq
  obtain rfl := Except.ok.inj (heq.symm.trans hrestored)
  have hepoch' : loop'.contextEpoch = loop.contextEpoch := hepoch.trans h.settled.contextEpoch
  refine ⟨h.toLogged.extend (by rw [hrecords, List.append_nil]) rfl ?_, ⟨?_, ?_, ?_⟩, ?_⟩
  · rw [hepoch', hnext, hissued]
    exact h.settled
  · rw [hmessages]
    cases hc : s.checkpoint <;>
      simp [Restoring.finish, Restoring.window, Window.map, shown, hc, Function.comp_def]
  · rw [hseqs]
    cases hc : s.checkpoint <;>
      simp [Restoring.finish, Restoring.window, Window.map, shown, hc, Function.comp_def]
  · rw [hfloor]
    cases hc : s.checkpoint <;> simp [Restoring.finish, Restoring.window, Window.map, hc]
  · rw [hnext]
    exact h.numbers

/-- Every compaction names its range in order, and a checkpoint counts the window in 32
bits. -/
def InOrder (env : Env) (loop : TurnLoop) (op : WindowOp) : Prop :=
  (∀ n ∈ op.cut env loop, RangeOrdered (loop.replacedSeqs (min n loop.messages.length))) ∧
    (op.isCheckpoint = true → loop.messages.length ≤ u32Max)

instance (env : Env) (loop : TurnLoop) (op : WindowOp) : Decidable (InOrder env loop op) := by
  unfold InOrder
  infer_instance

lemma linked_basic (hfresh : Function.Injective env.fresh) (h : Linked env path loop s)
    {op : WindowOp} (hbasic : op.isBasic = true)
    (hrange : ∀ n ∈ op.prefixEnd?,
      RangeOrdered (loop.replacedSeqs (min n loop.messages.length)))
    (hfits : op.isCheckpoint = true → loop.messages.length ≤ u32Max) :
    ∃ s', Linked env path (op.step env path loop) s' := by
  cases op with
  | push turnId event message parent =>
    obtain ⟨loop', s', hpush, hlinked⟩ := linked_push hfresh h turnId event.1 message parent
    refine ⟨s', ?_⟩
    rw [step, hpush]
    exact hlinked
  | note turnId event parent => exact linked_note h turnId event parent
  | evictOldest turnId target turnHistoryStart promptOnly =>
    exact linked_evict hfresh h turnId target turnHistoryStart promptOnly
  | compactRange turnId prefixEnd summary level reason =>
    rcases compactRange_reads hfresh h turnId prefixEnd summary level reason with
      hidle | ⟨k, loop', records, s', hloop, -, -, hlinked⟩
    · exact ⟨s, by rw [step, hidle.settle_eq]; exact h⟩
    · exact ⟨s', by rw [step, hloop]; exact hlinked (hrange prefixEnd rfl)⟩
  | checkpoint turnId capsule => exact linked_checkpoint hfresh h (hfits rfl) turnId capsule
  | checkpointTurnPrefix turnId capsule turnHistoryStart =>
    exact linked_checkpointTurnPrefix hfresh h (hfits rfl) turnId capsule turnHistoryStart
  | resume =>
    cases hresume : loop.resume env path with
    | error error => exact ⟨s, by rw [step, hresume]; exact h⟩
    | ok loop' => exact ⟨s, by rw [step, hresume]; exact linked_resume h hresume⟩
  | compact | compactPrefix | compactWithSummaryOr | compactPhase | compactTurnPrefix
  | compactCompletedTurnCycles => simp [isBasic] at hbasic

/-- An operation that keeps its ranges in order keeps the log and the window together. -/
theorem linked_step (hfresh : Function.Injective env.fresh) (h : Linked env path loop s)
    {op : WindowOp} (hok : InOrder env loop op) :
    ∃ s', Linked env path (op.step env path loop) s' := by
  rw [step_eq_basic]
  cases hbasic : op.basic env loop with
  | none => exact ⟨s, h⟩
  | some op' =>
    obtain ⟨hisBasic, hcheckpoint⟩ := isBasic_of_basic hbasic
    refine linked_basic hfresh h hisBasic (fun n hn => hok.1 n ?_)
      fun hop => hok.2 (hcheckpoint hop)
    rw [cut, hbasic]
    exact hn

/-- The log of a loop restores its live window: the capsule, if there is one, and behind it
the restored messages, in the epoch of the loop. -/
def RestoresWindow (path : String) (loop : TurnLoop) : Prop :=
  ∃ restored, loop.restored path = .ok restored ∧
    loop.messages = restored.checkpoint.toList.map capsuleMessage ++
      restored.messages.map SessionMessage.message ∧
    loop.contextEpoch = restored.contextEpoch

lemma Linked.restoresWindow (h : Linked env path loop s) : RestoresWindow path loop := by
  obtain ⟨header, hrestored⟩ := h.restored_eq
  refine ⟨_, hrestored, ?_, h.settled.contextEpoch.symm⟩
  rw [h.window.messages_eq]
  cases hc : s.checkpoint <;>
    simp [Restoring.finish, Restoring.window, Window.map, shown, hc, Function.comp_def]

/-- After a compaction that replaced something, the log restores the window exactly when the
range was in order. -/
theorem compactRange_restores_iff (hfresh : Function.Injective env.fresh)
    (h : Linked env path loop s) {turnId : TurnId} {prefixEnd : Nat} {summary : String}
    {level : SummaryLevel} {reason : String} {k : Nat} (hk : 0 < k)
    (hcompact : loop.compactRange env turnId prefixEnd summary level.1 reason = .ok (loop', k)) :
    RestoresWindow path loop' ↔
      RangeOrdered (loop.replacedSeqs (min prefixEnd loop.messages.length)) := by
  rcases compactRange_reads hfresh h turnId prefixEnd summary level reason with
    (hidle | ⟨error, herror⟩) | ⟨k', loop'', records, s', hloop, hrecords, hscan, hlinked⟩
  · obtain ⟨-, rfl⟩ := Prod.mk.inj (Except.ok.inj (hidle.symm.trans hcompact))
    exact absurd hk (lt_irrefl 0)
  · exact absurd (herror.symm.trans hcompact) (by simp)
  obtain ⟨rfl, -⟩ := Prod.mk.inj (Except.ok.inj (hloop.symm.trans hcompact))
  refine ⟨fun hrestores => ?_, fun hok => (hlinked hok).restoresWindow⟩
  obtain ⟨restored, hrestored, -⟩ := hrestores
  obtain ⟨header, rest, hold, -, hread⟩ := h.reads
  obtain ⟨header', -, hrest⟩ := bind_eq_ok.mp hrestored
  obtain ⟨t, ht, -⟩ := bind_eq_ok.mp hrest
  rw [hrecords, hold, List.cons_append, List.tail_cons, scan_append, hread, ok_bind] at ht
  exact ((hscan t).mp ht).1

/-- **After a run whose compactions name their ranges in order, the log restores the live
window.** -/
theorem run_restores (hfresh : Function.Injective env.fresh) {header : SessionHeader}
    (hheader : validateHeader path header = .ok ()) {ops : List WindowOp}
    (hok : Run.Along (step env path) (InOrder env) (begun header) ops) :
    RestoresWindow path (Run.run (step env path) (begun header) ops) := by
  have hlinked := Run.Along.invariant
    (fun loop op (h : ∃ s, Linked env path loop s) hok => linked_step hfresh h.choose_spec hok)
    hok ⟨.start, begun_linked hheader⟩
  exact hlinked.choose_spec.restoresWindow

end Logged

/-! ### A short session -/

namespace ShortSession

def env : Env where
  session := "s"
  traceId := "t"
  fresh n := String.ofList (List.replicate n 'e')
  clock n := n
  configured _ := true
  putPayload _ := none
  estimate messages _ := messages.length
  estimateMessages messages := messages.length
  summarize _ := "summary"
  summarizeCycles _ _ := "summary"

lemma fresh_injective : Function.Injective env.fresh := by
  intro m n h
  have hlength := congrArg List.length (String.ofList_injective h)
  simpa using hlength

def header : SessionHeader where
  sessionId := "s"
  version := sessionSchemaVersion
  startedAtMs := 0
  workingDir := "/"
  model := ⟨"p", "m"⟩
  parentSession := none
  branchedFromEvent := none
  importedFrom := none

/-- The user says something. -/
def say (text : String) : WindowOp :=
  .push "turn" ⟨.userMessage ⟨text, 0⟩, rfl⟩ (.user text) none

/-- A compaction behind which one message is left. -/
def ops : List WindowOp :=
  [say "a", say "b", say "c", .compactPrefix "turn" 2 "ab", say "d",
    .checkpointTurnPrefix "turn" ⟨1, "", [], [], [], "", [], [], []⟩ 1, .resume,
    .compact "turn" "c" 1]

/-- Its summary is younger than the message it left, and a second compaction takes up both. -/
def twice : List WindowOp :=
  [say "a", say "b", say "c", .compactPrefix "turn" 2 "ab", .compactPrefix "turn" 2 "abc"]

theorem run_restores_ops :
    RestoresWindow "s" (Run.run (step env "s") (begun header) ops) :=
  run_restores fresh_injective (by decide) (by decide)

theorem twice_not_restored :
    Function.Injective env.fresh ∧ validateHeader "s" header = .ok () ∧
      ¬ RestoresWindow "s" (Run.run (step env "s") (begun header) twice) := by
  refine ⟨fresh_injective, by decide, ?_⟩
  have hnone : ((Run.run (step env "s") (begun header) twice).restored "s").toOption = none := by
    decide
  rintro ⟨restored, hrestored, -⟩
  rw [hrestored] at hnone
  simp [Except.toOption] at hnone

end ShortSession

end TurnLoop

end Rupi
