import Rupi.Core.Redact
import Rupi.Store.LineWriter
import Rupi.Store.Payload
import Rupi.Lib.Fallible
import Rupi.Lib.Run

/-!
The trace journal: the canonical execution record of one session.

- `TraceJournal.appendBounded`: append one event, assigning the next sequence
  number; the line is redacted and held to a budget.
- `History`: a journal with the lines whose append was acknowledged.
- `LeavesNoTrace`: only acknowledged lines are on disk, in contiguous sequence.
- **`run_leavesNoTrace`**: it holds after every run in which no write of an append
  fails and no failed flush wrote anything.
- `rejected_line_reaches_file`: an append whose write failed is on disk after the
  next write that works.
-/

namespace Rupi

open Value Fallible

/-- Longest line a journal accepts. -/
def maxJsonlLineBytes : Nat := 16 * 1024 * 1024

/-- Largest value of a `u64`. -/
def u64Max : Nat := 2 ^ 64 - 1

/-- Writer for one session's trace journal. -/
structure TraceJournal where
  path : String
  writer : LineWriter
  policy : RedactionPolicy
  rawCapture : RawPayloadCapture
  lastSeq : Option EventSeq

/-- Whether an event must reach disk before its append returns. -/
def requiresDurableWrite : AgentEvent → Bool
  | .reasoningDelta _ | .assistantDelta _ => false
  | _ => true

/-- What one append is asked to write. -/
structure AppendRequest where
  envelope : EventEnvelope
  rawRef : Option String
  blobs : Option BlobStore
  budget : Nat

namespace TraceJournal

/-- The next sequence number; exhaustion is an error, never a wrap. -/
def checkedNextSeq (journal : TraceJournal) : Except StoreError EventSeq :=
  match journal.lastSeq with
  | none => .ok 1
  | some last =>
    if last = u64Max then .error (.invalid "trace sequence space is exhausted")
    else .ok (last + 1)

/-- The entry an append writes, before redaction. -/
def entry (journal : TraceJournal) (request : AppendRequest) (seq : EventSeq) : TraceEntry :=
  let rawAttached := if journal.rawCapture.isEnabled then request.rawRef else none
  { envelope :=
      { request.envelope with
        eventMeta := { request.envelope.eventMeta with seq := some seq } }
    redactions := 0
    rawPayload := rawAttached.isSome
    rawRef := rawAttached
    externalized := [] }

/-- The redacted line of an entry, with the count of its redactions. -/
def redactedLine (journal : TraceJournal) (entry : TraceEntry) : Value :=
  let redacted := journal.policy.applyJson entry.toValue
  if 0 < redacted.2 then redacted.1.setField "redactions" (ofNat redacted.2) else redacted.1

/-- The line of an entry, held to the budget when there is a blob store. -/
def boundedLine (journal : TraceJournal) (request : AppendRequest) (seq : EventSeq) :
    Except StoreError Value :=
  let line := journal.redactedLine (journal.entry request seq)
  match request.blobs with
  | none => .ok line
  | some blobs =>
    if (compactLine line).length ≤ request.budget then .ok line
    else do
      let (bounded, externalized) ←
        Payload.bound line blobs request.budget fun value => (compactLine value).length
      if externalized.isEmpty then .ok line
      else .ok (bounded.setField "externalized" (externalizedValue externalized))

/-- The bytes of the line an append writes and its sequence number. -/
def encodeEntry (journal : TraceJournal) (request : AppendRequest) :
    Except StoreError (EventSeq × Value) := do
  let seq ← journal.checkedNextSeq
  let line ← journal.boundedLine request seq
  if maxJsonlLineBytes < (compactLine line).length then
    .error (.invalid (journal.path ++ " trace record exceeds the " ++ maxJsonlLineBytes.repr ++
      "-byte JSONL line bound"))
  else .ok (seq, line)

/-- Append one event, assigning the next sequence number. The number is taken
only when the write succeeded. -/
def appendBounded (journal : TraceJournal) (request : AppendRequest) (outcome : WriteOutcome) :
    TraceJournal × Except StoreError EventSeq :=
  match journal.encodeEntry request with
  | .error e => (journal, .error e)
  | .ok (seq, line) =>
    match journal.writer.writeLine (compactLine line)
        (requiresDurableWrite request.envelope.event) outcome with
    | (writer, .error e) => ({ journal with writer := writer }, .error e)
    | (writer, .ok ()) => ({ journal with writer := writer, lastSeq := some seq }, .ok seq)

/-- Commit buffered lines. -/
def flush (journal : TraceJournal) (outcome : WriteOutcome) :
    TraceJournal × Except StoreError Unit :=
  let (writer, result) := journal.writer.flush outcome
  ({ journal with writer := writer }, result)

/-- Drop the journal and with it its writer. -/
def drop (journal : TraceJournal) (outcome : WriteOutcome) : TraceJournal :=
  { journal with writer := journal.writer.drop outcome }

/-! ### The sequence number of a line -/

lemma lineSeq_congr {line line' : Value} (h : line'.get "meta" = line.get "meta") :
    lineSeq line' = lineSeq line := by
  rw [lineSeq, h, lineSeq]

lemma lineSeq_walkJson (policy : RedactionPolicy) (line : Value) :
    lineSeq (policy.walkJson line) = lineSeq line := by
  have hmeta : isSecretField "meta" = false := by decide
  have hseq : isSecretField "seq" = false := by decide
  simp only [lineSeq, policy.get_walkJson line hmeta]
  cases line.get "meta" with
  | none => rfl
  | some m =>
    simp only [Option.map_some, Option.bind_some, policy.get_walkJson m hseq]
    rcases m.get "seq" with _ | v
    · rfl
    · cases v <;> rfl

lemma lineSeq_redactedLine (journal : TraceJournal) {entry : TraceEntry} {seq : EventSeq}
    (h : entry.envelope.eventMeta.seq = some seq) :
    lineSeq (journal.redactedLine entry) = some seq := by
  have happly : lineSeq (journal.policy.applyJson entry.toValue).1 = some seq := by
    unfold RedactionPolicy.applyJson
    split
    · rw [lineSeq_walkJson, lineSeq_toValue h]
    · exact lineSeq_toValue h
  unfold redactedLine
  simp only
  split
  · rw [lineSeq_congr (get_setField_ne (by decide) _ _), happly]
  · exact happly

/-- A line carries the sequence number its append assigned. -/
lemma lineSeq_boundedLine {journal : TraceJournal} {request : AppendRequest} {seq : EventSeq}
    {line : Value} (h : journal.boundedLine request seq = .ok line) :
    lineSeq line = some seq := by
  have hred : lineSeq (journal.redactedLine (journal.entry request seq)) = some seq :=
    journal.lineSeq_redactedLine rfl
  unfold boundedLine at h
  simp only at h
  split at h
  · obtain rfl := Except.ok.inj h
    exact hred
  · rename_i blobs _
    split at h
    · obtain rfl := Except.ok.inj h
      exact hred
    · obtain ⟨⟨bounded, externalized⟩, hbound, h⟩ := bind_eq_ok.mp h
      simp only at h
      split at h
      · obtain rfl := Except.ok.inj h
        exact hred
      · obtain rfl := Except.ok.inj h
        have hkey : "meta" ∈ Payload.envelopeFields := by decide
        rw [lineSeq_congr (get_setField_ne (by decide) _ _),
          lineSeq_congr (Payload.get_bound hbound hkey), hred]

lemma encodeEntry_ok {journal : TraceJournal} {request : AppendRequest} {seq : EventSeq}
    {line : Value} (h : journal.encodeEntry request = .ok (seq, line)) :
    journal.checkedNextSeq = .ok seq ∧ lineSeq line = some seq := by
  obtain ⟨next, hseq, h⟩ := bind_eq_ok.mp h
  obtain ⟨bounded, hline, h⟩ := bind_eq_ok.mp h
  split at h
  · simp at h
  · obtain ⟨rfl, rfl⟩ := Prod.mk.inj (Except.ok.inj h)
    exact ⟨hseq, lineSeq_boundedLine hline⟩

/-- What an append does: it is refused before anything is written, or its line is
accepted into the buffer, and then it is acknowledged or the write fails. -/
lemma appendBounded_cases (journal : TraceJournal) (request : AppendRequest)
    (outcome : WriteOutcome) :
    (∃ e, journal.encodeEntry request = .error e ∧
        journal.appendBounded request outcome = (journal, .error e)) ∨
      ∃ seq line, journal.encodeEntry request = .ok (seq, line) ∧
        ((∃ writer, journal.appendBounded request outcome =
              ({ journal with writer := writer, lastSeq := some seq }, .ok seq) ∧
            writer.file ++ writer.buffer =
              journal.writer.file ++ journal.writer.buffer ++ encodeLine (compactLine line)) ∨
          ∃ written message, outcome = .failed written message ∧
            journal.appendBounded request outcome =
              ({ journal with
                  writer :=
                    { journal.writer.accept (compactLine line) with
                      file := journal.writer.file ++
                        (journal.writer.accept (compactLine line)).buffer.take written } },
                .error (.io message))) := by
  unfold appendBounded
  cases hentry : journal.encodeEntry request with
  | error e => exact .inl ⟨e, rfl, rfl⟩
  | ok result =>
    obtain ⟨seq, line⟩ := result
    refine .inr ⟨seq, line, rfl, ?_⟩
    rcases journal.writer.writeLine_cases (compactLine line)
        (requiresDurableWrite request.envelope.event) outcome with hwrite | hwrite
    · exact .inl ⟨journal.writer.accept (compactLine line), by simp only [hwrite], by simp⟩
    · rcases (journal.writer.accept (compactLine line)).flush_cases outcome with
        ⟨hflush, -⟩ | ⟨-, hflush⟩ | ⟨written, message, rfl, hflush⟩
      · exact .inl ⟨journal.writer.accept (compactLine line), by simp only [hwrite, hflush],
          by simp⟩
      · exact .inl ⟨_, by simp only [hwrite, hflush]; rfl, by simp [LineWriter.create]⟩
      · exact .inr ⟨written, message, rfl, by simp only [hwrite, hflush]; rfl⟩

end TraceJournal

/-! ### Runs of a journal -/

/-- An operation on an open journal, with what its write comes to. -/
inductive JournalOp where
  | append (request : AppendRequest) (outcome : WriteOutcome)
  | flush (outcome : WriteOutcome)

/-- A journal with the lines whose append returned a sequence number, in order. -/
structure History where
  journal : TraceJournal
  acknowledged : List Value

namespace History

/-- The line an append acknowledges, if it does. -/
def acknowledges (journal : TraceJournal) (request : AppendRequest) (outcome : WriteOutcome) :
    List Value :=
  match (journal.appendBounded request outcome).2, journal.encodeEntry request with
  | .ok _, .ok (_, line) => [line]
  | _, _ => []

/-- One operation. -/
def step (h : History) : JournalOp → History
  | .append request outcome =>
    ⟨(h.journal.appendBounded request outcome).1,
      h.acknowledged ++ acknowledges h.journal request outcome⟩
  | .flush outcome => ⟨(h.journal.flush outcome).1, h.acknowledged⟩

/-- The journal is dropped at the end of a run. -/
def drop (h : History) (outcome : WriteOutcome) : History :=
  ⟨h.journal.drop outcome, h.acknowledged⟩

/-- The durable bytes. -/
def disk (h : History) : Bytes := h.journal.writer.file

/-- A failed append leaves no trace behind: the lines on disk are acknowledged
lines, and their sequence numbers are strictly increasing and contiguous and do
not go beyond the last one the journal handed out. -/
def LeavesNoTrace (h : History) : Prop :=
  ∃ (written : List Value) (seqs : List EventSeq),
    written <+: h.acknowledged ∧ lines h.disk = written.map compactLine ∧
      written.map lineSeq = seqs.map some ∧ seqs.Pairwise (· < ·) ∧
      seqs.IsChain (fun a b => b = a + 1) ∧
      ∀ s ∈ seqs, ∃ last, h.journal.lastSeq = some last ∧ s ≤ last

/-- The buffer and the file together hold the acknowledged lines and nothing
else, numbered up to the last sequence number. -/
structure Settled (h : History) : Prop where
  bytes : h.disk ++ h.journal.writer.buffer = encodeLines (h.acknowledged.map compactLine)
  seqs : ∃ seqs : List EventSeq, h.acknowledged.map lineSeq = seqs.map some ∧
    seqs.IsChain (fun a b => b = a + 1) ∧ seqs.getLast? = h.journal.lastSeq

/-- No write of an append fails, and a flush that fails has written nothing. -/
def NoTornWrite (_ : History) : JournalOp → Prop
  | .append _ outcome => outcome = .done
  | .flush outcome =>
    match outcome with
    | .done => True
    | .failed written _ => written = 0

lemma newline_notMem_encoded (vs : List Value) : ∀ line ∈ vs.map compactLine, newline ∉ line := by
  intro line hline
  obtain ⟨v, -, rfl⟩ := List.mem_map.mp hline
  exact newline_notMem_compactLine v

lemma isChain_succ_pairwise {seqs : List EventSeq} (h : seqs.IsChain fun a b => b = a + 1) :
    seqs.Pairwise (· < ·) := by
  have hlt : seqs.IsChain (· < ·) :=
    h.imp fun {a b} (hab : b = a + 1) => hab ▸ Nat.lt_succ_self a
  exact List.isChain_iff_pairwise.mp hlt

lemma le_getLast {seqs : List EventSeq} (h : seqs.Pairwise (· < ·)) {s : EventSeq}
    (hs : s ∈ seqs) : ∃ last, seqs.getLast? = some last ∧ s ≤ last := by
  induction seqs generalizing s with
  | nil => simp at hs
  | cons a seqs ih =>
    obtain ⟨ha, hrest⟩ := List.pairwise_cons.mp h
    cases seqs with
    | nil => exact ⟨a, rfl, (List.mem_singleton.mp hs).le⟩
    | cons b seqs =>
      rcases List.mem_cons.mp hs with rfl | hs
      · obtain ⟨last, hlast, hb⟩ := ih hrest List.mem_cons_self
        exact ⟨last, by simpa using hlast, (ha b (by simp)).le.trans hb⟩
      · obtain ⟨last, hlast, hle⟩ := ih hrest hs
        exact ⟨last, by simpa using hlast, hle⟩

/-- Whatever prefix of the accepted bytes is durable, its lines are acknowledged. -/
lemma Settled.leavesNoTrace {h h' : History} (hs : h.Settled)
    (hack : h'.acknowledged = h.acknowledged) (hseq : h'.journal.lastSeq = h.journal.lastSeq)
    (hdisk : h'.disk <+: h.disk ++ h.journal.writer.buffer) : h'.LeavesNoTrace := by
  obtain ⟨seqs, hmap, hchain, hlast⟩ := hs.seqs
  have hlines : lines h'.disk <+: h.acknowledged.map compactLine := by
    rw [← lines_encode (newline_notMem_encoded h.acknowledged), ← hs.bytes]
    exact lines_prefix hdisk
  have htake := List.prefix_iff_eq_take.mp hlines
  set n := (lines h'.disk).length
  rw [← List.map_take] at htake
  have hchain' : (seqs.take n).IsChain fun a b => b = a + 1 := hchain.take n
  have hpair := isChain_succ_pairwise hchain
  refine ⟨h.acknowledged.take n, seqs.take n, hack ▸ List.take_prefix n _, htake, ?_,
    isChain_succ_pairwise hchain', hchain', ?_⟩
  · rw [List.map_take, hmap, List.map_take]
  · intro s hs'
    obtain ⟨last, hl, hle⟩ := le_getLast hpair (List.mem_of_mem_take hs')
    exact ⟨last, by rw [hseq, ← hlast, hl], hle⟩

lemma acknowledges_ok {journal journal' : TraceJournal} {request : AppendRequest}
    {outcome : WriteOutcome} {seq seq' : EventSeq} {line : Value}
    (hentry : journal.encodeEntry request = .ok (seq, line))
    (happend : journal.appendBounded request outcome = (journal', .ok seq')) :
    acknowledges journal request outcome = [line] := by
  simp [acknowledges, happend, hentry]

lemma acknowledges_error {journal journal' : TraceJournal} {request : AppendRequest}
    {outcome : WriteOutcome} {e : StoreError}
    (happend : journal.appendBounded request outcome = (journal', .error e)) :
    acknowledges journal request outcome = [] := by
  simp [acknowledges, happend]

/-- The number an append takes follows the last one. -/
lemma isChain_concat {seqs : List EventSeq} {journal : TraceJournal} {seq : EventSeq}
    (hchain : seqs.IsChain fun a b => b = a + 1) (hlast : seqs.getLast? = journal.lastSeq)
    (hnext : journal.checkedNextSeq = .ok seq) :
    (seqs ++ [seq]).IsChain fun a b => b = a + 1 := by
  refine List.isChain_append.mpr ⟨hchain, List.isChain_singleton _, ?_⟩
  intro a ha b hb
  obtain rfl : seq = b := by simpa using hb
  have hjournal : journal.lastSeq = some a := hlast ▸ ha
  rw [TraceJournal.checkedNextSeq, hjournal] at hnext
  simp only at hnext
  split at hnext
  · simp at hnext
  · exact (Except.ok.inj hnext).symm

/-- One step: an admissible operation keeps file and buffer settled. -/
lemma Settled.step {h : History} (hs : h.Settled) {op : JournalOp} (hop : h.NoTornWrite op) :
    (h.step op).Settled := by
  cases op with
  | append request outcome =>
    obtain rfl : outcome = .done := hop
    rcases h.journal.appendBounded_cases request .done with
      ⟨e, -, happend⟩ | ⟨seq, line, hentry, ⟨writer, happend, hbytes⟩ | ⟨_, _, hfailed, _⟩⟩
    · -- refused before anything was written
      have hack := acknowledges_error happend
      refine ⟨?_, ?_⟩
      · simpa [History.step, disk, hack, happend] using hs.bytes
      · simpa [History.step, hack, happend] using hs.seqs
    · -- acknowledged: the line joins the buffer or the file
      have hack := acknowledges_ok hentry happend
      obtain ⟨hnext, hline⟩ := TraceJournal.encodeEntry_ok hentry
      obtain ⟨seqs, hmap, hchain, hlast⟩ := hs.seqs
      have hb := hs.bytes
      refine ⟨?_, seqs ++ [seq], ?_, isChain_concat hchain hlast hnext, ?_⟩
      · simp only [History.step, disk, hack, happend] at hb ⊢
        rw [hbytes, hb]
        simp
      · simp [History.step, hack, hmap, hline]
      · simp [History.step, happend]
    · cases hfailed
  | flush outcome =>
    have hb := hs.bytes
    rcases h.journal.writer.flush_cases outcome with
      ⟨hflush, -⟩ | ⟨-, hflush⟩ | ⟨written, message, rfl, hflush⟩
    · exact ⟨by simpa [History.step, TraceJournal.flush, disk, hflush] using hb,
        by simpa [History.step, TraceJournal.flush, hflush] using hs.seqs⟩
    · exact ⟨by simpa [History.step, TraceJournal.flush, disk, hflush, LineWriter.create] using hb,
        by simpa [History.step, TraceJournal.flush, hflush] using hs.seqs⟩
    · obtain rfl : written = 0 := hop
      exact ⟨by simpa [History.step, TraceJournal.flush, disk, hflush] using hb,
        by simpa [History.step, TraceJournal.flush, hflush] using hs.seqs⟩

/-- **A failed append leaves no trace** in any run in which no write of an append
fails and no failed flush wrote anything, whatever becomes of the write that
dropping the journal makes. -/
theorem run_leavesNoTrace {h : History} (hs : h.Settled) {ops : List JournalOp}
    (hops : Run.Along step NoTornWrite h ops) :
    (Run.run step h ops).LeavesNoTrace ∧
      ∀ outcome, ((Run.run step h ops).drop outcome).LeavesNoTrace := by
  have hrun : (Run.run step h ops).Settled :=
    Run.Along.invariant (fun _ _ hs hop => hs.step hop) hops hs
  refine ⟨hrun.leavesNoTrace rfl rfl (List.prefix_append _ _), fun outcome => ?_⟩
  exact hrun.leavesNoTrace rfl rfl (LineWriter.flush_file_prefix _ outcome)

/-- The defect: the line of an append whose write failed stays in the buffer, so
the next write that works puts a line on disk that was never acknowledged. -/
theorem rejected_line_reaches_file {h : History} (hs : h.Settled) {request : AppendRequest}
    {outcome : WriteOutcome} {seq : EventSeq} {line : Value} {e : StoreError}
    (hentry : h.journal.encodeEntry request = .ok (seq, line))
    (hfail : (h.journal.appendBounded request outcome).2 = .error e) :
    ¬ ((h.step (.append request outcome)).step (.flush .done)).LeavesNoTrace := by
  rcases h.journal.appendBounded_cases request outcome with
    ⟨e', hrefused, -⟩ |
      ⟨seq', line', hentry', ⟨writer, happend, -⟩ | ⟨written, message, rfl, happend⟩⟩
  · rw [hentry] at hrefused
    cases hrefused
  · rw [happend] at hfail
    cases hfail
  · have hack := acknowledges_error happend
    rintro ⟨onDisk, seqs, hprefix, hlines, -⟩
    -- one line break more is on disk than lines were acknowledged
    have hbreaks : (h.disk ++ h.journal.writer.buffer).count newline = h.acknowledged.length := by
      rw [hs.bytes, ← length_lines, lines_encode (newline_notMem_encoded _), List.length_map]
    have hdisk : ((h.step (.append request (.failed written message))).step
        (.flush .done)).disk = h.disk ++
          (h.journal.writer.buffer ++ encodeLine (compactLine line')).take written ++
            (h.journal.writer.buffer ++ encodeLine (compactLine line')) := by
      simp [History.step, happend, TraceJournal.flush, disk, LineWriter.flush, encodeLine]
    have hcount := congrArg List.length hlines
    rw [length_lines, hdisk, List.length_map] at hcount
    have hle := hprefix.length_le
    simp only [History.step, hack, List.append_nil] at hle
    simp only [List.count_append, encodeLine, List.count_singleton_self] at hcount hbreaks
    omega

/-- A journal opened on a file that does not exist yet. -/
def empty (path : String) (policy : RedactionPolicy) (rawCapture : RawPayloadCapture) : History :=
  ⟨⟨path, LineWriter.create [], policy, rawCapture, none⟩, []⟩

lemma settled_empty (path : String) (policy : RedactionPolicy) (rawCapture : RawPayloadCapture) :
    (empty path policy rawCapture).Settled :=
  ⟨rfl, [], rfl, List.isChain_nil, rfl⟩

/-- A user message to append. -/
def userRequest (text : String) : AppendRequest where
  envelope :=
    { v := 1
      eventMeta :=
        { eventId := "event", sessionId := "session", turnId := some "turn", seq := none
          timestampMs := 0, modelEpoch := none, model := none, toolCallId := none
          parentEventId := none, traceId := "trace", spanId := "span" }
      event := .userMessage ⟨text, 0⟩ }
  rawRef := none
  blobs := none
  budget := u64Max

/-- A first append whose write fails before any byte is written, and a second one
that works. -/
def failThenWrite : List JournalOp :=
  [.append (userRequest "first") (.failed 0 "no space left on device"),
    .append (userRequest "second") .done]

/-- Both lines of `failThenWrite` are on disk, though only the second append was
acknowledged. -/
theorem failThenWrite_leavesTrace :
    ¬ (Run.run step (empty "trace.jsonl" .disabled .disabled) failThenWrite).LeavesNoTrace := by
  rintro ⟨written, seqs, hprefix, hlines, -⟩
  have hack : (Run.run step (empty "trace.jsonl" .disabled .disabled)
      failThenWrite).acknowledged.length = 1 := by decide +kernel
  have hdisk : (lines (Run.run step (empty "trace.jsonl" .disabled .disabled)
      failThenWrite).disk).length = 2 := by decide +kernel
  have hlen := congrArg List.length hlines
  rw [hdisk, List.length_map] at hlen
  have hle := hprefix.length_le
  rw [hack, ← hlen] at hle
  exact absurd hle (by decide)

/-- The same two appends when the first write works, with a flush that fails
before it writes and a drop that fails half way. -/
theorem run_leavesNoTrace_two :
    (Run.run step (empty "trace.jsonl" .disabled .disabled)
        [.append (userRequest "first") .done, .append (userRequest "second") .done,
          .flush (.failed 0 "no space left on device")]).LeavesNoTrace ∧
      ∀ outcome, ((Run.run step (empty "trace.jsonl" .disabled .disabled)
        [.append (userRequest "first") .done, .append (userRequest "second") .done,
          .flush (.failed 0 "no space left on device")]).drop outcome).LeavesNoTrace :=
  run_leavesNoTrace (settled_empty _ _ _) ⟨rfl, rfl, rfl, trivial⟩

end History

end Rupi
