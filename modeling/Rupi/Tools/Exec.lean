import Rupi.Core.Lossy
import Rupi.Tools.Reduce

/-!
The output of a command, as the exec tool captures it.

- `OutputSink.send`: a sink with a byte budget and a deadline.
- `drain`: the loop that takes what the reader threads of the two pipes send.
- `drain_keeps`: what is kept of a pipe, over every run of the loop.
- `capture_faithful_iff`: it is the decoding of all that was written exactly if no read ends inside
  a character.
-/

namespace Rupi

open Cut Replacing Payload

/-! ### The loop -/

/-- The pipes of a child process. -/
inductive OutputPipe where
  | stdout
  | stderr
  deriving DecidableEq, Repr

/-- What the loop finds when it asks: its own deadline, and those of the call. -/
structure Clocks where
  expired : Bool
  cancelled : Bool
  contextExpired : Bool
  deriving DecidableEq, Repr

/-- One turn of the loop: the clocks before it receives, the bytes of a read and the pipe they come
from, or nothing within 50 ms, and the clocks after it. The loop does not see the pipe. -/
structure Turn where
  before : Clocks
  received : Option (OutputPipe × List UInt8)
  after : Clocks
  deriving DecidableEq, Repr

/-- The bytes of a text. -/
def byteSize (text : List Char) : Nat := total Char.utf8Size text

/-- `BoundedProgress`. -/
structure OutputSink where
  budget : Nat
  streamed : Nat
  emitted : List (List Char)
  truncated : Bool
  timedOut : Bool
  deriving DecidableEq, Repr

def OutputSink.new (budget : Nat) : OutputSink := ⟨budget, 0, [], false, false⟩

/-- `BoundedProgress::send`. -/
def OutputSink.send (sink : OutputSink) (expired : Bool) (text : List Char) : Bool × OutputSink :=
  if text.isEmpty then (true, sink)
  else if expired then (false, { sink with timedOut := true })
  else
    let remaining := sink.budget - sink.streamed
    if remaining = 0 then (false, { sink with truncated := true })
    else
      let fits := decide (byteSize text ≤ remaining)
      let slice := if fits then text else takeBytes remaining text
      let truncated := sink.truncated || !fits
      (!truncated,
        { sink with
          streamed := sink.streamed + byteSize slice
          emitted := sink.emitted ++ [slice]
          truncated := truncated })

/-- `Drained`. The text is kept in the pieces it is made of, with the pipes they come from. -/
structure CapturedOutput where
  text : List (OutputPipe × List Char)
  truncated : Bool
  timedOut : Bool
  cancelled : Bool
  contextDeadline : Bool
  deriving DecidableEq, Repr

/-- The loop between two turns. -/
structure Draining where
  text : List (OutputPipe × List Char)
  sink : OutputSink
  deriving DecidableEq, Repr

namespace Draining

def timedOut (st : Draining) : CapturedOutput := ⟨st.text, st.sink.truncated, true, false, false⟩

def cancelled (st : Draining) : CapturedOutput := ⟨st.text, st.sink.truncated, false, true, false⟩

def contextDeadline (st : Draining) : CapturedOutput :=
  ⟨st.text, st.sink.truncated, false, false, true⟩

def disconnected (st : Draining) : CapturedOutput :=
  ⟨st.text, st.sink.truncated, false, false, false⟩

/-- The checks before a turn receives. -/
def checked (st : Draining) (clocks : Clocks) (go : CapturedOutput) : CapturedOutput :=
  if clocks.expired then st.timedOut
  else if clocks.cancelled then st.cancelled
  else if clocks.contextExpired then st.contextDeadline
  else go

/-- The checks after nothing was received. -/
def checkedIdle (st : Draining) (clocks : Clocks) (go : CapturedOutput) : CapturedOutput :=
  if clocks.cancelled then st.cancelled
  else if clocks.contextExpired then st.contextDeadline
  else if clocks.expired then st.timedOut
  else go

/-- What is taken of a read, while there is room. -/
def take (st : Draining) (expired : Bool) (pipe : OutputPipe) (slice : List Char) :
    Bool × Draining :=
  let (forwarded, sink) := st.sink.send expired slice
  let accepted := sink.streamed - st.sink.streamed
  (forwarded,
    { text := if 0 < accepted then st.text ++ [(pipe, takeBytes accepted slice)] else st.text
      sink := sink })

/-- `drain`, from the middle of the loop; `last` are the clocks when both pipes are closed. -/
def run (st : Draining) (last : Clocks) : List Turn → CapturedOutput
  | [] => st.checked last st.disconnected
  | turn :: turns =>
    st.checked turn.before <|
      match turn.received with
      | none => st.checkedIdle turn.after (st.run last turns)
      | some (pipe, bytes) =>
        if turn.after.cancelled then st.cancelled
        else if st.sink.truncated then st.run last turns
        else
          let (forwarded, next) := st.take turn.after.expired pipe (fromUtf8Lossy bytes)
          if !forwarded && next.sink.timedOut then next.timedOut else next.run last turns

end Draining

/-- `drain`. -/
def drain (limit : Nat) (turns : List Turn) (last : Clocks) : CapturedOutput :=
  Draining.run ⟨[], OutputSink.new limit⟩ last turns

/-! ### What is promised -/

/-- What was read, in the order it was received. -/
def reads (turns : List Turn) : List (OutputPipe × List UInt8) := turns.filterMap Turn.received

/-- The reads of a pipe. -/
def readsOf (pipe : OutputPipe) (chunks : List (OutputPipe × List UInt8)) : List (List UInt8) :=
  (chunks.filter (·.1 = pipe)).map Prod.snd

/-- What is kept of a pipe. -/
def keptOf (pipe : OutputPipe) (text : List (OutputPipe × List Char)) : List Char :=
  (text.filter (·.1 = pipe)).flatMap Prod.snd

/-- The loop ended because both pipes were closed. -/
def CapturedOutput.Complete (out : CapturedOutput) : Prop :=
  out.timedOut = false ∧ out.cancelled = false ∧ out.contextDeadline = false

/-- What is kept of each pipe is the beginning of the decoding of all that was written to it, and
all of that decoding where the output is complete and is not marked as truncated. -/
def CapturedFaithfully (chunks : List (OutputPipe × List UInt8)) (out : CapturedOutput) : Prop :=
  ∀ pipe, keptOf pipe out.text <+: fromUtf8Lossy (readsOf pipe chunks).flatten ∧
    (out.Complete → out.truncated = false →
      keptOf pipe out.text = fromUtf8Lossy (readsOf pipe chunks).flatten)

/-! ### Taking a read -/

section Take

variable {text front : List Char} {sink : OutputSink} {st : Draining} {pipe : OutputPipe}

@[simp] lemma byteSize_nil : byteSize [] = 0 := rfl

lemma byteSize_takeBytes_le (n : Nat) (text : List Char) : byteSize (takeBytes n text) ≤ n := by
  induction text generalizing n with
  | nil => exact Nat.zero_le n
  | cons c text ih =>
    rw [takeBytes]
    split_ifs with hfits
    · have hrest := ih (n - c.utf8Size)
      rw [byteSize, total_cons]
      rw [byteSize] at hrest
      omega
    · exact Nat.zero_le n

/-- A beginning of a text is found again by its size. -/
lemma takeBytes_byteSize (h : front <+: text) : takeBytes (byteSize front) text = front := by
  obtain ⟨back, rfl⟩ := h
  induction front with
  | nil =>
    cases back with
    | nil => rfl
    | cons c back =>
      have hc := c.utf8Size_pos
      rw [List.nil_append, takeBytes, if_neg (by simpa using hc.ne')]
  | cons c front ih =>
    rw [byteSize, total_cons, List.cons_append, takeBytes, if_pos (Nat.le_add_right _ _),
      Nat.add_sub_cancel_left]
    exact congrArg (c :: ·) ih

lemma takeBytes_of_le {n : Nat} (h : byteSize text ≤ n) : takeBytes n text = text :=
  takeBytes_eq_self (by rwa [utf8ByteSize_ofList])

/-- What the sink accepts in time. -/
lemma send_of_not_expired (sink : OutputSink) (text : List Char) :
    (sink.send false text).2.streamed =
        sink.streamed + byteSize (takeBytes (sink.budget - sink.streamed) text) ∧
      (sink.send false text).2.truncated =
        (sink.truncated || decide (sink.budget - sink.streamed < byteSize text)) ∧
      (sink.send false text).2.budget = sink.budget ∧
      (sink.send false text).2.timedOut = sink.timedOut := by
  have hpos : ∀ c rest, 0 < byteSize (c :: rest) := fun c rest => by
    have hc := c.utf8Size_pos
    rw [byteSize, total_cons]
    omega
  cases text with
  | nil => simp [OutputSink.send, takeBytes]
  | cons c rest =>
    rw [OutputSink.send, if_neg (by simp), if_neg (by simp)]
    dsimp only
    by_cases hfull : sink.budget - sink.streamed = 0
    · have htake : byteSize (takeBytes 0 (c :: rest)) = 0 :=
        Nat.le_zero.1 (byteSize_takeBytes_le 0 (c :: rest))
      simp [hfull, htake, hpos c rest]
    · by_cases hfits : byteSize (c :: rest) ≤ sink.budget - sink.streamed
      · simp [hfull, hfits, takeBytes_of_le hfits]
      · simp [hfull, hfits, not_le.1 hfits]

lemma keptOf_append (text more : List (OutputPipe × List Char)) :
    keptOf pipe (text ++ more) = keptOf pipe text ++ keptOf pipe more := by
  simp [keptOf]

/-- A read that is taken in time is kept up to the budget. -/
lemma keptOf_take (pipe : OutputPipe) (st : Draining) (from_ : OutputPipe) (slice : List Char) :
    keptOf pipe (st.take false from_ slice).2.text = keptOf pipe st.text ++
      if from_ = pipe then takeBytes (st.sink.budget - st.sink.streamed) slice else [] := by
  have hsend := (send_of_not_expired st.sink slice).1
  have hfront := takeBytes_prefix (st.sink.budget - st.sink.streamed) slice
  rw [Draining.take]
  dsimp only
  rw [hsend, Nat.add_sub_cancel_left, takeBytes_byteSize hfront]
  split_ifs with haccepted hpipe hpipe
  · rw [keptOf_append]
    simp [keptOf, hpipe]
  · rw [keptOf_append]
    simp [keptOf, hpipe]
  · cases htake : takeBytes (st.sink.budget - st.sink.streamed) slice with
    | nil => simp
    | cons c rest =>
      have hc := c.utf8Size_pos
      rw [htake, byteSize, total_cons] at haccepted
      omega
  · simp

end Take

/-! ### The whole loop -/

section Run

variable {st next : Draining} {last : Clocks} {turns : List Turn} {out : CapturedOutput}
  {chunks : List (OutputPipe × List UInt8)} {pipe : OutputPipe}

/-- The decoding of the reads of a pipe, each on its own. -/
def readByRead (pipe : OutputPipe) (chunks : List (OutputPipe × List UInt8)) : List Char :=
  (readsOf pipe chunks).flatMap fromUtf8Lossy

/-- What the rest of the loop does: it keeps nothing more once the budget is spent, never anything
but the reads in their order, and all of them in a complete output that is not truncated. -/
def Keeps (st : Draining) (chunks : List (OutputPipe × List UInt8)) (out : CapturedOutput) : Prop :=
  ∀ pipe, (st.sink.truncated = true → keptOf pipe out.text = keptOf pipe st.text) ∧
    keptOf pipe out.text <+: keptOf pipe st.text ++ readByRead pipe chunks ∧
    (out.Complete → out.truncated = false → st.sink.truncated = false ∧
      keptOf pipe out.text = keptOf pipe st.text ++ readByRead pipe chunks)

lemma readByRead_cons (from_ : OutputPipe) (bytes : List UInt8) :
    readByRead pipe ((from_, bytes) :: chunks) =
      (if from_ = pipe then fromUtf8Lossy bytes else []) ++ readByRead pipe chunks := by
  rw [readByRead, readByRead, readsOf, readsOf]
  by_cases hpipe : from_ = pipe
  · rw [List.filter_cons_of_pos (by simpa using hpipe), if_pos hpipe]
    simp
  · rw [List.filter_cons_of_neg (by simpa using hpipe), if_neg hpipe]
    rfl

/-- A loop that is stopped keeps what it has. -/
lemma keeps_of_stopped (htext : out.text = st.text) (hstopped : ¬ out.Complete) :
    Keeps st chunks out := fun pipe =>
  ⟨fun _ => by rw [htext], by rw [htext]; exact List.prefix_append _ _,
    fun hcomplete => absurd hcomplete hstopped⟩

lemma keeps_checked {go : CapturedOutput} (clocks : Clocks) (h : Keeps st chunks go) :
    Keeps st chunks (st.checked clocks go) := by
  rw [Draining.checked]
  split_ifs
  · exact keeps_of_stopped rfl fun hcomplete => absurd hcomplete.1 (by simp [Draining.timedOut])
  · exact keeps_of_stopped rfl fun hcomplete =>
      absurd hcomplete.2.1 (by simp [Draining.cancelled])
  · exact keeps_of_stopped rfl fun hcomplete =>
      absurd hcomplete.2.2 (by simp [Draining.contextDeadline])
  · exact h

lemma keeps_checkedIdle {go : CapturedOutput} (clocks : Clocks) (h : Keeps st chunks go) :
    Keeps st chunks (st.checkedIdle clocks go) := by
  rw [Draining.checkedIdle]
  split_ifs
  · exact keeps_of_stopped rfl fun hcomplete =>
      absurd hcomplete.2.1 (by simp [Draining.cancelled])
  · exact keeps_of_stopped rfl fun hcomplete =>
      absurd hcomplete.2.2 (by simp [Draining.contextDeadline])
  · exact keeps_of_stopped rfl fun hcomplete => absurd hcomplete.1 (by simp [Draining.timedOut])
  · exact h

/-- Once the budget is spent, reads are thrown away. -/
lemma keeps_cons_of_truncated (htruncated : st.sink.truncated = true)
    (chunk : OutputPipe × List UInt8) (h : Keeps st chunks out) :
    Keeps st (chunk :: chunks) out := fun pipe => by
  obtain ⟨hsame, -, hall⟩ := h pipe
  refine ⟨hsame, by rw [hsame htruncated]; exact List.prefix_append _ _, fun hcomplete hout => ?_⟩
  rw [(hall hcomplete hout).1] at htruncated
  cases htruncated

/-- **A read in time is kept up to the budget.** -/
lemma keeps_cons_of_take {from_ : OutputPipe} {bytes : List UInt8}
    (hroom : st.sink.truncated = false)
    (h : Keeps (st.take false from_ (fromUtf8Lossy bytes)).2 chunks out) :
    Keeps st ((from_, bytes) :: chunks) out := fun pipe => by
  obtain ⟨hsame, hprefix, hall⟩ := h pipe
  have hkept := keptOf_take pipe st from_ (fromUtf8Lossy bytes)
  have htruncated : (st.take false from_ (fromUtf8Lossy bytes)).2.sink.truncated =
      decide (st.sink.budget - st.sink.streamed < byteSize (fromUtf8Lossy bytes)) := by
    have hsend := (send_of_not_expired st.sink (fromUtf8Lossy bytes)).2.1
    rwa [hroom, Bool.false_or] at hsend
  refine ⟨fun htrue => absurd (hroom.symm.trans htrue) (by simp), ?_, fun hcomplete hout => ?_⟩
  · rw [readByRead_cons, ← List.append_assoc]
    by_cases hover : st.sink.budget - st.sink.streamed < byteSize (fromUtf8Lossy bytes)
    · rw [hsame (by rw [htruncated]; exact decide_eq_true hover), hkept]
      split_ifs
      · exact ((List.prefix_append_right_inj _).2 ( takeBytes_prefix _ _)).trans
          (List.prefix_append _ _)
      · exact List.prefix_append _ _
    · rwa [hkept, takeBytes_of_le (not_lt.1 hover)] at hprefix
  · obtain ⟨hfits, heq⟩ := hall hcomplete hout
    rw [htruncated, decide_eq_false_iff_not] at hfits
    rw [hkept, takeBytes_of_le (not_lt.1 hfits)] at heq
    rw [readByRead_cons, ← List.append_assoc]
    exact ⟨hroom, heq⟩

/-- A sink that is out of time takes nothing. -/
lemma take_expired {slice : List Char} (hslice : slice ≠ []) :
    st.take true pipe slice = (false, ⟨st.text, { st.sink with timedOut := true }⟩) := by
  have hempty : slice.isEmpty = false := by simpa using hslice
  simp [Draining.take, OutputSink.send, hempty]

lemma text_of_stopped {expired : Bool} {slice : List Char} (htime : st.sink.timedOut = false)
    (h : (!(st.take expired pipe slice).1 && (st.take expired pipe slice).2.sink.timedOut) = true) :
    (st.take expired pipe slice).2.text = st.text := by
  cases expired with
  | false =>
    have hsend : (st.take false pipe slice).2.sink.timedOut = false :=
      (send_of_not_expired st.sink slice).2.2.2.trans htime
    rw [hsend, Bool.and_false] at h
    cases h
  | true =>
    by_cases hslice : slice = []
    · simp [Draining.take, OutputSink.send, hslice]
    · rw [take_expired hslice]

/-- A read that does not stop the loop came in time, or is empty. -/
lemma take_of_not_stopped {expired : Bool} {slice : List Char}
    (h : ¬ (!(st.take expired pipe slice).1 && (st.take expired pipe slice).2.sink.timedOut) = true) :
    st.take expired pipe slice = st.take false pipe slice := by
  cases expired with
  | false => rfl
  | true =>
    by_cases hslice : slice = []
    · simp [Draining.take, OutputSink.send, hslice]
    · rw [take_expired hslice] at h
      exact absurd rfl h

/-- **What the loop keeps**, from any point of it on. -/
lemma run_keeps (htime : st.sink.timedOut = false) :
    Keeps st (reads turns) (st.run last turns) := by
  induction turns generalizing st with
  | nil =>
    refine keeps_checked last fun pipe => ?_
    have hnone : readByRead pipe (reads []) = [] := rfl
    rw [hnone, List.append_nil]
    exact ⟨fun _ => rfl, List.prefix_rfl, fun _ hout => ⟨hout, rfl⟩⟩
  | cons turn turns ih =>
    rw [Draining.run]
    refine keeps_checked turn.before ?_
    cases hreceived : turn.received with
    | none =>
      have hreads : reads (turn :: turns) = reads turns := by
        rw [reads, List.filterMap_cons, hreceived]
        rfl
      rw [hreads]
      exact keeps_checkedIdle turn.after (ih htime)
    | some chunk =>
      obtain ⟨from_, bytes⟩ := chunk
      have hreads : reads (turn :: turns) = (from_, bytes) :: reads turns := by
        rw [reads, List.filterMap_cons, hreceived]
        rfl
      rw [hreads]
      dsimp only
      split_ifs with hcancelled htruncated hstop
      · exact keeps_of_stopped rfl fun hcomplete =>
          absurd hcomplete.2.1 (by simp [Draining.cancelled])
      · exact keeps_cons_of_truncated htruncated _ (ih htime)
      · exact keeps_of_stopped (text_of_stopped htime hstop) fun hcomplete =>
          absurd hcomplete.1 (by simp [Draining.timedOut])
      · rw [take_of_not_stopped hstop]
        refine keeps_cons_of_take (by simpa using htruncated) (ih ?_)
        exact (send_of_not_expired st.sink _).2.2.2.trans htime

/-- Clocks that show nothing. -/
def Clocks.calm : Clocks := ⟨false, false, false⟩

/-- A run in which every read comes in time. -/
def calmTurns (chunks : List (OutputPipe × List UInt8)) : List Turn :=
  chunks.map fun chunk => ⟨.calm, some chunk, .calm⟩

lemma reads_calmTurns (chunks : List (OutputPipe × List UInt8)) :
    reads (calmTurns chunks) = chunks := by
  simp [reads, calmTurns, List.filterMap_map]

/-- The bytes of all that is decoded. -/
def decodedSize (chunks : List (OutputPipe × List UInt8)) : Nat :=
  (chunks.map fun chunk => byteSize (fromUtf8Lossy chunk.2)).sum

/-- With room for everything a calm run is complete and not truncated. -/
lemma run_calm (hroom : st.sink.truncated = false) (htime : st.sink.timedOut = false)
    (hbudget : st.sink.streamed + decodedSize chunks ≤ st.sink.budget) :
    (st.run .calm (calmTurns chunks)).Complete ∧
      (st.run .calm (calmTurns chunks)).truncated = false := by
  induction chunks generalizing st with
  | nil => exact ⟨⟨rfl, rfl, rfl⟩, hroom⟩
  | cons chunk chunks ih =>
    obtain ⟨from_, bytes⟩ := chunk
    have hsize : decodedSize ((from_, bytes) :: chunks) =
        byteSize (fromUtf8Lossy bytes) + decodedSize chunks := by
      simp [decodedSize]
    rw [hsize] at hbudget
    have hfits : ¬ st.sink.budget - st.sink.streamed < byteSize (fromUtf8Lossy bytes) := by omega
    obtain ⟨hstreamed, htruncated, hkeptBudget, hkeptTime⟩ :=
      send_of_not_expired st.sink (fromUtf8Lossy bytes)
    rw [hroom, decide_eq_false hfits, Bool.or_false] at htruncated
    rw [takeBytes_of_le (not_lt.1 hfits)] at hstreamed
    have hrest := @ih (st.take false from_ (fromUtf8Lossy bytes)).2 htruncated
      (hkeptTime.trans htime) (by
        show (st.sink.send false (fromUtf8Lossy bytes)).2.streamed + _ ≤
          (st.sink.send false (fromUtf8Lossy bytes)).2.budget
        rw [hstreamed, hkeptBudget]
        omega)
    have hgo : st.run .calm (calmTurns ((from_, bytes) :: chunks)) =
        (st.take false from_ (fromUtf8Lossy bytes)).2.run .calm (calmTurns chunks) := by
      have hstop : (st.take false from_ (fromUtf8Lossy bytes)).2.sink.timedOut = false :=
        hkeptTime.trans htime
      rw [calmTurns, List.map_cons, Draining.run]
      simp [Draining.checked, Clocks.calm, hroom, hstop, calmTurns]
    rwa [hgo]

end Run

/-- **When the output of a command is captured faithfully.** In every run of the loop that receives
these reads, under every limit and whatever the clocks show, what is kept of each pipe is the
beginning of the decoding of all that was written to it, and all of it where the output is complete
and not marked as truncated, exactly if no read of a pipe ends inside a character. -/
theorem capture_faithful_iff (chunks : List (OutputPipe × List UInt8)) :
    (∀ limit turns last, reads turns = chunks →
        CapturedFaithfully chunks (drain limit turns last)) ↔
      ∀ pipe, Aligned utf8 (readsOf pipe chunks) := by
  constructor
  · intro hfaithful pipe
    have hcalm := @run_calm ⟨[], OutputSink.new (decodedSize chunks)⟩ chunks rfl rfl
      (by simp [OutputSink.new])
    have hkept := (@run_keeps ⟨[], OutputSink.new (decodedSize chunks)⟩ .calm (calmTurns chunks) rfl
      pipe).2.2 hcalm.1 hcalm.2
    have hall := (hfaithful (decodedSize chunks) (calmTurns chunks) .calm
      (reads_calmTurns chunks) pipe).2 hcalm.1 hcalm.2
    rw [reads_calmTurns] at hkept
    exact (decode_pieces_iff _).1 (hkept.2.symm.trans hall)
  · rintro haligned limit turns last rfl pipe
    have hdecoded : readByRead pipe (reads turns) =
        fromUtf8Lossy (readsOf pipe (reads turns)).flatten :=
      (decode_pieces_iff _).2 (haligned pipe)
    have hkeeps := @run_keeps ⟨[], OutputSink.new limit⟩ last turns rfl pipe
    rw [hdecoded] at hkeeps
    exact ⟨hkeeps.2.1, fun hcomplete hout => (hkeeps.2.2 hcomplete hout).2⟩

/-- A character of three bytes that comes in two reads. -/
theorem split_character_captured_wrong :
    ¬ ∀ chunks limit turns last, reads turns = chunks →
      CapturedFaithfully chunks (drain limit turns last) := by
  intro hfaithful
  have hall := (hfaithful [(.stdout, [0xE2, 0x82]), (.stdout, [0xAC])] 100
    (calmTurns [(.stdout, [0xE2, 0x82]), (.stdout, [0xAC])]) .calm (reads_calmTurns _)
    .stdout).2 ⟨by decide +kernel, by decide +kernel, by decide +kernel⟩ (by decide +kernel)
  exact absurd hall (by decide +kernel)

end Rupi
