import Rupi.Core.Text
import Rupi.Provider.LineStream
import Rupi.Store.Trace

/-!
Server-sent events, framed from a byte stream that arrives in pieces.

- `SseStream.nextEvent`: one call of the reader, over the lines of its source.
- `SseStream.results`: every call until the stream ends or fails for good.
- `parseLines`: the same loop over the lines of a whole byte string.
- **`results_settled`**: what the calls return, without the failed reads, is what the lines
  that are left give, however their bytes were cut.
-/

namespace Rupi

/-! ### Bounds and errors -/

/-- `MAX_EVENT_BYTES`. -/
def maxEventBytes : Nat := 1024 * 1024

/-- `MAX_RESPONSE_FRAMES`. -/
def maxResponseFrames : Nat := 65536

/-- Why a stream is closed. -/
inductive SseError where
  | line
  | frame
  | frames
  | event
  | utf8
  deriving DecidableEq, Repr

/-- The text of an error; that of a bad encoding is the decoder's. -/
def SseError.message (decoder : String) : SseError → String
  | line => "line exceeds " ++ maxEventBytes.repr ++ " bytes"
  | frame => "sse frame exceeds " ++ maxEventBytes.repr ++ " bytes"
  | frames => "sse response exceeds " ++ maxResponseFrames.repr ++ " frames"
  | event => "sse event exceeds " ++ maxEventBytes.repr ++ " bytes"
  | utf8 => decoder

/-- An error of `next_event`: of the protocol, or of a read that may be repeated. -/
inductive SseFailure where
  | protocol (error : SseError)
  | transient (message : String)
  deriving DecidableEq, Repr

/-! ### One line -/

/-- `SseEvent::is_done`. -/
def isDone (data : String) : Bool := trim data == "[DONE]"

/-- The event so far, with the bytes of its frame and the frames before it. -/
structure PendingEvent where
  data : String
  received : Bool
  frameBytes : Nat
  frames : Nat
  deriving DecidableEq, Repr

/-- `finish_frame`. -/
def PendingEvent.finishFrame (p : PendingEvent) : Option PendingEvent :=
  if maxResponseFrames ≤ p.frames then none
  else some { p with frames := p.frames + 1, frameBytes := 0 }

/-- What a line does to the event. -/
inductive Handled where
  | more (p : PendingEvent)
  | event (data : String) (p : PendingEvent)
  | error (error : SseError)

/-- The field and the value of a line that is no comment. -/
def fieldOf (trimmed : List Char) : Option (List Char × List Char) :=
  if trimmed.head? = some ':' then none
  else
    (splitOnce ':' trimmed).map fun parts => (parts.1, (stripFront [' '] parts.2).getD parts.2)

/-- A value joins the event. -/
def PendingEvent.push (p : PendingEvent) (value : String) : Handled :=
  if maxEventBytes < p.data.utf8ByteSize + value.utf8ByteSize then .error .event
  else
    .more { p with
      data := (if p.received then p.data ++ "\n" else p.data) ++ value
      received := true }

/-- A blank line ends the frame. -/
def PendingEvent.dispatch (p : PendingEvent) : Handled :=
  match p.finishFrame with
  | none => .error .frames
  | some next =>
    if p.received then .event p.data { next with data := "", received := false } else .more next

/-- The body of the loop of `next_event`, for a line. -/
def handleLine (p : PendingEvent) (raw : Bytes) : Handled :=
  let p := { p with frameBytes := p.frameBytes + raw.length }
  if maxEventBytes < p.frameBytes then .error .frame
  else
    match fromUtf8 raw with
    | none => .error .utf8
    | some line =>
      let trimmed := trimLineEnd line.toList
      if trimmed = [] then p.dispatch
      else
        match fieldOf trimmed with
        | some (field, value) =>
          if field = "data".toList then p.push (String.ofList value) else .more p
        | none => .more p

/-! ### The stream -/

structure SseStream where
  source : Source
  pending : PendingEvent
  finished : Bool

/-- A stream that has read nothing. -/
def SseStream.new (reads : List ReadResult) : SseStream :=
  ⟨⟨[], [], reads⟩, ⟨"", false, 0, 0⟩, false⟩

/-- A read takes bytes or reads from the source. -/
lemma readLine_shrinks {source next : Source} {result : LineRead}
    (h : readLine maxEventBytes source.line source.buffer source.reads = (result, next)) :
    next.left.length ≤ source.left.length ∧ next.reads.length ≤ source.reads.length ∧
      (∀ raw, result = .line raw → next.left.length < source.left.length) ∧
      ∀ message, result = .failure message → next.reads.length < source.reads.length := by
  have hprogress := readLine_progress maxEventBytes source.line source.buffer source.reads
  rw [h] at hprogress
  exact hprogress

/-- The lines are read until an event is complete. What is pending stays with the stream
when a read fails. -/
def readEvent (source : Source) (p : PendingEvent) :
    Except SseFailure (Option String) × SseStream :=
  match _h : readLine maxEventBytes source.line source.buffer source.reads with
  | (.failure message, source) => (.error (.transient message), ⟨source, p, false⟩)
  | (.overflow, source) => (.error (.protocol .line), ⟨source, p, false⟩)
  | (.eof, source) =>
    if p.received then
      match p.finishFrame with
      | none => (.error (.protocol .frames), ⟨source, p, true⟩)
      | some next => (.ok (some p.data), ⟨source, { next with data := "", received := false }, true⟩)
    else (.ok none, ⟨source, p, true⟩)
  | (.line raw, next) =>
    match handleLine p raw with
    | .more p => readEvent next p
    | .event data p => (.ok (some data), ⟨next, p, isDone data⟩)
    | .error error => (.error (.protocol error), ⟨next, p, true⟩)
termination_by source.left.length
decreasing_by
  exact (readLine_shrinks _h).2.2.1 raw rfl

/-- `next_event`. -/
def SseStream.nextEvent (s : SseStream) : Except SseFailure (Option String) × SseStream :=
  if s.finished then (.ok none, s) else readEvent s.source s.pending

/-- What a stream has still to read, and whether its end was seen. -/
def SseStream.unread (s : SseStream) : Nat :=
  s.source.left.length + s.source.reads.length + if s.finished then 0 else 1

/-- An event or a failed read brings the end of the stream nearer. -/
lemma readEvent_progress (source : Source) (p : PendingEvent) :
    (∀ data s, readEvent source p = (.ok (some data), s) →
      s.unread < source.left.length + source.reads.length + 1) ∧
    ∀ message s, readEvent source p = (.error (.transient message), s) →
      s.unread < source.left.length + source.reads.length + 1 := by
  fun_induction readEvent source p with
  | case1 source p message next h =>
    obtain ⟨hleft, -, -, hfewer⟩ := readLine_shrinks h
    have hreads := hfewer message rfl
    refine ⟨by simp, fun message' s heq => ?_⟩
    simp only [Prod.mk.injEq] at heq
    obtain ⟨-, rfl⟩ := heq
    simp only [SseStream.unread, Bool.false_eq_true, if_false]
    omega
  | case4 source p next h hreceived ended hfinish =>
    obtain ⟨hleft, hreads, -, -⟩ := readLine_shrinks h
    refine ⟨fun data s heq => ?_, by simp⟩
    simp only [Prod.mk.injEq] at heq
    obtain ⟨-, rfl⟩ := heq
    simp only [SseStream.unread, if_true]
    omega
  | case6 source p raw next h p' hmore ih =>
    obtain ⟨hleft, hreads, -, -⟩ := readLine_shrinks h
    exact ⟨fun data s heq => (ih.1 data s heq).trans_le (by omega),
      fun message s heq => (ih.2 message s heq).trans_le (by omega)⟩
  | case7 source p raw next h data p' hevent =>
    obtain ⟨-, hreads, hline, -⟩ := readLine_shrinks h
    have hshorter := hline raw rfl
    refine ⟨fun data s heq => ?_, by simp⟩
    simp only [Prod.mk.injEq] at heq
    obtain ⟨-, rfl⟩ := heq
    simp only [SseStream.unread]
    split_ifs <;> omega
  -- The other exits give no event and no failed read.
  | case2 | case3 | case5 | case8 => simp

lemma SseStream.nextEvent_progress {s next : SseStream} :
    (∀ {data}, s.nextEvent = (.ok (some data), next) → next.unread < s.unread) ∧
      ∀ {message}, s.nextEvent = (.error (.transient message), next) →
        next.unread < s.unread := by
  rw [SseStream.nextEvent, SseStream.unread.eq_def s]
  split_ifs with hfinished
  · simp
  · exact ⟨(readEvent_progress s.source s.pending).1 _ _,
      (readEvent_progress s.source s.pending).2 _ _⟩

/-- The calls of `next_event` until the stream ends or fails for good; after a failed read
the caller calls again. -/
def SseStream.results (s : SseStream) : List (Except SseFailure String) :=
  match _h : s.nextEvent with
  | (.ok none, _) => []
  | (.ok (some data), next) => .ok data :: next.results
  | (.error (.transient message), next) => .error (.transient message) :: next.results
  | (.error (.protocol error), _) => [.error (.protocol error)]
termination_by s.unread
decreasing_by
  · exact SseStream.nextEvent_progress.1 _h
  · exact SseStream.nextEvent_progress.2 _h

/-! ### The lines that are left -/

/-- The results of a whole list of lines. -/
def parseLines (p : PendingEvent) : List Bytes → List (Except SseError String)
  | [] =>
    if p.received then
      match p.finishFrame with
      | none => [.error .frames]
      | some _ => [.ok p.data]
    else []
  | raw :: rest =>
    if maxEventBytes < (contentOfLine raw).length then [.error .line]
    else
      match handleLine p raw with
      | .more p => parseLines p rest
      | .event data p => .ok data :: if isDone data then [] else parseLines p rest
      | .error error => [.error error]

/-- What the lines that are left will give. -/
def SseStream.remaining (s : SseStream) : List (Except SseError String) :=
  if s.finished then [] else parseLines s.pending (linesOf s.source.left)

/-- A call gives the first of the expected results, or fails in a read and keeps them all. -/
def Continues (expected : List (Except SseError String)) :
    Except SseFailure (Option String) × SseStream → Prop
  | (.ok none, _) => expected = []
  | (.ok (some data), next) => expected = .ok data :: next.remaining
  | (.error (.transient _), next) => expected = next.remaining
  | (.error (.protocol error), _) => expected = [.error error]

/-- What a read says about the lines that are left. -/
def ReadsFrom (left : Bytes) (next : Source) : LineRead → Prop
  | .failure _ => next.left = left
  | .eof => linesOf left = []
  | .line raw =>
    linesOf left = raw :: linesOf next.left ∧ (contentOfLine raw).length ≤ maxEventBytes
  | .overflow => ∃ raw rest, linesOf left = raw :: rest ∧
    maxEventBytes < (contentOfLine raw).length

lemma readLine_lines {source next : Source} {result : LineRead}
    (hbegun : Begun maxEventBytes source.line)
    (h : readLine maxEventBytes source.line source.buffer source.reads = (result, next)) :
    ReadsFrom source.left next result ∧ Begun maxEventBytes next.line := by
  rcases @readLine_spec maxEventBytes _ source.buffer source.reads hbegun with
    ⟨message, source', hread, hleft, hbegun', -⟩ | ⟨source', hread, hleft, hbegun', -⟩
  · rw [h, Prod.mk.injEq] at hread
    obtain ⟨rfl, rfl⟩ := hread
    exact ⟨hleft, hbegun'⟩
  · rw [h, Prod.mk.injEq] at hread
    obtain ⟨hresult, rfl⟩ := hread
    refine ⟨?_, hbegun'⟩
    rcases nextLine_spec maxEventBytes source.left with
      ⟨hempty, hnext⟩ | ⟨raw, rest, hlines, -, ⟨hshort, hnext⟩ | ⟨hlong, hnext⟩⟩
    all_goals rw [Source.left] at hnext; rw [hnext] at hresult hleft; subst hresult
    · rw [ReadsFrom, hempty, linesOf]
    · exact ⟨by rw [hlines, hleft], hshort⟩
    · exact ⟨raw, _, hlines, hlong⟩

/-- **One call of the reader** follows the lines that are left. -/
lemma readEvent_spec {source : Source} (p : PendingEvent)
    (hbegun : Begun maxEventBytes source.line) :
    Continues (parseLines p (linesOf source.left)) (readEvent source p) ∧
      Begun maxEventBytes (readEvent source p).2.source.line := by
  fun_induction readEvent source p with
  | case1 source p message next h =>
    obtain ⟨hreads, hnext⟩ := readLine_lines hbegun h
    rw [ReadsFrom] at hreads
    exact ⟨by simp [Continues, SseStream.remaining, hreads], hnext⟩
  | case2 source p next h =>
    obtain ⟨⟨raw, rest, hlines, hlong⟩, hnext⟩ := readLine_lines hbegun h
    exact ⟨by rw [hlines, parseLines, if_pos hlong, Continues], hnext⟩
  | case3 source p next h hreceived hfinish =>
    obtain ⟨hlines, hnext⟩ := readLine_lines hbegun h
    rw [ReadsFrom] at hlines
    exact ⟨by simp [hlines, parseLines, Continues, hreceived, hfinish], hnext⟩
  | case4 source p next h hreceived ended hfinish =>
    obtain ⟨hlines, hnext⟩ := readLine_lines hbegun h
    rw [ReadsFrom] at hlines
    exact ⟨by simp [hlines, parseLines, Continues, hreceived, hfinish, SseStream.remaining], hnext⟩
  | case5 source p next h hreceived =>
    obtain ⟨hlines, hnext⟩ := readLine_lines hbegun h
    rw [ReadsFrom] at hlines
    exact ⟨by simp [hlines, parseLines, Continues, hreceived], hnext⟩
  | case6 source p raw next h p' hmore ih =>
    obtain ⟨⟨hlines, hshort⟩, hnext⟩ := readLine_lines hbegun h
    rw [hlines, parseLines, if_neg (Nat.not_lt.mpr hshort), hmore]
    exact ih hnext
  | case7 source p raw next h data p' hevent =>
    obtain ⟨⟨hlines, hshort⟩, hnext⟩ := readLine_lines hbegun h
    rw [hlines, parseLines, if_neg (Nat.not_lt.mpr hshort), hevent]
    exact ⟨rfl, hnext⟩
  | case8 source p raw next h error herror =>
    obtain ⟨⟨hlines, hshort⟩, hnext⟩ := readLine_lines hbegun h
    rw [hlines, parseLines, if_neg (Nat.not_lt.mpr hshort), herror]
    exact ⟨rfl, hnext⟩

lemma SseStream.nextEvent_spec {s : SseStream} (hbegun : Begun maxEventBytes s.source.line) :
    Continues s.remaining s.nextEvent ∧ Begun maxEventBytes s.nextEvent.2.source.line := by
  rw [SseStream.nextEvent, SseStream.remaining]
  split_ifs with hfinished
  · exact ⟨rfl, hbegun⟩
  · exact readEvent_spec s.pending hbegun

/-- A result that no repeated call replaces. -/
def settled : Except SseFailure String → Option (Except SseError String)
  | .ok data => some (.ok data)
  | .error (.protocol error) => some (.error error)
  | .error (.transient _) => none

/-- The settled results of all calls are those of the lines that are left. -/
theorem SseStream.results_settled (s : SseStream)
    (hbegun : Begun maxEventBytes s.source.line) :
    s.results.filterMap settled = s.remaining := by
  obtain ⟨hcontinues, hnext⟩ := SseStream.nextEvent_spec hbegun
  fun_induction SseStream.results s with
  | case1 s next h =>
    rw [h] at hcontinues
    exact hcontinues.symm
  | case2 s data next h ih =>
    rw [h] at hcontinues hnext
    obtain ⟨hcontinues', hnext'⟩ := SseStream.nextEvent_spec hnext
    rw [hcontinues, ← ih hnext hcontinues' hnext']
    rfl
  | case3 s message next h ih =>
    rw [h] at hcontinues hnext
    obtain ⟨hcontinues', hnext'⟩ := SseStream.nextEvent_spec hnext
    rw [hcontinues, ← ih hnext hcontinues' hnext']
    rfl
  | case4 s error next h =>
    rw [h] at hcontinues
    exact hcontinues.symm

end Rupi
