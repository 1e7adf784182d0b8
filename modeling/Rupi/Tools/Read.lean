import Rupi.Core.BoundedLine
import Rupi.Core.Lossy
import Rupi.Core.Text
import Rupi.Lib.Fallible
import Rupi.Tools.Contract
import Rupi.Tools.Exec

/-!
The read tool, and reading on where a note says to.

- `ReadTool.readLines`: the loop over the lines of a file, with everything that stops it.
- `ReadTool.execute`: one call.
- `readLines_spec`: which lines a call shows, and which offset it names.
- `transcript`: a call after the other, each at the offset that the last one named.
- `paged_reads_cover`: the lines that are shown over a run.
-/

namespace Rupi

open BoundedLine Fallible Payload

/-! ### One call -/

/-- `usize::MAX`. -/
def usizeMax : Nat := 2 ^ 64 - 1

/-- Why a call has no outcome. -/
inductive ReadError where
  | overflow
  | io
  deriving DecidableEq, Repr

/-- An addition that overflows. -/
def usizeAdd (a b : Nat) : Except ReadError Nat :=
  if a + b ≤ usizeMax then .ok (a + b) else .error .overflow

/-- When a call finds that it has to stop: on entry, before the next line when so many have been
read, and after a line was shown. -/
structure ReadClocks where
  entry : Bool
  before : Nat → Bool
  after : Nat → Bool

/-- A line as it is shown: its number, its text, and whether it is marked as truncated. -/
structure ShownLine where
  number : Nat
  text : List Char
  truncated : Bool
  deriving DecidableEq, Repr

inductive ReadNote where
  | limit (lines next : Nat)
  | stopped (line next : Nat)
  | empty
  deriving DecidableEq, Repr

/-- The loop between two lines. -/
structure Reading where
  lineNumber : Nat
  emitted : Nat
  out : List ShownLine
  truncatedByLimit : Bool
  stoppedEarly : Bool
  binaryAt : Option Nat
  deriving DecidableEq, Repr

inductive ReadOutcome where
  | cancelled
  | binary (line : Nat)
  | finished (out : List ShownLine) (notes : List ReadNote)
  deriving DecidableEq, Repr

namespace ReadTool

/-- `DEFAULT_LIMIT`. -/
def defaultLimit : Nat := 2000

/-- `MAX_LIMIT`. -/
def maxLimit : Nat := 20000

/-- The first line, from the argument where it is a number. -/
def offsetOf (argument : Option Nat) : Nat := max (argument.getD 1) 1

def limitOf (argument : Option Nat) : Nat := min (max (argument.getD defaultLimit) 1) maxLimit

/-- `line_limit`. -/
def lineLimit (maxLineBytes : Nat) : Nat := max (min (maxLineBytes + 4) usizeMax) 1

/-- The text of a line, cut between two characters where it is too long. -/
def shownText (maxLineBytes : Nat) (bytes : List UInt8) (cappedByIngestion : Bool) :
    List Char × Bool :=
  let display := trimLineEnd (fromUtf8Lossy bytes)
  if cappedByIngestion || decide (maxLineBytes < byteSize display) then
    (takeBytes maxLineBytes display, true)
  else (display, false)

/-- The loop of `execute_inner`. -/
def readLines (maxLineBytes offset limit : Nat) (clocks : ReadClocks) (st : Reading) :
    List BoundedLine.LineRead → Except ReadError Reading
  | [] => .ok { st with stoppedEarly := clocks.before st.lineNumber }
  | read :: reads =>
    if clocks.before st.lineNumber then .ok { st with stoppedEarly := true }
    else
      match read with
      | .endOfFile => .ok st
      | .tooLong => .error .io
      | .line bytes cappedByIngestion => do
        let lineNumber ← usizeAdd st.lineNumber 1
        let st := { st with lineNumber := lineNumber }
        if '\x00' ∈ fromUtf8Lossy bytes then .ok { st with binaryAt := some lineNumber }
        else if lineNumber < offset then readLines maxLineBytes offset limit clocks st reads
        else if limit ≤ st.emitted then .ok { st with truncatedByLimit := true }
        else
          let emitted ← usizeAdd st.emitted 1
          let shown := shownText maxLineBytes bytes cappedByIngestion
          let st := { st with
            emitted := emitted
            out := st.out ++ [⟨lineNumber, shown.1, shown.2⟩] }
          if clocks.after lineNumber then .ok { st with stoppedEarly := true }
          else readLines maxLineBytes offset limit clocks st reads

/-- The notes below what is shown. -/
def notesOf (offset limit : Nat) (st : Reading) : Except ReadError (List ReadNote) := do
  let limited ← if st.truncatedByLimit then
      (usizeAdd offset limit).map fun next => [.limit limit next]
    else .ok []
  let stopped ← if st.stoppedEarly then
      (usizeAdd st.lineNumber 1).map fun next => [.stopped st.lineNumber next]
    else .ok []
  .ok (limited ++ stopped ++ if st.lineNumber = 0 then [.empty] else [])

/-- What a call is given: the buffers that the file comes in, and when it has to stop. -/
structure Call where
  buffers : List (List UInt8)
  clocks : ReadClocks

/-- `execute_inner`, from where the path and the arguments are read. -/
def execute (maxLineBytes : Nat) (offset limit : Option Nat) (call : Call) :
    Except ReadError ReadOutcome :=
  if call.clocks.entry then .ok .cancelled
  else do
    let st ← readLines maxLineBytes (offsetOf offset) (limitOf limit) call.clocks
      ⟨0, 0, [], false, false, none⟩
      (readBoundedLines (lineLimit maxLineBytes) .truncate call.buffers)
    match st.binaryAt with
    | some line => .ok (.binary line)
    | none => do
      let notes ← notesOf (offsetOf offset) (limitOf limit) st
      .ok (.finished st.out notes)

end ReadTool

/-! ### The text of an outcome -/

/-- `{number:>5}`. -/
def padNumber (n : Nat) : String :=
  String.ofList (List.replicate (5 - n.repr.length) ' ') ++ n.repr

def ShownLine.render (line : ShownLine) : String :=
  padNumber line.number ++ ": " ++ String.ofList line.text ++
    (if line.truncated then "…[line truncated]" else "") ++ "\n"

def ReadNote.render : ReadNote → String
  | .limit lines next =>
    "stopped at " ++ lines.repr ++ " lines; re-read with offset " ++ next.repr
  | .stopped line next =>
    "stopped before completing the read at line " ++ line.repr ++ "; re-read with offset " ++
      next.repr
  | .empty => "file is empty"

/-- The outcome of a call, as the model sees it. -/
def ReadOutcome.toToolOutcome (resolved : String) : ReadOutcome → ToolOutcome
  | .cancelled => .failed "read: cancelled before reading"
  | .binary line =>
    .failed ("'" ++ resolved ++ "' looks binary: a NUL byte appeared at line " ++ line.repr ++
      ". Read a text file, or use a tool that handles binaries.")
  | .finished out notes =>
    .succeeded (String.join (out.map ShownLine.render) ++
      if notes.isEmpty then ""
      else "\n[" ++ String.intercalate "; " (notes.map ReadNote.render) ++ "]\n")

example : (ReadOutcome.finished [⟨12, "ab".toList, true⟩] [.limit 1 13]).toToolOutcome "f" =
    .succeeded "   12: ab…[line truncated]\n\n[stopped at 1 lines; re-read with offset 13]\n" := by
  decide +kernel

/-! ### Reading on -/

/-- Where a run of calls goes on: at an offset, or nowhere. -/
inductive Paging where
  | next (offset : Option Nat)
  | finished
  | failed
  deriving DecidableEq, Repr

def ReadNote.next : ReadNote → Option Nat
  | .limit _ next => some next
  | .stopped _ next => some next
  | .empty => none

def ReadOutcome.shown : ReadOutcome → List ShownLine
  | .finished out _ => out
  | _ => []

def ReadOutcome.paging : ReadOutcome → Paging
  | .cancelled => .failed
  | .binary _ => .failed
  | .finished _ notes =>
    match notes.findSome? ReadNote.next with
    | some next => .next (some next)
    | none => .finished

open ReadTool

/-- What a number of calls have shown, each at the offset that the last one named. -/
def transcript (maxLineBytes : Nat) (limit : Option Nat) (calls : Nat → Call)
    (start : Option Nat) : Nat → Except ReadError (List ShownLine × Paging)
  | 0 => .ok ([], .next start)
  | j + 1 => do
    let (out, paging) ← transcript maxLineBytes limit calls start j
    match paging with
    | .next offset => do
      let outcome ← execute maxLineBytes offset limit (calls j)
      .ok (out ++ outcome.shown, outcome.paging)
    | paging => .ok (out, paging)

/-- The lines from one number to another, each once and in order, with their texts, or a marked
beginning of the text. -/
structure Shows (content : List UInt8) (first last : Nat) (out : List ShownLine) : Prop where
  numbers : out.map ShownLine.number = List.range' first (last + 1 - first)
  texts : ∀ line ∈ out, ∃ segment, (lineSegments content)[line.number - 1]? = some segment ∧
    (line.truncated = false ∧ line.text = trimLineEnd (fromUtf8Lossy segment) ∨
      line.truncated = true ∧ line.text <+: fromUtf8Lossy segment)

/-- A call that is not stopped while lines in front of its offset are left to read. -/
def ReachesOffset (content : List UInt8) (offset : Option Nat) (call : Call) : Prop :=
  ∀ i < (lineSegments content).length, i + 1 < offsetOf offset → call.clocks.before i = false

/-- A call that is not stopped before it has read the line at its offset. -/
def Proceeds (offset : Option Nat) (call : Call) : Prop :=
  ∀ i < offsetOf offset, call.clocks.before i = false

/-! ### What is shown of a line -/

section Lines

variable {maxLineBytes : Nat} {segment text shown : List UInt8}

/-- The bytes of a line that are kept, and whether that is all of it. -/
def kept (limit : Nat) (segment : List UInt8) : List UInt8 × Bool :=
  if (withoutBreak segment).length ≤ limit then (segment, false)
  else ((withoutBreak segment).take limit, true)

/-- A line of the file as it is shown. -/
def shownOf (maxLineBytes number : Nat) (segment : List UInt8) : ShownLine :=
  let bytes := kept (lineLimit maxLineBytes) segment
  ⟨number, (shownText maxLineBytes bytes.1 bytes.2).1, (shownText maxLineBytes bytes.1 bytes.2).2⟩

lemma outcome_eq_kept (limit : Nat) (segment : List UInt8) :
    outcome limit .truncate segment = .line (kept limit segment).1 (kept limit segment).2 := by
  rw [kept]
  split_ifs with hfits
  · exact outcome_of_le hfits
  · exact outcome_truncate (not_le.1 hfits)

lemma mem_of_mem_kept {limit : Nat} {b : UInt8} (h : b ∈ (kept limit segment).1) : b ∈ segment := by
  rw [kept] at h
  split_ifs at h
  · exact h
  · exact List.mem_of_mem_filter (List.mem_of_mem_take h)

lemma trimLineEnd_begins (text : List Char) : trimLineEnd text <+: text :=
  List.rdropWhile_prefix _ _

/-- Of a text that begins as another does for longer than it is shown, the same is shown. -/
lemma takeBytes_of_longer {n : Nat} {display front tail : List Char}
    (hdisplay : display <+: front ++ tail) (hlong : n < byteSize front) :
    takeBytes n display <+: front := by
  have htake := ( takeBytes_prefix n display).trans hdisplay
  rcases List.prefix_or_prefix_of_prefix htake (List.prefix_append front tail) with h | ⟨back, h⟩
  · exact h
  · have hsize := byteSize_takeBytes_le n display
    rw [← h, byteSize, Cut.total_append] at hsize
    rw [byteSize] at hlong
    omega

/-- **A line is shown with its text, or with a marked beginning of it.** -/
lemma shownOf_text (hlength : segment.length ≤ usizeMax)
    (hbegins : withoutBreak segment <+: segment) (number : Nat) :
    (shownOf maxLineBytes number segment).truncated = false ∧
        (shownOf maxLineBytes number segment).text = trimLineEnd (fromUtf8Lossy segment) ∨
      (shownOf maxLineBytes number segment).truncated = true ∧
        (shownOf maxLineBytes number segment).text <+: fromUtf8Lossy segment := by
  rw [shownOf, kept]
  split_ifs with hfits
  · simp only [shownText, Bool.false_or]
    split_ifs
    · exact .inr ⟨rfl, ( takeBytes_prefix _ _).trans (trimLineEnd_begins _)⟩
    · exact .inl ⟨rfl, rfl⟩
  · right
    simp only [shownText, Bool.true_or, if_true, true_and]
    have hwithout : (withoutBreak segment).length ≤ segment.length := List.length_filter_le _ _
    have hlimit : lineLimit maxLineBytes = maxLineBytes + 4 := by
      rw [lineLimit] at hfits ⊢
      omega
    obtain ⟨back, hback⟩ :=
      (List.take_prefix (lineLimit maxLineBytes) (withoutBreak segment)).trans hbegins
    obtain ⟨text, tail, htext, hwhole, hsize⟩ := exists_prefix_fromUtf8Lossy
      ((withoutBreak segment).take (lineLimit maxLineBytes)) back
    rw [List.length_take_of_le (not_le.1 hfits).le, hlimit] at hsize
    rw [hback] at hwhole
    have hdisplay := trimLineEnd_begins
      (fromUtf8Lossy ((withoutBreak segment).take (lineLimit maxLineBytes)))
    rw [htext] at hdisplay ⊢
    exact ( takeBytes_of_longer hdisplay (by rw [byteSize]; omega)).trans hwhole

end Lines

/-! ### The lines of a call -/

/-- The lines of a file as they are shown. -/
def numbered (maxLineBytes : Nat) (segments : List (List UInt8)) : List ShownLine :=
  segments.mapIdx fun i segment => shownOf maxLineBytes (i + 1) segment

/-- The items behind the one position up to the other. -/
def slice (items : List α) (first last : Nat) : List α := (items.take last).drop first

/-- The loop when so many lines were read and nothing has stopped it. -/
def stateAt (maxLineBytes offset : Nat) (segments : List (List UInt8)) (k : Nat) : Reading :=
  ⟨k, k - (offset - 1), slice (numbered maxLineBytes segments) (offset - 1) k, false, false, none⟩

/-- How the loop ends, and behind which line. -/
inductive Ends (maxLineBytes offset limit : Nat) (clocks : ReadClocks)
    (segments : List (List UInt8)) : Reading → Nat → Prop
  | ended : Ends maxLineBytes offset limit clocks segments
      (stateAt maxLineBytes offset segments segments.length) segments.length
  | stopped (last : Nat) (hle : last ≤ segments.length)
      (hstop : clocks.before last = true ∨ offset ≤ last) :
      Ends maxLineBytes offset limit clocks segments
        { stateAt maxLineBytes offset segments last with stoppedEarly := true } last
  | limited (last : Nat) (hlt : last < segments.length) (hlimit : last + 1 = offset + limit) :
      Ends maxLineBytes offset limit clocks segments
        { stateAt maxLineBytes offset segments last with
          lineNumber := last + 1
          truncatedByLimit := true } last

section Loop

variable {maxLineBytes offset limit : Nat} {clocks : ReadClocks} {segments : List (List UInt8)}
  {k : Nat}

lemma slice_of_le {items : List α} {first last : Nat} (h : last ≤ first) :
    slice items first last = [] := by
  rw [slice, List.drop_eq_nil_iff]
  exact (List.length_take_le _ _).trans h

lemma slice_succ {items : List α} {first : Nat} (hfirst : first ≤ k) (hk : k < items.length) :
    slice items first (k + 1) = slice items first k ++ [items.get ⟨k, hk⟩] := by
  rw [slice, List.take_succ_eq_append_getElem hk, List.drop_append_of_le_length]
  · rfl
  · rw [List.length_take_of_le hk.le]
    exact hfirst

@[simp] lemma length_numbered : (numbered maxLineBytes segments).length = segments.length := by
  simp [numbered]

lemma get_numbered (hk : k < segments.length) :
    (numbered maxLineBytes segments).get ⟨k, by simpa using hk⟩ =
      shownOf maxLineBytes (k + 1) (segments.get ⟨k, hk⟩) := by
  simp [numbered]

lemma stateAt_skip (h : k + 1 < offset) :
    stateAt maxLineBytes offset segments (k + 1) =
      { stateAt maxLineBytes offset segments k with lineNumber := k + 1 } := by
  rw [stateAt, stateAt, slice_of_le (by omega), slice_of_le (by omega)]
  simp only [Reading.mk.injEq, true_and, and_true]
  omega

lemma stateAt_show (hk : k < segments.length) (h : offset ≤ k + 1) :
    stateAt maxLineBytes offset segments (k + 1) =
      { stateAt maxLineBytes offset segments k with
        lineNumber := k + 1
        emitted := k - (offset - 1) + 1
        out := slice (numbered maxLineBytes segments) (offset - 1) k ++
          [shownOf maxLineBytes (k + 1) (segments.get ⟨k, hk⟩)] } := by
  rw [stateAt, stateAt, slice_succ (by omega) (by simpa using hk), get_numbered hk]
  simp only [Reading.mk.injEq, true_and, and_true]
  omega

lemma usizeAdd_of_le {a b : Nat} (h : a + b ≤ usizeMax) : usizeAdd a b = .ok (a + b) := if_pos h

/-- A line that the loop goes through. -/
lemma readLines_line {st : Reading} {bytes : List UInt8} {capped : Bool}
    {reads : List BoundedLine.LineRead}
    (hbefore : clocks.before st.lineNumber = false) (hnul : '\x00' ∉ fromUtf8Lossy bytes)
    (hnumber : st.lineNumber + 1 ≤ usizeMax) (hemitted : st.emitted + 1 ≤ usizeMax) :
    ReadTool.readLines maxLineBytes offset limit clocks st (.line bytes capped :: reads) =
      if st.lineNumber + 1 < offset then
        ReadTool.readLines maxLineBytes offset limit clocks
          { st with lineNumber := st.lineNumber + 1 } reads
      else if limit ≤ st.emitted then
        .ok { st with lineNumber := st.lineNumber + 1, truncatedByLimit := true }
      else
        let next := { st with
          lineNumber := st.lineNumber + 1
          emitted := st.emitted + 1
          out := st.out ++ [⟨st.lineNumber + 1, (shownText maxLineBytes bytes capped).1,
            (shownText maxLineBytes bytes capped).2⟩] }
        if clocks.after (st.lineNumber + 1) then .ok { next with stoppedEarly := true }
        else ReadTool.readLines maxLineBytes offset limit clocks next reads := by
  rw [ReadTool.readLines, if_neg (by simp [hbefore]), usizeAdd_of_le hnumber, ok_bind]
  simp only [if_neg hnul, usizeAdd_of_le hemitted, ok_bind]

/-- The loop, from where nothing has stopped it. -/
lemma readLines_stateAt (hsize : segments.length < usizeMax) (hoffset : 1 ≤ offset)
    (hnul : ∀ segment ∈ segments, 0 ∉ segment) (hk : k ≤ segments.length)
    (hroom : k - (offset - 1) ≤ limit) :
    ∃ st last, ReadTool.readLines maxLineBytes offset limit clocks
        (stateAt maxLineBytes offset segments k)
        ((segments.drop k).map (outcome (lineLimit maxLineBytes) .truncate)) = .ok st ∧
      Ends maxLineBytes offset limit clocks segments st last := by
  generalize hleft : segments.length - k = left
  induction left generalizing k with
  | zero =>
    obtain rfl : k = segments.length := by omega
    rw [List.drop_length, List.map_nil, ReadTool.readLines]
    cases hbefore : clocks.before segments.length with
    | true => exact ⟨_, _, by rw [stateAt, hbefore], .stopped _ le_rfl (.inl hbefore)⟩
    | false => exact ⟨_, _, by rw [stateAt, hbefore], .ended⟩
  | succ left ih =>
    have hlt : k < segments.length := by omega
    rw [List.drop_eq_getElem_cons hlt, List.map_cons, outcome_eq_kept]
    cases hbefore : clocks.before k with
    | true =>
      rw [ReadTool.readLines, if_pos (by simpa [stateAt] using hbefore)]
      exact ⟨_, _, rfl, .stopped k hk (.inl hbefore)⟩
    | false =>
      have htext : '\x00' ∉ fromUtf8Lossy (kept (lineLimit maxLineBytes) segments[k]).1 :=
        fun hmem => hnul _ (List.getElem_mem hlt) (mem_of_mem_kept (zero_mem_of_nul_mem hmem))
      rw [readLines_line (by simpa [stateAt] using hbefore) htext (by simp only [stateAt]; omega)
        (by simp only [stateAt]; omega)]
      have hnumber : (stateAt maxLineBytes offset segments k).lineNumber = k := rfl
      have hemitted : (stateAt maxLineBytes offset segments k).emitted = k - (offset - 1) := rfl
      rw [hnumber, hemitted]
      split_ifs with hskip hfull hafter
      · have hnext := ih (k := k + 1) hlt (by omega) (by omega)
        rw [stateAt_skip hskip] at hnext
        exact hnext
      · exact ⟨_, _, rfl, .limited k hlt (by omega)⟩
      · have hnext := @Ends.stopped maxLineBytes offset limit clocks segments (k + 1) hlt
          (.inr (not_lt.1 hskip))
        rw [stateAt_show hlt (not_lt.1 hskip)] at hnext
        exact ⟨_, _, rfl, hnext⟩
      · have hnext := ih (k := k + 1) hlt (by omega) (by omega)
        rw [stateAt_show hlt (not_lt.1 hskip)] at hnext
        exact hnext

/-- The notes name the line behind the last that was read. -/
lemma notesOf_ends {st : Reading} {last : Nat} (hsize : segments.length < usizeMax)
    (hlimit : 1 ≤ limit) (h : Ends maxLineBytes offset limit clocks segments st last) :
    st.binaryAt = none ∧ last ≤ segments.length ∧
      st.out = slice (numbered maxLineBytes segments) (offset - 1) last ∧
      ∃ notes, notesOf offset limit st = .ok notes ∧
        (notes.findSome? ReadNote.next = none ∧ last = segments.length ∨
          notes.findSome? ReadNote.next = some (last + 1) ∧
            (clocks.before last = true ∨ offset ≤ last)) := by
  cases h with
  | ended =>
    refine ⟨rfl, le_rfl, rfl, _, rfl, .inl ⟨?_, rfl⟩⟩
    simp only [List.nil_append]
    split_ifs <;> rfl
  | stopped last hle hstop =>
    have hadd : usizeAdd last 1 = .ok (last + 1) := usizeAdd_of_le (by omega)
    refine ⟨rfl, hle, rfl, [.stopped last (last + 1)] ++ if last = 0 then [.empty] else [], ?_,
      .inr ⟨rfl, hstop⟩⟩
    rw [notesOf]
    simp only [stateAt, hadd, Except.map, ok_bind, if_true, Bool.false_eq_true, if_false]
    rfl
  | limited last hlt hlimit' =>
    have hadd : usizeAdd offset limit = .ok (last + 1) := by
      rw [usizeAdd_of_le (by omega), hlimit']
    refine ⟨rfl, hlt.le, rfl, [.limit limit (last + 1)], ?_, .inr ⟨rfl, .inr (by omega)⟩⟩
    rw [notesOf]
    simp [stateAt, hadd, Except.map]

end Loop

/-! ### A call -/

section Calls

variable {maxLineBytes : Nat} {content : List UInt8} {limit start offset : Option Nat} {call : Call}

lemma one_le_limitOf (limit : Option Nat) : 1 ≤ limitOf limit := by
  rw [limitOf, maxLimit]
  omega

lemma one_le_offsetOf (offset : Option Nat) : 1 ≤ offsetOf offset := le_max_right _ _

lemma offsetOf_next (last : Nat) : offsetOf (some (last + 1)) = last + 1 :=
  max_eq_left (Nat.le_add_left 1 last)

/-- **What a call shows, and where it says to read on**: lines from its offset on, and the line
behind the last of them, or behind those that were read before it was stopped. -/
lemma execute_spec (hsize : content.length < usizeMax) (hnul : 0 ∉ content)
    (hcontent : call.buffers.flatten = content) (hentry : call.clocks.entry = false) :
    ∃ outcome last, execute maxLineBytes offset limit call = .ok outcome ∧
      last ≤ (lineSegments content).length ∧
      outcome.shown =
        slice (numbered maxLineBytes (lineSegments content)) (offsetOf offset - 1) last ∧
      (outcome.paging = .finished ∧ last = (lineSegments content).length ∨
        outcome.paging = .next (some (last + 1)) ∧
          (call.clocks.before last = true ∨ offsetOf offset ≤ last)) := by
  have hlines : (lineSegments content).length < usizeMax :=
    (length_lineSegments_le content).trans_lt hsize
  have hsegments : ∀ segment ∈ lineSegments content, 0 ∉ segment := fun segment hmem hzero =>
    hnul ((sublist_of_mem_lineSegments hmem).subset hzero)
  have hpositive : 0 < lineLimit maxLineBytes := lt_max_of_lt_right Nat.one_pos
  obtain ⟨st, last, hread, hends⟩ := @readLines_stateAt maxLineBytes (offsetOf offset)
    (limitOf limit) call.clocks (lineSegments content) 0 hlines (one_le_offsetOf offset) hsegments
    (Nat.zero_le _) (by omega)
  obtain ⟨hbinary, hle, hout, notes, hnotes, hnext⟩ :=
    notesOf_ends hlines (one_le_limitOf limit) hends
  have hstart : stateAt maxLineBytes (offsetOf offset) (lineSegments content) 0 =
      ⟨0, 0, [], false, false, none⟩ := by
    rw [stateAt, slice_of_le (Nat.zero_le _), Nat.zero_sub]
  rw [hstart, List.drop_zero, ← hcontent, ← readBoundedLines_truncate hpositive] at hread
  refine ⟨.finished st.out notes, last, ?_, hle, hout, ?_⟩
  · rw [execute, if_neg (by simp [hentry]), hread, ok_bind]
    simp only [hbinary, hnotes, ok_bind]
  · rcases hnext with ⟨hnone, hlast⟩ | ⟨hsome, hstop⟩
    · exact .inl ⟨by rw [ReadOutcome.paging, hnone], hlast⟩
    · exact .inr ⟨by rw [ReadOutcome.paging, hsome], hstop⟩

/-! ### A run of calls -/

/-- Slices that meet. -/
lemma slice_append {items : List α} {a b c : Nat} (hab : min items.length a ≤ b)
    (hbc : min items.length b ≤ c) : slice items a b ++ slice items b c = slice items a c := by
  have hsplit : items.take c = items.take b ++ (items.take c).drop b := by
    conv_lhs => rw [← List.take_append_drop b (items.take c)]
    rw [List.take_take, List.take_eq_take_min, List.take_eq_take_min (i := b)]
    congr 2
    omega
  rw [show slice items a c = (items.take c).drop a from rfl, hsplit, List.drop_append]
  refine congrArg (slice items a b ++ ·) ?_
  rcases Nat.lt_or_ge b items.length with hlt | hge
  · rw [List.length_take_of_le hlt.le, Nat.sub_eq_zero_of_le (by omega), List.drop_zero, slice]
  · have hnil : slice items b c = [] := by
      rw [slice, List.drop_eq_nil_iff]
      exact (List.length_take_le' _ _).trans hge
    rw [hnil, show (items.take c).drop b = [] from hnil, List.drop_nil]

lemma slice_min {items : List α} {a b : Nat} :
    slice items a (min items.length b) = slice items a b := by
  rw [slice, slice, Nat.min_comm, ← List.take_eq_take_min]

/-- What holds of a run after a number of calls: it has shown the lines up to one of them. -/
structure Covers (maxLineBytes : Nat) (content : List UInt8) (start : Option Nat)
    (out : List ShownLine) (paging : Paging) (last : Nat) : Prop where
  last_le : last ≤ (lineSegments content).length
  start_le : min (lineSegments content).length (offsetOf start - 1) ≤ last
  shown : out = slice (numbered maxLineBytes (lineSegments content)) (offsetOf start - 1) last
  next : ∀ offset, paging = .next offset →
    last = min (lineSegments content).length (offsetOf offset - 1)
  finished : paging = .finished → last = (lineSegments content).length

variable {calls : Nat → Call} {out : List ShownLine} {paging : Paging} {j last : Nat}

lemma transcript_succ (h : transcript maxLineBytes limit calls start j = .ok (out, .next offset)) :
    transcript maxLineBytes limit calls start (j + 1) =
      execute maxLineBytes offset limit (calls j) >>= fun outcome =>
        .ok (out ++ outcome.shown, outcome.paging) := by
  rw [transcript, h]
  rfl

lemma transcript_ended (h : transcript maxLineBytes limit calls start j = .ok (out, paging))
    (hended : paging = .finished ∨ paging = .failed) :
    transcript maxLineBytes limit calls start (j + 1) = .ok (out, paging) := by
  rw [transcript, h]
  rcases hended with rfl | rfl <;> rfl

lemma covers_start : Covers maxLineBytes content start [] (.next start)
    (min (lineSegments content).length (offsetOf start - 1)) where
  last_le := Nat.min_le_left _ _
  start_le := le_rfl
  shown := (slice_of_le (Nat.min_le_right _ _)).symm
  next offset h := by
    cases h
    rfl
  finished h := by cases h

/-- **A call goes on where the calls before it have stopped.** -/
lemma covers_step (hsize : content.length < usizeMax) (hnul : 0 ∉ content)
    (hcontent : (calls j).buffers.flatten = content)
    (hreach : ReachesOffset content offset (calls j)) (hentry : (calls j).clocks.entry = false)
    (h : transcript maxLineBytes limit calls start j = .ok (out, .next offset))
    (hcovers : Covers maxLineBytes content start out (.next offset) last) :
    ∃ out' paging' last',
      transcript maxLineBytes limit calls start (j + 1) = .ok (out', paging') ∧
        Covers maxLineBytes content start out' paging' last' ∧
        (paging' = .finished ∨ paging' = .next (some (last' + 1)) ∧
          ((calls j).clocks.before last' = true ∨ offsetOf offset ≤ last')) := by
  obtain ⟨outcome, last', hexecute, hle, hshown, hpaging⟩ :=
    @execute_spec maxLineBytes content limit offset (calls j) hsize hnul hcontent hentry
  have hlast := hcovers.next offset rfl
  -- the lines in front of the offset were read, or there are no more
  have hon : min (lineSegments content).length (offsetOf offset - 1) ≤ last' := by
    rcases hpaging with ⟨-, hend⟩ | ⟨-, hbefore | hpassed⟩
    · omega
    · by_contra hback
      have hearly := hreach last' (by omega) (by omega)
      rw [hbefore] at hearly
      cases hearly
    · omega
  have hstart := hcovers.start_le
  have hjoined : out ++ outcome.shown =
      slice (numbered maxLineBytes (lineSegments content)) (offsetOf start - 1) last' := by
    have hlength : (numbered maxLineBytes (lineSegments content)).length =
        (lineSegments content).length := length_numbered
    have hout := hcovers.shown
    rw [hlast, ← hlength, slice_min] at hout
    rw [hout, hshown, slice_append]
    · rw [hlength]
      omega
    · rwa [hlength]
  refine ⟨out ++ outcome.shown, outcome.paging, last', ?_, ⟨hle, by omega, hjoined, ?_, ?_⟩, ?_⟩
  · rw [transcript_succ h, hexecute, ok_bind]
  · intro next hnext
    rcases hpaging with ⟨hfinished, -⟩ | ⟨hgoes, -⟩
    · rw [hfinished] at hnext
      cases hnext
    · rw [hgoes] at hnext
      cases hnext
      rw [offsetOf_next, Nat.add_sub_cancel, Nat.min_eq_right hle]
  · intro hfinished
    rcases hpaging with ⟨-, hend⟩ | ⟨hgoes, -⟩
    · exact hend
    · rw [hgoes] at hfinished
      cases hfinished
  · exact hpaging.imp_left And.left

/-- A run, after every number of calls. -/
lemma transcript_covers (hsize : content.length < usizeMax) (hnul : 0 ∉ content)
    (hcontent : ∀ j, (calls j).buffers.flatten = content)
    (hreach : ∀ j out offset, transcript maxLineBytes limit calls start j =
      .ok (out, .next offset) → ReachesOffset content offset (calls j)) (j : Nat) :
    ∃ out paging last, transcript maxLineBytes limit calls start j = .ok (out, paging) ∧
      Covers maxLineBytes content start out paging last ∧
      (paging = .failed → ∃ i < j, (calls i).clocks.entry = true) := by
  induction j with
  | zero => exact ⟨[], .next start, _, rfl, covers_start, fun h => by cases h⟩
  | succ j ih =>
    obtain ⟨out, paging, last, h, hcovers, hfailed⟩ := ih
    have hended : paging = .finished ∨ paging = .failed →
        ∃ out' paging' last', transcript maxLineBytes limit calls start (j + 1) =
          .ok (out', paging') ∧ Covers maxLineBytes content start out' paging' last' ∧
          (paging' = .failed → ∃ i < j + 1, (calls i).clocks.entry = true) := fun hended =>
      ⟨out, paging, last, transcript_ended h hended, hcovers, fun hp =>
        (hfailed hp).imp fun i hi => ⟨Nat.lt_succ_of_lt hi.1, hi.2⟩⟩
    cases paging with
    | finished => exact hended (.inl rfl)
    | failed => exact hended (.inr rfl)
    | next offset =>
      cases hentry : (calls j).clocks.entry with
      | true =>
        refine ⟨out ++ [], .failed, last, ?_, ?_, fun _ => ⟨j, Nat.lt_succ_self j, hentry⟩⟩
        · rw [transcript_succ h, execute, if_pos hentry, ok_bind]
          rfl
        · rw [List.append_nil]
          exact ⟨hcovers.last_le, hcovers.start_le, hcovers.shown, fun _ h => (by cases h),
            fun h => (by cases h)⟩
      | false =>
        obtain ⟨out', paging', last', hnext, hcovers', hpaging⟩ :=
          covers_step hsize hnul (hcontent j) (hreach j out offset h) hentry h hcovers
        refine ⟨out', paging', last', hnext, hcovers', fun hp => ?_⟩
        rcases hpaging with hfinished | ⟨hgoes, -⟩
        · rw [hfinished] at hp
          cases hp
        · rw [hgoes] at hp
          cases hp

/-- Every call that is not stopped before the line at its offset moves the run on. -/
lemma transcript_advances (hsize : content.length < usizeMax) (hnul : 0 ∉ content)
    (hcontent : ∀ j, (calls j).buffers.flatten = content)
    (hreach : ∀ j out offset, transcript maxLineBytes limit calls start j =
      .ok (out, .next offset) → ReachesOffset content offset (calls j)) {m : Nat}
    (hproceeds : ∀ j ≥ m, ∀ out offset, transcript maxLineBytes limit calls start j =
      .ok (out, .next offset) → Proceeds offset (calls j)) (d : Nat) :
    (∃ j out paging, transcript maxLineBytes limit calls start j = .ok (out, paging) ∧
        (paging = .finished ∨ paging = .failed)) ∨
      ∃ out offset last, transcript maxLineBytes limit calls start (m + d) =
        .ok (out, .next offset) ∧ Covers maxLineBytes content start out (.next offset) last ∧
          d ≤ last := by
  induction d with
  | zero =>
    obtain ⟨out, paging, last, h, hcovers, -⟩ := transcript_covers hsize hnul hcontent hreach m
    cases paging with
    | finished => exact .inl ⟨m, out, _, h, .inl rfl⟩
    | failed => exact .inl ⟨m, out, _, h, .inr rfl⟩
    | next offset => exact .inr ⟨out, offset, last, h, hcovers, Nat.zero_le last⟩
  | succ d ih =>
    rcases ih with hended | ⟨out, offset, last, h, hcovers, hd⟩
    · exact .inl hended
    · cases hentry : (calls (m + d)).clocks.entry with
      | true =>
        refine .inl ⟨m + d + 1, out ++ [], .failed, ?_, .inr rfl⟩
        rw [transcript_succ h, execute, if_pos hentry, ok_bind]
        rfl
      | false =>
        obtain ⟨out', paging', last', hnext, hcovers', hpaging⟩ :=
          covers_step hsize hnul (hcontent _) (hreach _ out offset h) hentry h hcovers
        rcases hpaging with rfl | ⟨rfl, hstop⟩
        · exact .inl ⟨m + d + 1, out', _, hnext, .inl rfl⟩
        · have hpassed : offsetOf offset ≤ last' := by
            by_contra hback
            have hgoes := hproceeds (m + d) (Nat.le_add_right m d) out offset h last' (by omega)
            rcases hstop with hbefore | hpassed
            · rw [hgoes] at hbefore
              cases hbefore
            · exact hback hpassed
          have hlast := hcovers.next offset rfl
          have hoffset := one_le_offsetOf offset
          exact .inr ⟨out', _, last', hnext, hcovers', by omega⟩

/-- The lines between two positions are shown once each and in order. -/
lemma shows_slice (hsize : content.length < usizeMax) {first : Nat} (hfirst : 1 ≤ first)
    (hlast : last ≤ (lineSegments content).length) :
    Shows content first last
      (slice (numbered maxLineBytes (lineSegments content)) (first - 1) last) where
  numbers := by
    have hnumbers : (numbered maxLineBytes (lineSegments content)).map ShownLine.number =
        List.range' 1 (lineSegments content).length := by
      refine List.ext_getElem (by simp) fun i hi hi' => ?_
      simp [numbered, shownOf, Nat.add_comm]
    rw [slice, List.map_drop, List.map_take, hnumbers]
    refine List.ext_getElem ?_ fun i hi hi' => ?_
    · simp only [List.length_drop, List.length_take, List.length_range']
      omega
    · simp only [List.getElem_drop, List.getElem_take, List.getElem_range']
      omega
  texts line hmem := by
    have hline := List.mem_of_mem_take (List.mem_of_mem_drop hmem)
    rw [numbered, List.mem_mapIdx] at hline
    obtain ⟨i, hi, rfl⟩ := hline
    have hsegment := List.getElem_mem hi
    refine ⟨(lineSegments content)[i], ?_, shownOf_text ?_ (withoutBreak_begins hsegment) _⟩
    · exact List.getElem?_eq_getElem hi
    · exact ((sublist_of_mem_lineSegments hsegment).length_le.trans_lt hsize).le

/-- **Paged reads cover the file**: calls that are not stopped while lines in front of their offset
are left show the lines from the start on, each once and in order, and none of them overflows. A run
that comes to its end has shown the last line, unless a call was cancelled on entry; and it comes to
an end if from some call on none is stopped before the line at its offset. -/
theorem paged_reads_cover (hsize : content.length < usizeMax) (hnul : 0 ∉ content)
    (hcontent : ∀ j, (calls j).buffers.flatten = content)
    (hreach : ∀ j out offset, transcript maxLineBytes limit calls start j =
      .ok (out, .next offset) → ReachesOffset content offset (calls j)) :
    (∀ j, ∃ out paging last, transcript maxLineBytes limit calls start j = .ok (out, paging) ∧
      last ≤ (lineSegments content).length ∧ Shows content (offsetOf start) last out ∧
      (paging = .finished → last = (lineSegments content).length) ∧
      (paging = .failed → ∃ i < j, (calls i).clocks.entry = true)) ∧
    ((∃ m, ∀ j ≥ m, ∀ out offset, transcript maxLineBytes limit calls start j =
        .ok (out, .next offset) → Proceeds offset (calls j)) →
      ∃ j out paging, transcript maxLineBytes limit calls start j = .ok (out, paging) ∧
        (paging = .finished ∨ paging = .failed)) := by
  constructor
  · intro j
    obtain ⟨out, paging, last, h, hcovers, hfailed⟩ :=
      transcript_covers hsize hnul hcontent hreach j
    refine ⟨out, paging, last, h, hcovers.last_le, ?_, hcovers.finished, hfailed⟩
    rw [hcovers.shown]
    exact shows_slice hsize (one_le_offsetOf start) hcovers.last_le
  · rintro ⟨m, hproceeds⟩
    rcases transcript_advances hsize hnul hcontent hreach hproceeds
      ((lineSegments content).length + 1) with hended | ⟨out, offset, last, -, hcovers, hd⟩
    · exact hended
    · exact absurd hcovers.last_le (by omega)

/-- A call that nothing stops. -/
def calmCall (content : List UInt8) : Call := ⟨[content], ⟨false, fun _ => false, fun _ => false⟩⟩

/-- A file of two lines, a line at a time. -/
theorem paged_reads_cover_calm :
    (∀ j, ∃ out paging last,
      transcript 4096 (some 1) (fun _ => calmCall [97, 10, 98]) none j = .ok (out, paging) ∧
      last ≤ (lineSegments [97, 10, 98]).length ∧ Shows [97, 10, 98] (offsetOf none) last out ∧
      (paging = .finished → last = (lineSegments [97, 10, 98]).length) ∧
      (paging = .failed → ∃ i < j, (calmCall [97, 10, 98]).clocks.entry = true)) ∧
    ((∃ m, ∀ j ≥ m, ∀ out offset,
        transcript 4096 (some 1) (fun _ => calmCall [97, 10, 98]) none j =
          .ok (out, .next offset) → Proceeds offset (calmCall [97, 10, 98])) →
      ∃ j out paging,
        transcript 4096 (some 1) (fun _ => calmCall [97, 10, 98]) none j = .ok (out, paging) ∧
        (paging = .finished ∨ paging = .failed)) :=
  paged_reads_cover (by decide) (by decide) (fun _ => rfl) fun _ _ _ _ _ _ _ => rfl

/-- A call that is cancelled on entry. -/
def cancelledCall (content : List UInt8) : Call :=
  ⟨[content], ⟨true, fun _ => false, fun _ => false⟩⟩

lemma transcript_cancelled (content : List UInt8) (j : Nat) :
    transcript maxLineBytes limit (fun _ => cancelledCall content) start j = .ok ([], .next start) ∨
      transcript maxLineBytes limit (fun _ => cancelledCall content) start j =
        .ok ([], .failed) := by
  induction j with
  | zero => exact .inl rfl
  | succ j ih =>
    rcases ih with h | h
    · right
      rw [transcript_succ h]
      rfl
    · exact .inr (transcript_ended h (.inr rfl))

/-- A call that is cancelled on entry names no offset, and the line of the file is never shown. -/
theorem cancelled_on_entry_not_covered :
    ¬ ∃ j out paging, transcript 4096 none (fun _ => cancelledCall [97, 10]) none j =
        .ok (out, paging) ∧
      Shows [97, 10] (offsetOf none) (lineSegments [97, 10]).length out := by
  rintro ⟨j, out, paging, h, hshows⟩
  have hnumbers := hshows.numbers
  have hout : out = [] := by
    rcases @transcript_cancelled 4096 none none [97, 10] j with hj | hj <;>
      (rw [hj] at h; cases h; rfl)
  rw [hout] at hnumbers
  revert hnumbers
  decide

end Calls

end Rupi
