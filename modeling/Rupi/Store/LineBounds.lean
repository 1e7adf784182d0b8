import Mathlib.Data.String.Basic
import Rupi.Store.LineReader
import Rupi.Store.ProjectionWal

/-!
Whether a reader takes back what a writer accepted.

The reader's bound is on a line with its line break. The session log's bound is, too;
the trace journal's and the projection log's are on the line without it, so a line of
exactly the bound is accepted and then too long to be read.

- `ReturnedWhole`: the line is returned whole.
- `TakenBack`: it is, and it decodes where it stands.
- **`accepted_takenBack_iff`**: for every writer, and for the repair of an unfinished
  line, when that is so.
-/

namespace Rupi

open Value

/-! ### The text of an object -/

/-- A line of an object opens and closes with its braces. -/
lemma compactLine_object (fields : List (String × Value)) :
    ∃ inner, compactLine (object fields) = 123 :: (inner ++ [125]) := by
  refine ⟨utf8Bytes (printFields fields), ?_⟩
  have hopen : String.utf8EncodeChar '\x7b' = [123] := by decide
  have hclose : String.utf8EncodeChar '\x7d' = [125] := by decide
  simp [compactLine, utf8Bytes, print, hopen, hclose]

lemma isObject_of_get {value field : Value} {key : String} (h : value.get key = some field) :
    ∃ fields, value = object fields := by
  cases value with
  | object fields => exact ⟨fields, rfl⟩
  | _ => simp [Value.get] at h

lemma isObject_sanitize (policy : RedactionPolicy) (fields : List (String × Value)) :
    ∃ fields', policy.sanitize (object fields) = object fields' := by
  rw [RedactionPolicy.sanitize, RedactionPolicy.applyJson]
  cases policy.enabled with
  | true => exact ⟨_, rfl⟩
  | false => exact ⟨_, rfl⟩

lemma trimEnding_encodeLine {line : Bytes} (h : line.getLast? ≠ some 13) :
    trimEnding (encodeLine line) = line := by
  have hlast : (encodeLine line).getLast? = some newline := List.getLast?_concat
  have hdrop : (encodeLine line).dropLast = line := List.dropLast_concat
  rw [trimEnding, if_pos hlast, hdrop]
  exact if_neg h

/-- The line of an object is no blank line, and ends with its line break alone. -/
lemma lineFate_object {α : Type} (decode : Bytes → Option α) (fields : List (String × Value)) :
    lineFate decode (encodeLine (compactLine (object fields)), false) =
      match decode (compactLine (object fields)) with
      | some a => .item a
      | none => .malformed := by
  obtain ⟨inner, hline⟩ := compactLine_object fields
  have htrim : trimEnding (encodeLine (compactLine (object fields))) =
      compactLine (object fields) := by
    refine trimEnding_encodeLine ?_
    rw [hline, ← List.cons_append, List.getLast?_concat]
    decide
  have hblank : (compactLine (object fields)).all isAsciiWhitespace = false := by
    rw [hline]
    rfl
  rw [lineFate, htrim, hblank]
  rfl

/-! ### Reading back -/

/-- However the file is cut and whatever stands around the line, the reader returns it
as not too long, and takes it into the report as the record it decodes to. -/
def ReturnedWhole (maxLineBytes : Nat) (line : Bytes) : Prop :=
  ∀ (before : List Bytes) (after : Bytes) (buffers : List Bytes),
    (∀ l ∈ before, newline ∉ l) → buffers.flatten = encodeLines before ++ encodeLine line ++ after →
    (readLines maxLineBytes buffers)[before.length]? = some (encodeLine line, false)

/-- Every file is complete lines and an unfinished one. -/
lemma exists_encodeLines (bytes : Bytes) :
    ∃ ls tail, bytes = encodeLines ls ++ tail ∧ (∀ line ∈ ls, newline ∉ line) ∧
      newline ∉ tail := by
  induction bytes using List.reverseRecOn with
  | nil => exact ⟨[], [], rfl, by simp, by simp⟩
  | append_singleton bytes b ih =>
    obtain ⟨ls, tail, rfl, hls, htail⟩ := ih
    by_cases hb : b = newline
    · refine ⟨ls ++ [tail], [], by simp [hb, encodeLine], fun line hline => ?_, by simp⟩
      rcases List.mem_append.mp hline with hline | hline
      · exact hls line hline
      · rwa [List.mem_singleton.mp hline]
    · refine ⟨ls, tail ++ [b], by simp, hls, fun hmem => ?_⟩
      rcases List.mem_append.mp hmem with hmem | hmem
      · exact htail hmem
      · exact hb (List.mem_singleton.mp hmem).symm

/-- A line is read back exactly when it fits the bound with its line break. -/
theorem returnedWhole_iff {maxLineBytes : Nat} {line : Bytes} (hline : newline ∉ line) :
    ReturnedWhole maxLineBytes line ↔ line.length + 1 ≤ maxLineBytes := by
  have hlength : (encodeLine line).length = line.length + 1 := by simp [encodeLine]
  rw [← hlength, ← bounded_eq_iff]
  constructor
  · intro h
    have hread := h [] [] [encodeLine line] (by simp) (by simp)
    have hlines : readLines maxLineBytes [encodeLine line] =
        [bounded maxLineBytes (encodeLine line)] := by
      have hall := @readLines_eq maxLineBytes [line] [] (by simpa using hline) (by simp)
        [encodeLine line] (by simp)
      simpa using hall
    rw [hlines] at hread
    exact Option.some.inj hread
  · intro h before after buffers hbefore hflat
    obtain ⟨ls, tail, rfl, hls, htail⟩ := exists_encodeLines after
    have hall : ∀ l ∈ before ++ line :: ls, newline ∉ l := by
      intro l hl
      rcases List.mem_append.mp hl with hl | hl
      · exact hbefore l hl
      · rcases List.mem_cons.mp hl with rfl | hl
        · exact hline
        · exact hls l hl
    have hfile : buffers.flatten = encodeLines (before ++ line :: ls) ++ tail := by
      rw [hflat, encodeLines_append]
      simp [encodeLines]
    rw [readLines_eq hall htail hfile, List.map_append, List.map_cons, h]
    simp

/-! ### The writers and the repair -/

/-- The line is returned whole, and where it decodes its record joins the report. -/
def TakenBack {α : Type} (decode : Bytes → Option α) (maxLineBytes : Nat) (line : Bytes) : Prop :=
  ReturnedWhole maxLineBytes line ∧
    ∀ a, decode line = some a → lineFate decode (encodeLine line, false) = .item a

lemma takenBack_iff {α : Type} (decode : Bytes → Option α) {maxLineBytes : Nat}
    (fields : List (String × Value)) :
    TakenBack decode maxLineBytes (compactLine (object fields)) ↔
      (compactLine (object fields)).length + 1 ≤ maxLineBytes := by
  rw [← returnedWhole_iff (newline_notMem_compactLine _)]
  refine ⟨fun h => h.1, fun h => ⟨h, fun a ha => ?_⟩⟩
  rw [lineFate_object, ha]

/-- An accepted line is no longer than the bound. -/
lemma TraceJournal.length_le_of_encodeEntry {journal : TraceJournal} {request : AppendRequest}
    {seq : EventSeq} {line : Value} (h : journal.encodeEntry request = .ok (seq, line)) :
    (compactLine line).length ≤ maxJsonlLineBytes := by
  obtain ⟨next, -, h⟩ := Fallible.bind_eq_ok.mp h
  obtain ⟨bound, -, h⟩ := Fallible.bind_eq_ok.mp h
  split_ifs at h with hlong
  obtain ⟨-, rfl⟩ := Prod.mk.inj (Except.ok.inj h)
  exact not_lt.mp hlong

lemma TraceJournal.isObject_of_encodeEntry {journal : TraceJournal} {request : AppendRequest}
    {seq : EventSeq} {line : Value} (h : journal.encodeEntry request = .ok (seq, line)) :
    ∃ fields, line = object fields := by
  have hseq := (encodeEntry_ok h).2
  cases hmeta : line.get "meta" with
  | none => simp [lineSeq, hmeta] at hseq
  | some m => exact isObject_of_get hmeta

/-- A line of the trace is taken back unless it is exactly as long as the bound. -/
lemma TraceJournal.takenBack_iff {α : Type} (decode : Bytes → Option α) {journal : TraceJournal}
    {request : AppendRequest} {seq : EventSeq} {line : Value}
    (h : journal.encodeEntry request = .ok (seq, line)) :
    TakenBack decode maxJsonlLineBytes (compactLine line) ↔
      (compactLine line).length ≠ maxJsonlLineBytes := by
  have hlength := length_le_of_encodeEntry h
  obtain ⟨fields, rfl⟩ := isObject_of_encodeEntry h
  rw [Rupi.takenBack_iff]
  omega

/-- A record of the session log is always taken back. -/
lemma SessionLog.takenBack {α : Type} (decode : Bytes → Option α) {log : SessionLog.Writer}
    {record : SessionRecord} {outcome : WriteOutcome}
    (h : (SessionLog.append log record outcome).2 = .ok ()) {line : Bytes}
    (hline : SessionLog.encodeLine log record = .ok line) :
    TakenBack decode maxJsonlLineBytes line := by
  obtain ⟨sanitized, -, henc, hbound⟩ := encodeLine_of_append h
  obtain rfl := Except.ok.inj (henc.symm.trans hline)
  exact (Rupi.takenBack_iff decode _).mpr hbound

/-- A line of the projection log is taken back unless it is exactly as long as the
bound. -/
lemma ProjectionWal.takenBack_iff {α : Type} (decode : Bytes → Option α) {wal : ProjectionWal}
    {entry : WalEntry} {outcome : WriteOutcome} (h : (wal.append entry outcome).2 = .ok ())
    {line : Bytes} (hline : wal.encodeLine entry = .ok line) :
    TakenBack decode maxWalLineBytes line ↔ line.length ≠ maxWalLineBytes := by
  obtain ⟨henc, hlength⟩ := encodeLine_of_append h
  obtain rfl := Except.ok.inj (henc.symm.trans hline)
  obtain ⟨fields, hentry⟩ : ∃ fields, entry.toValue = object fields := by
    cases entry <;> exact ⟨_, rfl⟩
  obtain ⟨fields', hobject⟩ := isObject_sanitize wal.redaction fields
  rw [hentry, hobject] at hlength ⊢
  rw [Rupi.takenBack_iff]
  omega

/-- The last line of a file whose tail was repaired is the tail, as short as it was. -/
lemma recoverAppendTail_returned_iff (isJson : Bytes → Bool) {ls : List Bytes} {tail : Bytes}
    (hls : ∀ line ∈ ls, newline ∉ line) (htail : newline ∉ tail) (hempty : tail ≠ [])
    (hread : tail.length ≤ maxJsonlLineBytes) (hjson : isJson tail = true) {buffers : List Bytes}
    (hflat : buffers.flatten = recoverAppendTail isJson (encodeLines ls ++ tail)) :
    (readLines maxJsonlLineBytes buffers)[ls.length]? = some (encodeLine tail, false) ↔
      tail.length ≠ maxJsonlLineBytes := by
  have hne : ¬tail.isEmpty = true := fun h => hempty (List.isEmpty_iff.mp h)
  have hall : ∀ line ∈ ls ++ [tail], newline ∉ line := by
    intro line hline
    rcases List.mem_append.mp hline with hline | hline
    · exact hls line hline
    · rwa [List.mem_singleton.mp hline]
  rw [recoverAppendTail_eq isJson htail, if_neg hne, if_pos ⟨hread, hjson⟩] at hflat
  have hlines := @readLines_eq maxJsonlLineBytes _ [] hall
    (by simp) buffers (hflat.trans (List.append_nil _).symm)
  have hlength : (encodeLine tail).length = tail.length + 1 := by simp [encodeLine]
  rw [hlines]
  simp only [List.isEmpty_nil, if_true, List.append_nil, List.map_append, List.map_cons,
    List.map_nil]
  rw [List.getElem?_append_right (by simp), List.length_map, Nat.sub_self,
    List.getElem?_cons_zero, Option.some.injEq, bounded_eq_iff, hlength]
  omega

/-- **What a writer accepts its reader takes back**: always for the session log; for the
trace journal, for the projection log and for a repaired tail unless the line without
its line break is exactly as long as the reader's bound with it. -/
theorem accepted_takenBack_iff {α : Type} (decode : Bytes → Option α) :
    (∀ (journal : TraceJournal) (request : AppendRequest) (outcome : WriteOutcome)
        (seq : EventSeq) (line : Value),
      (journal.appendBounded request outcome).2 = .ok seq →
      journal.encodeEntry request = .ok (seq, line) →
      (TakenBack decode maxJsonlLineBytes (compactLine line) ↔
        (compactLine line).length ≠ maxJsonlLineBytes)) ∧
    (∀ (log : SessionLog.Writer) (record : SessionRecord) (outcome : WriteOutcome) (line : Bytes),
      (SessionLog.append log record outcome).2 = .ok () →
      SessionLog.encodeLine log record = .ok line →
      TakenBack decode maxJsonlLineBytes line) ∧
    (∀ (wal : ProjectionWal) (entry : WalEntry) (outcome : WriteOutcome) (line : Bytes),
      (wal.append entry outcome).2 = .ok () → wal.encodeLine entry = .ok line →
      (TakenBack decode maxWalLineBytes line ↔ line.length ≠ maxWalLineBytes)) ∧
    ∀ (isJson : Bytes → Bool) (ls : List Bytes) (tail : Bytes) (buffers : List Bytes),
      (∀ line ∈ ls, newline ∉ line) → newline ∉ tail → tail ≠ [] →
      tail.length ≤ maxJsonlLineBytes → isJson tail = true →
      buffers.flatten = recoverAppendTail isJson (encodeLines ls ++ tail) →
      ((readLines maxJsonlLineBytes buffers)[ls.length]? = some (encodeLine tail, false) ↔
        tail.length ≠ maxJsonlLineBytes) := by
  refine ⟨fun journal request outcome seq line _ h => TraceJournal.takenBack_iff decode h,
    fun log record outcome line h hline => SessionLog.takenBack decode h hline,
    fun wal entry outcome line h hline => ProjectionWal.takenBack_iff decode h hline, ?_⟩
  intro isJson ls tail buffers hls htail hempty hread hjson hflat
  exact recoverAppendTail_returned_iff isJson hls htail hempty hread hjson hflat

/-! ### A line of exactly the bound -/

/-- The projection of a user message. -/
def messageProjection (text : String) : WalEntry :=
  .projection "e1" (.message
    { turnId := "t1", role := .user, message := .user text, epoch := 0,
      model := ⟨"local", "qwen"⟩, eventId := "e1", seq := some 1, externalContext := none })

/-- The tree of the message of that projection. -/
def messageTree (text : String) : Value :=
  object
    [("content", array [object [("text", string text), ("type", string "text")]]),
      ("role", string "user")]

/-- The tree of its record. -/
def recordTree (text : String) : Value :=
  object
    [("epoch", ofNat 0), ("event_id", string "e1"), ("message", messageTree text),
      ("model", string "local/qwen"), ("role", string "user"), ("seq", ofNat 1),
      ("turn_id", string "t1"), ("type", string "message")]

lemma toValue_messageProjection (text : String) :
    (messageProjection text).toValue =
      object
        [("op", string "projection"), ("record", recordTree text), ("tx_id", string "e1")] := by
  have hmessage : (Message.user text).toValue = messageTree text := by
    simp [-String.lt_iff_ltb, Message.toValue, Message.user, Message.ofText, ContentBlock.toValue,
      ContentBlock.fields, Role.toValue, ofObject, ofFields, insertField, messageTree]
  have hrecord : (SessionRecord.message
      { turnId := "t1", role := .user, message := .user text, epoch := 0,
        model := ⟨"local", "qwen"⟩, eventId := "e1", seq := some 1,
        externalContext := none }).toValue = recordTree text := by
    simp [-String.lt_iff_ltb, SessionRecord.toValue, SessionRecord.fields, SessionMessage.fields,
      ofObject, ofFields, insertField, Role.toValue, ModelRef.toValue, ModelRef.asKey,
      Value.optional, recordTree, hmessage]
  rw [messageProjection, WalEntry.toValue, hrecord]
  simp [-String.lt_iff_ltb, ofObject, ofFields, insertField]

lemma length_utf8Bytes_replicate {c : Char} (h : (utf8Bytes (escapeChar c)).length = 1) (n : Nat) :
    (utf8Bytes ((List.replicate n c).flatMap escapeChar)).length = n := by
  induction n with
  | zero => rfl
  | succ n ih =>
    rw [List.replicate_succ, List.flatMap_cons, length_utf8Bytes_append, ih, h, Nat.add_comm]

/-- A printed object grows as the value of one of its fields does. -/
lemma length_printFields_swap (before after : List (String × Value)) (key : String)
    (value value' : Value) :
    (utf8Bytes (printFields (before ++ (key, value) :: after))).length +
        (utf8Bytes value'.print).length =
      (utf8Bytes (printFields (before ++ (key, value') :: after))).length +
        (utf8Bytes value.print).length := by
  induction before with
  | nil =>
    cases after with
    | nil =>
      simp only [List.nil_append, printFields, utf8Bytes, List.flatMap_append,
        List.flatMap_cons, List.length_append]
      omega
    | cons field after =>
      simp only [List.nil_append, printFields, utf8Bytes, List.flatMap_append,
        List.flatMap_cons, List.length_append]
      omega
  | cons field before ih =>
    obtain ⟨front, head⟩ := field
    have hcons : ∀ v : Value, printFields ((front, head) :: (before ++ (key, v) :: after)) =
        quoted front ++ ':' :: (head.print ++ ',' :: printFields (before ++ (key, v) :: after)) := by
      intro v
      cases before <;> rfl
    rw [List.cons_append, List.cons_append, hcons, hcons]
    simp only [utf8Bytes, List.flatMap_append, List.flatMap_cons, List.length_append] at ih ⊢
    omega

lemma length_object_swap (before after : List (String × Value)) (key : String)
    (value value' : Value) :
    (compactLine (object (before ++ (key, value) :: after))).length + (compactLine value').length =
      (compactLine (object (before ++ (key, value') :: after))).length +
        (compactLine value).length := by
  have hfields := length_printFields_swap before after key value value'
  simp only [compactLine, print, utf8Bytes, List.flatMap_append, List.flatMap_cons,
    List.length_append] at hfields ⊢
  omega

lemma length_singleton_array (value : Value) :
    (compactLine (array [value])).length = (compactLine value).length + 2 := by
  have hopen : (String.utf8EncodeChar '[').length = 1 := by decide
  have hclose : (String.utf8EncodeChar ']').length = 1 := by decide
  simp only [compactLine, print, printItems, utf8Bytes, List.flatMap_append, List.flatMap_cons,
    List.length_append, List.flatMap_nil, List.length_nil, hopen, hclose]
  omega

lemma length_messageProjection (n : Nat) :
    (compactLine (messageProjection (String.ofList (List.replicate n 'a'))).toValue).length =
      n + 208 := by
  have hempty : (compactLine (messageProjection "").toValue).length = 208 := by decide +kernel
  generalize htext : String.ofList (List.replicate n 'a') = text
  have hline : (compactLine (string text)).length = n + 2 := by
    have hescaped := length_utf8Bytes_replicate (c := 'a') (by decide) n
    simp only [compactLine, print, quoted, ← htext, String.toList_ofList]
    rw [← List.singleton_append, length_utf8Bytes_append, length_utf8Bytes_append, hescaped]
    exact Nat.add_comm 1 (n + 1)
  have hnil : (compactLine (string "")).length = 2 := by decide
  have hblock := length_object_swap [] [("type", string "text")] "text" (string text) (string "")
  have hmessage : (compactLine (messageTree text)).length + _ =
      (compactLine (messageTree "")).length + _ :=
    length_object_swap [] [("role", string "user")] "content"
      (array [object [("text", string text), ("type", string "text")]])
      (array [object [("text", string ""), ("type", string "text")]])
  rw [length_singleton_array, length_singleton_array] at hmessage
  have hrecord : (compactLine (recordTree text)).length + _ =
      (compactLine (recordTree "")).length + _ :=
    length_object_swap [("epoch", ofNat 0), ("event_id", string "e1")]
      [("model", string "local/qwen"), ("role", string "user"), ("seq", ofNat 1),
        ("turn_id", string "t1"), ("type", string "message")]
      "message" (messageTree text) (messageTree "")
  have hentry := length_object_swap [("op", string "projection")] [("tx_id", string "e1")]
    "record" (recordTree text) (recordTree "")
  rw [toValue_messageProjection] at hempty ⊢
  simp only [List.nil_append, List.cons_append] at hblock hentry
  omega

/-- A user message whose projection is exactly as long as the bound. -/
def longProjection : WalEntry :=
  messageProjection (String.ofList (List.replicate (maxWalLineBytes - 208) 'a'))

/-- A projection log without redaction. -/
def plainWal : ProjectionWal := ⟨"sessions/s1.wal", LineWriter.create [], RedactionPolicy.disabled⟩

lemma length_longProjection : (compactLine longProjection.toValue).length = maxWalLineBytes := by
  rw [longProjection, length_messageProjection]
  decide

lemma sanitize_disabled (value : Value) : RedactionPolicy.disabled.sanitize value = value := rfl

/-- The line a log without redaction writes. -/
lemma encodeLine_plainWal {entry : WalEntry}
    (h : (compactLine entry.toValue).length ≤ maxWalLineBytes) :
    plainWal.encodeLine entry = .ok (compactLine entry.toValue) ∧
      (plainWal.append entry .done).2 = .ok () := by
  have hsame : plainWal.redaction.sanitize entry.toValue = entry.toValue :=
    sanitize_disabled entry.toValue
  have hline : plainWal.encodeLine entry = .ok (compactLine entry.toValue) := by
    rw [ProjectionWal.encodeLine, hsame]
    exact if_neg (not_lt.mpr h)
  refine ⟨hline, ?_⟩
  rw [ProjectionWal.append, hline]
  simp [LineWriter.writeLine, LineWriter.flush, LineWriter.accept, plainWal, LineWriter.create,
    encodeLine]

/-- The log accepts it, and its reader returns it as too long. -/
theorem longProjection_not_takenBack :
    (plainWal.append longProjection .done).2 = .ok () ∧
      ∃ line, plainWal.encodeLine longProjection = .ok line ∧
        ¬TakenBack (fun _ => some ()) maxWalLineBytes line := by
  obtain ⟨hline, hok⟩ := encodeLine_plainWal length_longProjection.le
  refine ⟨hok, _, hline, fun htaken => ?_⟩
  have hiff := ProjectionWal.takenBack_iff (fun _ => some ()) hok hline
  exact hiff.mp htaken length_longProjection

/-- The projection of a short message is taken back. -/
theorem accepted_takenBack_iff_short :
    TakenBack (fun _ => some ()) maxWalLineBytes
      (compactLine (messageProjection "hello").toValue) := by
  have hlength : (compactLine (messageProjection "hello").toValue).length = 213 := by
    decide +kernel
  have hle : (compactLine (messageProjection "hello").toValue).length ≤ maxWalLineBytes := by
    rw [hlength]
    decide
  have hne : (compactLine (messageProjection "hello").toValue).length ≠ maxWalLineBytes := by
    rw [hlength]
    decide
  obtain ⟨hline, hok⟩ := encodeLine_plainWal hle
  exact ((accepted_takenBack_iff fun _ => some ()).2.2.1 plainWal (messageProjection "hello") .done
    _ hok hline).mpr hne

end Rupi
