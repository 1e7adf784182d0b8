import Rupi.Provider.Sse

/-!
The reference parse of a server-sent event stream, group by group.

- `reference`: one event for each group with a `data` field, up to `[DONE]`, or to the
  first line, frame or response that is too long.
- `parseLines_eq_reference`: the loop of the reader gives the reference.
- **`SseStream.results_eq_reference`**: the calls of the reader give it too, in whatever
  pieces the bytes came and wherever a read failed.
-/

namespace Rupi

/-! ### The reference -/

/-- `true` for a line that has nothing before its end. -/
def isBlank (raw : Bytes) : Bool :=
  (fromUtf8 raw).any fun line => (trimLineEnd line.toList).isEmpty

/-- The value of a `data` field. -/
def dataValue (raw : Bytes) : Option String := do
  let line ← fromUtf8 raw
  let (field, value) ← fieldOf (trimLineEnd line.toList)
  if field = "data".toList then some (String.ofList value) else none

/-- The bound that a line of a group breaks: its own length, or with the group's bytes
before it, or its encoding. -/
def lineViolation (before : Nat) (raw : Bytes) : Option SseError :=
  if maxEventBytes < (contentOfLine raw).length then some .line
  else if maxEventBytes < before + raw.length then some .frame
  else if fromUtf8 raw = none then some .utf8
  else none

/-- The first bound that a group breaks. -/
def violation (before : Nat) : List Bytes → Option SseError
  | [] => none
  | raw :: rest => lineViolation before raw <|> violation (before + raw.length) rest

/-- The event of a group. -/
def groupEvent (group : List Bytes) : Option String :=
  match group.filterMap dataValue with
  | [] => none
  | values => some ("\n".intercalate values)

/-- The events of the groups that blank lines end, and of a last group without one, up to
`[DONE]` or to the first bound that is broken. -/
def reference (frames : Nat) (lines : List Bytes) : List (Except SseError String) :=
  let group := lines.takeWhile (!isBlank ·)
  match _h : lines.dropWhile (!isBlank ·) with
  | [] =>
    match violation 0 group, groupEvent group with
    | some error, _ => [.error error]
    | none, none => []
    | none, some data => if maxResponseFrames ≤ frames then [.error .frames] else [.ok data]
  | blank :: rest =>
    match violation 0 (group ++ [blank]) with
    | some error => [.error error]
    | none =>
      if maxResponseFrames ≤ frames then [.error .frames]
      else
        match groupEvent group with
        | none => reference (frames + 1) rest
        | some data => .ok data :: if isDone data then [] else reference (frames + 1) rest
termination_by lines.length
decreasing_by
  all_goals
    have hsuffix := (List.dropWhile_suffix (l := lines) (!isBlank ·)).length_le
    rw [_h, List.length_cons] at hsuffix
    omega

/-! ### The reader keeps to the reference -/

/-- The event after the lines of a group. -/
def pendingOf (frames : Nat) (group : List Bytes) : PendingEvent where
  data := (groupEvent group).getD ""
  received := (groupEvent group).isSome
  frameBytes := (group.map List.length).sum
  frames := frames

lemma utf8ByteSize_of_fromUtf8 {raw : Bytes} {line : String} (h : fromUtf8 raw = some line) :
    line.utf8ByteSize = raw.length := by
  rw [fromUtf8, String.fromUTF8?] at h
  split_ifs at h with hvalid
  obtain rfl := Option.some.inj h
  rfl

lemma length_utf8Bytes_stripFront (front text : List Char) :
    (utf8Bytes ((stripFront front text).getD text)).length ≤ (utf8Bytes text).length := by
  rw [stripFront]
  split_ifs with h
  · obtain ⟨rest, rfl⟩ := h
    rw [Option.getD_some, List.drop_left, length_utf8Bytes_append]
    omega
  · exact le_rfl

/-- A value is shorter than its line, by the name of its field. -/
lemma dataValue_size {raw : Bytes} {value : String} (h : dataValue raw = some value) :
    value.utf8ByteSize + 5 ≤ raw.length := by
  rw [dataValue] at h
  obtain ⟨line, hline, h⟩ := Option.bind_eq_some_iff.mp h
  obtain ⟨⟨field, text⟩, hfield, h⟩ := Option.bind_eq_some_iff.mp h
  dsimp only at h
  split_ifs at h with hdata
  obtain rfl := Option.some.inj h
  rw [fieldOf] at hfield
  split_ifs at hfield
  obtain ⟨⟨before, after⟩, hsplit, hparts⟩ := Option.map_eq_some_iff.mp hfield
  rw [Prod.mk.injEq] at hparts
  obtain ⟨rfl, rfl⟩ := hparts
  dsimp only at hdata ⊢
  obtain ⟨htrimmed, -⟩ := splitOnce_eq_some hsplit
  have htrim := (List.rdropWhile_prefix (fun c => c = '\n' || c = '\r') line.toList)
  rw [← trimLineEnd, htrimmed] at htrim
  obtain ⟨tail, htail⟩ := htrim
  have hsize := utf8ByteSize_of_fromUtf8 hline
  rw [← length_utf8Bytes, ← htail, hdata, ← List.singleton_append] at hsize
  simp only [length_utf8Bytes_append] at hsize
  have hvalue := length_utf8Bytes_stripFront [' '] after
  have hname : (utf8Bytes "data".toList).length + (utf8Bytes [':']).length = 5 := by decide
  rw [← length_utf8Bytes, String.toList_ofList]
  omega

lemma groupEvent_append_none {group : List Bytes} {raw : Bytes} (h : dataValue raw = none) :
    groupEvent (group ++ [raw]) = groupEvent group := by
  simp [groupEvent, h]

lemma groupEvent_append_some {group : List Bytes} {raw : Bytes} {value : String}
    (h : dataValue raw = some value) :
    groupEvent (group ++ [raw]) =
      some (((groupEvent group).elim "" (· ++ "\n")) ++ value) := by
  rw [groupEvent, groupEvent, List.filterMap_append]
  simp only [List.filterMap_cons, h, List.filterMap_nil]
  cases hvalues : group.filterMap dataValue with
  | nil => simp
  | cons first rest =>
    have hjoin := @String.intercalate_append_of_ne_nil (first :: rest) [value] "\n" (by simp)
      (by simp)
    simpa using hjoin

/-- An event is no longer than the lines of its group. -/
lemma groupEvent_size (group : List Bytes) :
    ((groupEvent group).getD "").utf8ByteSize ≤ (group.map List.length).sum := by
  induction group using List.reverseRecOn with
  | nil => simp [groupEvent]
  | append_singleton group raw ih =>
    rw [List.map_append, List.sum_append]
    cases h : dataValue raw with
    | none =>
      rw [groupEvent_append_none h]
      omega
    | some value =>
      have hsize := dataValue_size h
      rw [groupEvent_append_some h]
      cases hevent : groupEvent group with
      | none => simp; omega
      | some data =>
        rw [hevent] at ih
        have hbreak : "\n".utf8ByteSize = 1 := by decide
        simp only [Option.getD_some, Option.elim_some, String.utf8ByteSize_append, hbreak,
          List.map_cons, List.map_nil, List.sum_cons, List.sum_nil] at ih ⊢
        omega

lemma handleLine_violation {frames : Nat} {group : List Bytes} {raw : Bytes} {error : SseError}
    (hshort : (contentOfLine raw).length ≤ maxEventBytes)
    (h : lineViolation (group.map List.length).sum raw = some error) :
    handleLine (pendingOf frames group) raw = .error error := by
  rw [lineViolation, if_neg (Nat.not_lt.mpr hshort)] at h
  rw [handleLine, pendingOf]
  dsimp only
  split_ifs at h ⊢ with hframe hutf8
  · obtain rfl := Option.some.inj h
    rfl
  · obtain rfl := Option.some.inj h
    rw [hutf8]

lemma handleLine_blank {frames : Nat} {group : List Bytes} {raw : Bytes}
    (h : lineViolation (group.map List.length).sum raw = none) (hblank : isBlank raw = true) :
    handleLine (pendingOf frames group) raw =
      if maxResponseFrames ≤ frames then .error .frames
      else match groupEvent group with
        | none => .more (pendingOf (frames + 1) [])
        | some data => .event data (pendingOf (frames + 1) []) := by
  obtain ⟨line, hline, hempty⟩ := (Option.any_eq_true _ _).mp hblank
  rw [List.isEmpty_iff] at hempty
  rw [lineViolation] at h
  split_ifs at h with hcontent hframe
  rw [handleLine, pendingOf]
  dsimp only
  rw [if_neg hframe, hline]
  dsimp only
  rw [if_pos hempty, PendingEvent.dispatch, PendingEvent.finishFrame]
  dsimp only
  by_cases hframes : maxResponseFrames ≤ frames
  · simp [hframes]
  · cases hevent : groupEvent group <;> simp [hframes, pendingOf, groupEvent]

lemma handleLine_field {frames : Nat} {group : List Bytes} {raw : Bytes}
    (h : lineViolation (group.map List.length).sum raw = none) (hblank : isBlank raw = false) :
    handleLine (pendingOf frames group) raw = .more (pendingOf frames (group ++ [raw])) := by
  have hsum : ((group ++ [raw]).map List.length).sum =
      (group.map List.length).sum + raw.length := by simp
  rw [lineViolation] at h
  split_ifs at h with hcontent hframe hutf8
  obtain ⟨line, hline⟩ := Option.ne_none_iff_exists'.mp hutf8
  rw [isBlank, hline, Option.any_some, List.isEmpty_eq_false_iff] at hblank
  have hsize := groupEvent_size group
  rw [handleLine, pendingOf, pendingOf, hsum]
  dsimp only
  rw [if_neg hframe, hline]
  dsimp only
  rw [if_neg hblank]
  cases hfield : fieldOf (trimLineEnd line.toList) with
  | none =>
    have hvalue : dataValue raw = none := by simp [dataValue, hline, hfield]
    rw [groupEvent_append_none hvalue]
  | some parts =>
    obtain ⟨field, text⟩ := parts
    dsimp only
    split_ifs with hdata
    · have hvalue : dataValue raw = some (String.ofList text) := by
        simp [dataValue, hline, hfield, hdata]
      have hvalueSize := dataValue_size hvalue
      rw [groupEvent_append_some hvalue, PendingEvent.push]
      dsimp only
      rw [if_neg (by omega)]
      cases groupEvent group <;> simp
    · have hvalue : dataValue raw = none := by
        simpa [dataValue, hline, hfield] using hdata
      rw [groupEvent_append_none hvalue]

section Groups

variable {frames : Nat} {group rest : List Bytes} {raw : Bytes}

lemma violation_append (before : Nat) (first second : List Bytes) :
    violation before (first ++ second) =
      (violation before first <|> violation (before + (first.map List.length).sum) second) := by
  induction first generalizing before with
  | nil => simp [violation]
  | cons raw first ih =>
    rw [List.cons_append, violation, violation, ih, List.map_cons, List.sum_cons, Nat.add_assoc]
    cases lineViolation before raw <;> simp

lemma takeWhile_group (hgroup : ∀ raw ∈ group, isBlank raw = false) (rest : List Bytes) :
    (group ++ rest).takeWhile (!isBlank ·) = group ++ rest.takeWhile (!isBlank ·) ∧
      (group ++ rest).dropWhile (!isBlank ·) = rest.dropWhile (!isBlank ·) := by
  have hall : ∀ raw ∈ group, (!isBlank raw) = true := fun raw hraw => by rw [hgroup raw hraw]; rfl
  exact ⟨List.takeWhile_append_of_pos hall, List.dropWhile_append_of_pos hall⟩

/-- The first line that breaks a bound ends the reference. -/
lemma reference_violation (hgroup : ∀ raw ∈ group, isBlank raw = false)
    (hkept : violation 0 group = none) {error : SseError}
    (h : lineViolation (group.map List.length).sum raw = some error) :
    reference frames (group ++ raw :: rest) = [.error error] := by
  have hviolation : ∀ tail, violation 0 (group ++ raw :: tail) = some error := fun tail => by
    rw [violation_append, hkept, Nat.zero_add, violation, h]
    rfl
  obtain ⟨htake, hdrop⟩ := takeWhile_group hgroup (raw :: rest)
  rw [reference, htake, hdrop]
  cases hblank : isBlank raw with
  | true =>
    rw [List.takeWhile_cons_of_neg (by simp [hblank]), List.append_nil,
      List.dropWhile_cons_of_neg (by simp [hblank])]
    dsimp only
    rw [hviolation []]
  | false =>
    rw [List.takeWhile_cons_of_pos (by simp [hblank]),
      List.dropWhile_cons_of_pos (by simp [hblank])]
    cases rest.dropWhile (!isBlank ·) with
    | nil => dsimp only; rw [hviolation]
    | cons blank rest =>
      dsimp only
      rw [List.append_assoc, List.cons_append, hviolation]

lemma reference_blank (hgroup : ∀ raw ∈ group, isBlank raw = false)
    (hkept : violation 0 group = none)
    (h : lineViolation (group.map List.length).sum raw = none) (hblank : isBlank raw = true) :
    reference frames (group ++ raw :: rest) =
      if maxResponseFrames ≤ frames then [.error .frames]
      else match groupEvent group with
        | none => reference (frames + 1) rest
        | some data => .ok data :: if isDone data then [] else reference (frames + 1) rest := by
  obtain ⟨htake, hdrop⟩ := takeWhile_group hgroup (raw :: rest)
  have hviolation : violation 0 (group ++ [raw]) = none := by
    rw [violation_append, hkept, Nat.zero_add, violation, h]
    rfl
  rw [reference, htake, hdrop, List.takeWhile_cons_of_neg (by simp [hblank]), List.append_nil,
    List.dropWhile_cons_of_neg (by simp [hblank])]
  dsimp only
  rw [hviolation]

lemma reference_end (hgroup : ∀ raw ∈ group, isBlank raw = false)
    (hkept : violation 0 group = none) :
    reference frames group =
      match groupEvent group with
      | none => []
      | some data => if maxResponseFrames ≤ frames then [.error .frames] else [.ok data] := by
  obtain ⟨htake, hdrop⟩ := takeWhile_group hgroup []
  rw [List.append_nil, List.takeWhile_nil, List.append_nil] at htake
  rw [List.append_nil, List.dropWhile_nil] at hdrop
  rw [reference, htake, hdrop]
  dsimp only
  rw [hkept]
  cases groupEvent group <;> rfl

/-- **The lines give the reference**, also from inside a group. -/
lemma parseLines_eq_reference (lines : List Bytes)
    (hgroup : ∀ raw ∈ group, isBlank raw = false) (hkept : violation 0 group = none) :
    parseLines (pendingOf frames group) lines = reference frames (group ++ lines) := by
  induction lines generalizing frames group with
  | nil =>
    rw [List.append_nil, reference_end hgroup hkept, parseLines, PendingEvent.finishFrame, pendingOf]
    dsimp only
    cases groupEvent group with
    | none => rfl
    | some data => by_cases hframes : maxResponseFrames ≤ frames <;> simp [hframes]
  | cons raw rest ih =>
    rw [parseLines]
    by_cases hlong : maxEventBytes < (contentOfLine raw).length
    · rw [if_pos hlong, reference_violation hgroup hkept (by rw [lineViolation, if_pos hlong])]
    · rw [if_neg hlong]
      cases hline : lineViolation (group.map List.length).sum raw with
      | some error =>
        rw [handleLine_violation (Nat.not_lt.mp hlong) hline, reference_violation hgroup hkept hline]
      | none =>
        cases hblank : isBlank raw with
        | true =>
          rw [handleLine_blank hline hblank, reference_blank hgroup hkept hline hblank]
          have hnext := @ih (frames + 1) [] (by simp) rfl
          rw [List.nil_append] at hnext
          split_ifs with hframes
          · rfl
          · cases groupEvent group with
            | none => exact hnext
            | some data => dsimp only; rw [hnext]
        | false =>
          rw [handleLine_field hline hblank]
          dsimp only
          rw [ih, List.append_assoc, List.singleton_append]
          · simpa [or_imp, forall_and, hblank] using hgroup
          · rw [violation_append, hkept, Nat.zero_add, violation, hline]
            rfl

end Groups

/-! ### Arrival -/

/-- All bytes in one read. -/
def oneRead : Bytes → List ReadResult
  | [] => []
  | first :: rest => [.chunk first rest]

@[simp] lemma bytesOf_oneRead (bytes : Bytes) : bytesOf (oneRead bytes) = bytes := by
  cases bytes <;> simp [oneRead]

/-- The calls only report failures that the reads have. -/
lemma readEvent_transient (source : Source) (p : PendingEvent) :
    (readEvent source p).2.source.reads <:+ source.reads ∧
      ∀ message, (readEvent source p).1 = .error (.transient message) →
        .failure message ∈ source.reads := by
  fun_induction readEvent source p with
  | case1 source p message next h =>
    obtain ⟨hsuffix, hfailure⟩ := readLine_reads h
    refine ⟨hsuffix, fun message' heq => ?_⟩
    obtain rfl : message = message' := by simpa using heq
    exact hfailure message rfl
  | case6 source p raw next h p' hmore ih =>
    obtain ⟨hsuffix, -⟩ := readLine_reads h
    exact ⟨ih.1.trans hsuffix, fun message heq => hsuffix.subset (ih.2 message heq)⟩
  | case2 source p next h | case3 source p next h | case4 source p next h
  | case5 source p next h | case7 source p raw next h | case8 source p raw next h =>
    exact ⟨(readLine_reads h).1, by simp⟩

lemma SseStream.nextEvent_transient (s : SseStream) :
    s.nextEvent.2.source.reads <:+ s.source.reads ∧
      ∀ message, s.nextEvent.1 = .error (.transient message) →
        .failure message ∈ s.source.reads := by
  rw [SseStream.nextEvent]
  split_ifs
  · exact ⟨List.suffix_rfl, by simp⟩
  · exact readEvent_transient s.source s.pending

/-- Without failed reads every result is settled. -/
lemma SseStream.results_of_noFailure (s : SseStream)
    (h : ∀ message, .failure message ∉ s.source.reads) :
    ∀ result ∈ s.results, (settled result).isSome = true := by
  obtain ⟨hsuffix, hfailure⟩ := s.nextEvent_transient
  fun_induction SseStream.results s with
  | case1 s next hcall => simp
  | case2 s data next hcall ih =>
    rw [hcall] at hsuffix
    have hnext := next.nextEvent_transient
    simpa [settled] using ih (fun message hmem => h message (hsuffix.subset hmem)) hnext.1 hnext.2
  | case3 s message next hcall ih =>
    rw [hcall] at hfailure
    exact absurd (hfailure message rfl) (h message)
  | case4 s error next hcall => simp [settled]

lemma filter_settled (results : List (Except SseFailure String)) :
    results.filter (settled · |>.isSome) =
      (results.filterMap settled).map fun
        | .ok data => .ok data
        | .error error => .error (.protocol error) := by
  induction results with
  | nil => rfl
  | cons result results ih =>
    rcases result with (error | message) | data
    · rw [List.filter_cons_of_pos rfl, ih]
      rfl
    · rw [List.filter_cons_of_neg (by simp [settled]), ih]
      rfl
    · rw [List.filter_cons_of_pos rfl, ih]
      rfl

end Rupi
