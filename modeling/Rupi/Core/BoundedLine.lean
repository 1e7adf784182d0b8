import Rupi.Core.Encode

/-!
Reading bounded lines.

- `readBoundedLine`: one line from the buffers that are left, held to a limit.
- `lineSegments`: the lines of a file, each with its line break.
- `readBoundedLines_eq`: the lines that are read one after the other, whatever the buffers are.
-/

namespace Rupi

namespace BoundedLine

/-- `LineOverflow`. -/
inductive Overflow where
  | reject
  | truncate
  deriving DecidableEq, Repr

/-- What reading a line gives: the line and whether it is truncated, the end of the file, or an
error because it is too long. -/
inductive LineRead where
  | line (bytes : List UInt8) (truncated : Bool)
  | endOfFile
  | tooLong
  deriving DecidableEq, Repr

/-- `read_line`, with the part of the line that is held. The buffers are what the file comes in. -/
def readLine (limit : Nat) (overflow : Overflow) (line : List UInt8) (truncated : Bool) :
    List (List UInt8) → LineRead × List (List UInt8)
  | [] => (if line.isEmpty then .endOfFile else .line line truncated, [])
  | buffer :: buffers =>
    if buffer.isEmpty then readLine limit overflow line truncated buffers
    else
      let newlineAt := buffer.findIdx? (· == newline)
      let contentLen := newlineAt.getD buffer.length
      let remaining := limit - line.length
      if !truncated && decide (contentLen ≤ remaining) then
        let line := line ++ buffer.take contentLen
        match newlineAt with
        | some index => (.line (line ++ [newline]) false, buffer.drop (index + 1) :: buffers)
        | none => readLine limit overflow line false buffers
      else if truncated = false ∧ overflow = .reject then (.tooLong, buffer :: buffers)
      else
        let line := if truncated then line else line ++ buffer.take remaining
        match newlineAt with
        | some index => (.line line true, buffer.drop (index + 1) :: buffers)
        | none => readLine limit overflow line true buffers

/-- `read_bounded_line`. -/
def readBoundedLine (limit : Nat) (overflow : Overflow) (buffers : List (List UInt8)) :
    LineRead × List (List UInt8) := readLine limit overflow [] false buffers

/-- What successive calls of `read_bounded_line` give, up to an error. -/
def boundedLines (limit : Nat) (overflow : Overflow) : Nat → List (List UInt8) → List LineRead
  | 0, _ => []
  | fuel + 1, buffers =>
    match readBoundedLine limit overflow buffers with
    | (.endOfFile, _) => []
    | (.tooLong, _) => [.tooLong]
    | (.line bytes truncated, buffers) =>
      .line bytes truncated :: boundedLines limit overflow fuel buffers

/-- The lines of a file that comes in buffers; every line is at least one byte. -/
def readBoundedLines (limit : Nat) (overflow : Overflow) (buffers : List (List UInt8)) :
    List LineRead := boundedLines limit overflow buffers.flatten.length buffers

/-- The lines of a file, each with its line break. -/
def lineSegments : List UInt8 → List (List UInt8)
  | [] => []
  | b :: rest =>
    if b = newline then [b] :: lineSegments rest
    else
      match lineSegments rest with
      | [] => [[b]]
      | segment :: segments => (b :: segment) :: segments

/-- A line without its line break. -/
def withoutBreak (segment : List UInt8) : List UInt8 := segment.filter (· ≠ newline)

/-- What reading gives for a line. -/
def outcome (limit : Nat) (overflow : Overflow) (segment : List UInt8) : LineRead :=
  if (withoutBreak segment).length ≤ limit then .line segment false
  else
    match overflow with
    | .reject => .tooLong
    | .truncate => .line ((withoutBreak segment).take limit) true

lemma outcome_of_le {limit : Nat} {overflow : Overflow} {segment : List UInt8}
    (h : (withoutBreak segment).length ≤ limit) :
    outcome limit overflow segment = .line segment false := if_pos h

lemma outcome_reject {limit : Nat} {segment : List UInt8}
    (h : limit < (withoutBreak segment).length) : outcome limit .reject segment = .tooLong :=
  if_neg (not_le.2 h)

lemma outcome_truncate {limit : Nat} {segment : List UInt8}
    (h : limit < (withoutBreak segment).length) :
    outcome limit .truncate segment = .line ((withoutBreak segment).take limit) true :=
  if_neg (not_le.2 h)

/-- Up to an error, which is the last that is seen. -/
def untilTooLong : List LineRead → List LineRead
  | [] => []
  | .tooLong :: _ => [.tooLong]
  | read :: reads => read :: untilTooLong reads

/-! ### Lines of a file -/

section Segments

variable {front rest content : List UInt8}

lemma lineSegments_line (h : newline ∉ front) :
    lineSegments (front ++ newline :: rest) = (front ++ [newline]) :: lineSegments rest := by
  induction front with
  | nil => simp [lineSegments]
  | cons b front ih =>
    obtain ⟨hne, hfront⟩ : newline ≠ b ∧ newline ∉ front := by simpa using h
    rw [List.cons_append, lineSegments, if_neg (Ne.symm hne), ih hfront]
    rfl

lemma lineSegments_last (h : newline ∉ content) (hne : content ≠ []) :
    lineSegments content = [content] := by
  induction content with
  | nil => exact absurd rfl hne
  | cons b content ih =>
    obtain ⟨hb, hcontent⟩ : newline ≠ b ∧ newline ∉ content := by simpa using h
    rw [lineSegments, if_neg (Ne.symm hb)]
    by_cases hnil : content = []
    · rw [hnil]
      rfl
    · rw [ih hcontent hnil]

lemma withoutBreak_line (h : newline ∉ front) : withoutBreak (front ++ [newline]) = front := by
  have hall : front.filter (· ≠ newline) = front := List.filter_eq_self.2 fun _ hb =>
    decide_eq_true fun heq => h (heq ▸ hb)
  rw [withoutBreak, List.filter_append, hall]
  simp

lemma withoutBreak_last (h : newline ∉ front) : withoutBreak front = front :=
  List.filter_eq_self.2 fun _ hb => decide_eq_true fun heq => h (heq ▸ hb)

/-- A file is its lines. -/
lemma flatten_lineSegments (content : List UInt8) : (lineSegments content).flatten = content := by
  induction content with
  | nil => rfl
  | cons b content ih =>
    rw [lineSegments]
    split_ifs
    · rw [List.flatten_cons, ih]
      rfl
    · cases hsegments : lineSegments content with
      | nil =>
        rw [hsegments] at ih
        rw [← ih]
        rfl
      | cons segment segments =>
        rw [hsegments, List.flatten_cons] at ih
        rw [List.flatten_cons, List.cons_append, ih]

lemma withoutBreak_begins {segment : List UInt8} (h : segment ∈ lineSegments content) :
    withoutBreak segment <+: segment := by
  induction content generalizing segment with
  | nil => cases h
  | cons b content ih =>
    rw [lineSegments] at h
    split_ifs at h with hb
    · rcases List.mem_cons.1 h with rfl | h
      · simp [withoutBreak, hb]
      · exact ih h
    · have hcons : ∀ segment, withoutBreak (b :: segment) = b :: withoutBreak segment :=
        fun segment => List.filter_cons_of_pos (decide_eq_true hb)
      cases hsegments : lineSegments content with
      | nil =>
        rw [hsegments, List.mem_singleton] at h
        rw [h, hcons]
        exact List.prefix_refl _
      | cons first segments =>
        rw [hsegments] at h ih
        rcases List.mem_cons.1 h with rfl | h
        · rw [hcons, List.cons_prefix_cons]
          exact ⟨rfl, ih List.mem_cons_self⟩
        · exact ih (List.mem_cons_of_mem _ h)

lemma sublist_of_mem_lineSegments {segment : List UInt8} (h : segment ∈ lineSegments content) :
    segment.Sublist content := by
  have hsublist := List.sublist_flatten_of_mem h
  rwa [flatten_lineSegments] at hsublist

/-- A file that is not empty has a first line. -/
lemma exists_first_line (hne : content ≠ []) :
    ∃ segment rest, content = segment ++ rest ∧
      lineSegments content = segment :: lineSegments rest ∧
      ((∃ front, newline ∉ front ∧ segment = front ++ [newline]) ∨
        newline ∉ segment ∧ rest = []) := by
  by_cases hmem : newline ∈ content
  · obtain ⟨front, rest, rfl, hfront⟩ := List.eq_append_cons_of_mem hmem
    exact ⟨front ++ [newline], rest, by simp, lineSegments_line hfront, .inl ⟨front, hfront, rfl⟩⟩
  · exact ⟨content, [], (List.append_nil _).symm, lineSegments_last hmem hne, .inr ⟨hmem, rfl⟩⟩

lemma lineSegments_eq_nil (h : lineSegments content = []) : content = [] := by
  rw [← flatten_lineSegments content, h]
  rfl

/-- What comes before every line break is in the first line. -/
lemma begins_first_line (h : newline ∉ front) {segment : List UInt8}
    {segments : List (List UInt8)} (hlines : lineSegments (front ++ rest) = segment :: segments) :
    front <+: segment := by
  induction front generalizing segment segments with
  | nil => exact List.nil_prefix
  | cons b front ih =>
    obtain ⟨hne, hfront⟩ : newline ≠ b ∧ newline ∉ front := by simpa using h
    rw [List.cons_append, lineSegments, if_neg (Ne.symm hne)] at hlines
    cases hrest : lineSegments (front ++ rest) with
    | nil =>
      rw [hrest] at hlines
      injection hlines with hsegment
      rw [(List.append_eq_nil_iff.1 (lineSegments_eq_nil hrest)).1, ← hsegment]
    | cons first others =>
      rw [hrest] at hlines
      injection hlines with hsegment
      rw [← hsegment, List.cons_prefix_cons]
      exact ⟨rfl, ih hfront hrest⟩

lemma length_le_first_line (h : newline ∉ front) {segment : List UInt8}
    {segments : List (List UInt8)} (hlines : lineSegments (front ++ rest) = segment :: segments) :
    front.length ≤ (withoutBreak segment).length := by
  have hprefix := ((begins_first_line h hlines).filter (· ≠ newline)).length_le
  rwa [show front.filter (· ≠ newline) = front from withoutBreak_last h] at hprefix

end Segments

/-! ### One line -/

section Reading

variable {limit : Nat} {overflow : Overflow} {seen front back rest content buffer : List UInt8}
  {buffers : List (List UInt8)}

lemma findIdx?_newline (h : newline ∉ front) :
    (front ++ newline :: back).findIdx? (· == newline) = some front.length := by
  have hfront : front.findIdx? (· == newline) = none := by
    rw [List.findIdx?_eq_none_iff]
    exact fun b hb => beq_eq_false_iff_ne.mpr fun heq => h (heq ▸ hb)
  simp [List.findIdx?_append, hfront, List.findIdx?_cons]

lemma findIdx?_newline_eq_none (h : newline ∉ buffer) :
    buffer.findIdx? (· == newline) = none := by
  rw [List.findIdx?_eq_none_iff]
  exact fun b hb => beq_eq_false_iff_ne.mpr fun heq => h (heq ▸ hb)

/-- What is held of a line of which some has been seen. -/
abbrev held (limit : Nat) (seen : List UInt8) : List UInt8 := seen.take limit

/-- More has been seen than is held. -/
abbrev isOver (limit : Nat) (seen : List UInt8) : Bool := decide (limit < seen.length)

/-- A buffer in which the line ends. -/
lemma readLine_ends (hseen : newline ∉ seen) (hfront : newline ∉ front)
    (hreject : overflow = .reject → seen.length ≤ limit) :
    readLine limit overflow (held limit seen) (isOver limit seen)
        ((front ++ newline :: back) :: buffers) =
      (outcome limit overflow (seen ++ front ++ [newline]),
        if outcome limit overflow (seen ++ front ++ [newline]) = .tooLong then
          (front ++ newline :: back) :: buffers
        else back :: buffers) := by
  have hall : newline ∉ seen ++ front := by simp [hseen, hfront]
  have hdrop : (front ++ newline :: back).drop (front.length + 1) = back := by simp
  rw [readLine, if_neg (by simp), findIdx?_newline hfront]
  simp only [outcome, withoutBreak_line hall, Option.getD_some]
  by_cases hover : limit < seen.length
  · have hlong : ¬ (seen ++ front).length ≤ limit := by rw [List.length_append]; omega
    have htruncate : overflow = .truncate := by
      cases overflow with
      | truncate => rfl
      | reject => exact absurd (hreject rfl) (not_le.2 hover)
    simp only [if_neg hlong, htruncate]
    simp [hover, List.take_append_of_le_length hover.le]
  · have hheld : held limit seen = seen := List.take_of_length_le (not_lt.1 hover)
    by_cases hlong : (seen ++ front).length ≤ limit
    · have hfits : front.length ≤ limit - seen.length := by
        rw [List.length_append] at hlong
        omega
      simp only [if_pos hlong, hheld]
      simp [hover, hfits]
    · have hover' : ¬ front.length ≤ limit - seen.length := by
        rw [List.length_append] at hlong
        omega
      have htake : (seen ++ front).take limit = seen ++ front.take (limit - seen.length) := by
        rw [List.take_append, List.take_of_length_le (not_lt.1 hover)]
      have htake' : (front ++ newline :: back).take (limit - seen.length) =
          front.take (limit - seen.length) := List.take_append_of_le_length (not_le.1 hover').le
      simp only [if_neg hlong, hheld]
      cases overflow with
      | reject => simp [hover, hover']
      | truncate => simp [hover, hover', htake, htake']

/-- A buffer that is all line. -/
lemma readLine_goesOn (hbuffer : newline ∉ buffer)
    (hfits : overflow = .reject → (seen ++ buffer).length ≤ limit) :
    readLine limit overflow (held limit seen) (isOver limit seen) (buffer :: buffers) =
      readLine limit overflow (held limit (seen ++ buffer)) (isOver limit (seen ++ buffer))
        buffers := by
  by_cases hempty : buffer = []
  · rw [hempty, readLine, if_pos List.isEmpty_nil, List.append_nil]
  · rw [readLine, if_neg (by simpa using hempty), findIdx?_newline_eq_none hbuffer]
    simp only [Option.getD_none, List.take_length]
    by_cases hover : limit < seen.length
    · have htruncate : overflow ≠ .reject := fun heq => by
        have hle := hfits heq
        rw [List.length_append] at hle
        omega
      have hall : isOver limit (seen ++ buffer) = true := by
        rw [isOver, List.length_append, decide_eq_true_eq]
        omega
      have hheld : held limit (seen ++ buffer) = held limit seen :=
        List.take_append_of_le_length hover.le
      have hisOver : isOver limit seen = true := decide_eq_true hover
      rw [hall, hheld, hisOver]
      simp [htruncate]
    · have hheld : held limit seen = seen := List.take_of_length_le (not_lt.1 hover)
      have hisOver : isOver limit seen = false := decide_eq_false hover
      by_cases hlong : (seen ++ buffer).length ≤ limit
      · have hroom : buffer.length ≤ limit - seen.length := by
          rw [List.length_append] at hlong
          omega
        have hall : held limit (seen ++ buffer) = seen ++ buffer := List.take_of_length_le hlong
        have hisOver' : isOver limit (seen ++ buffer) = false := decide_eq_false (not_lt.2 hlong)
        rw [hheld, hall, hisOver, hisOver']
        simp [hroom]
      · have hroom : ¬ buffer.length ≤ limit - seen.length := by
          rw [List.length_append] at hlong
          omega
        have htruncate : overflow ≠ .reject := fun heq => hlong (hfits heq)
        have hall : held limit (seen ++ buffer) = seen ++ buffer.take (limit - seen.length) := by
          rw [held, List.take_append, List.take_of_length_le (not_lt.1 hover)]
        have hisOver' : isOver limit (seen ++ buffer) = true := decide_eq_true (not_le.1 hlong)
        rw [hheld, hall, hisOver, hisOver']
        simp [hroom, htruncate]

/-- A buffer that is all line, and more than is allowed. -/
lemma readLine_tooLong (hbuffer : newline ∉ buffer) (hseen : seen.length ≤ limit)
    (hlong : limit < (seen ++ buffer).length) :
    readLine limit .reject (held limit seen) (isOver limit seen) (buffer :: buffers) =
      (.tooLong, buffer :: buffers) := by
  rw [List.length_append] at hlong
  have hempty : buffer ≠ [] := by
    rintro rfl
    rw [List.length_nil] at hlong
    omega
  have hheld : held limit seen = seen := List.take_of_length_le hseen
  have hisOver : isOver limit seen = false := decide_eq_false (not_lt.2 hseen)
  have hroom : ¬ buffer.length ≤ limit - seen.length := by omega
  rw [readLine, if_neg (by simpa using hempty), findIdx?_newline_eq_none hbuffer, hheld, hisOver]
  simp [hroom]

/-- What a call gives when nothing is left. -/
lemma readLine_nil (h : buffers.flatten = []) :
    (readLine limit overflow [] false buffers).1 = .endOfFile := by
  induction buffers with
  | nil => rfl
  | cons buffer buffers ih =>
    rw [List.flatten_cons, List.append_eq_nil_iff] at h
    rw [readLine, if_pos (by simp [h.1])]
    exact ih h.2

/-- A call gives the first line that is left and leaves the lines behind it, however the file is
cut into buffers. -/
lemma readLine_eq {segment : List UInt8} {segments : List (List UInt8)} (hlimit : 0 < limit)
    (hseen : newline ∉ seen) (hreject : overflow = .reject → seen.length ≤ limit)
    (hlines : lineSegments (seen ++ buffers.flatten) = segment :: segments) :
    (readLine limit overflow (held limit seen) (isOver limit seen) buffers).1 =
        outcome limit overflow segment ∧
      (outcome limit overflow segment ≠ .tooLong →
        lineSegments (readLine limit overflow (held limit seen) (isOver limit seen) buffers).2.flatten
          = segments) := by
  induction buffers generalizing seen with
  | nil =>
    rw [List.flatten_nil, List.append_nil] at hlines
    have hne : seen ≠ [] := by
      rintro rfl
      cases hlines
    have hlast := lineSegments_last hseen hne
    rw [hlast] at hlines
    injection hlines with hsegment hsegments
    have hheld : held limit seen ≠ [] := by
      rw [held, Ne, List.take_eq_nil_iff, not_or]
      exact ⟨hlimit.ne', hne⟩
    rw [readLine, if_neg (by simpa using hheld), ← hsegment]
    refine ⟨?_, fun _ => hsegments⟩
    by_cases hlong : seen.length ≤ limit
    · rw [outcome_of_le (by rwa [withoutBreak_last hseen]), held, List.take_of_length_le hlong,
        isOver, decide_eq_false (not_lt.2 hlong)]
    · have htruncate : overflow = .truncate := by
        cases overflow with
        | truncate => rfl
        | reject => exact absurd (hreject rfl) hlong
      rw [htruncate, outcome_truncate (by rw [withoutBreak_last hseen]; exact not_le.1 hlong),
        withoutBreak_last hseen, isOver, decide_eq_true (not_le.1 hlong)]
  | cons buffer buffers ih =>
    rw [List.flatten_cons] at hlines
    by_cases hmem : newline ∈ buffer
    · obtain ⟨front, back, rfl, hfront⟩ := List.eq_append_cons_of_mem hmem
      have hall : newline ∉ seen ++ front := by simp [hseen, hfront]
      have hsplit : seen ++ (front ++ newline :: back ++ buffers.flatten) =
          seen ++ front ++ newline :: (back ++ buffers.flatten) := by simp
      rw [hsplit, lineSegments_line hall] at hlines
      injection hlines with hsegment hsegments
      rw [readLine_ends hseen hfront hreject, hsegment]
      refine ⟨rfl, fun hok => ?_⟩
      rw [if_neg hok, List.flatten_cons, hsegments]
    · rw [← List.append_assoc] at hlines
      have hall : newline ∉ seen ++ buffer := by simp [hseen, hmem]
      by_cases hfits : overflow = .reject → (seen ++ buffer).length ≤ limit
      · rw [readLine_goesOn hmem hfits]
        exact ih hall hfits hlines
      · obtain ⟨hover, hlong⟩ := Classical.not_imp.1 hfits
        rw [not_le] at hlong
        subst hover
        have htooLong : outcome limit .reject segment = .tooLong :=
          outcome_reject (hlong.trans_le (length_le_first_line hall hlines))
        rw [readLine_tooLong hmem (hreject rfl) hlong, htooLong]
        exact ⟨rfl, fun hok => absurd rfl hok⟩

end Reading

/-! ### All lines -/

section Lines

variable {limit : Nat} {overflow : Overflow}

lemma outcome_ne_endOfFile (segment : List UInt8) : outcome limit overflow segment ≠ .endOfFile := by
  rcases Nat.lt_or_ge limit (withoutBreak segment).length with hlong | hfits
  · cases overflow with
    | reject => simp [outcome_reject hlong]
    | truncate => simp [outcome_truncate hlong]
  · simp [outcome_of_le hfits]

lemma outcome_truncate_ne_tooLong (segment : List UInt8) :
    outcome limit .truncate segment ≠ .tooLong := by
  rcases Nat.lt_or_ge limit (withoutBreak segment).length with hlong | hfits
  · simp [outcome_truncate hlong]
  · simp [outcome_of_le hfits]

lemma length_lineSegments_le (content : List UInt8) :
    (lineSegments content).length ≤ content.length := by
  induction content with
  | nil => exact Nat.le_refl _
  | cons b content ih =>
    rw [lineSegments]
    split_ifs
    · simpa using ih
    · cases hsegments : lineSegments content with
      | nil => simp
      | cons segment segments =>
        rw [hsegments, List.length_cons] at ih
        simp only [List.length_cons]
        omega

lemma boundedLines_eq (hlimit : 0 < limit) (fuel : Nat) (buffers : List (List UInt8))
    (hfuel : (lineSegments buffers.flatten).length ≤ fuel) :
    boundedLines limit overflow fuel buffers =
      untilTooLong ((lineSegments buffers.flatten).map (outcome limit overflow)) := by
  induction fuel generalizing buffers with
  | zero =>
    rw [List.length_eq_zero_iff.1 (Nat.le_zero.1 hfuel)]
    rfl
  | succ fuel ih =>
    rw [boundedLines]
    cases hlines : lineSegments buffers.flatten with
    | nil =>
      have hend : (readBoundedLine limit overflow buffers).1 = .endOfFile :=
        readLine_nil (lineSegments_eq_nil hlines)
      cases hread : readBoundedLine limit overflow buffers with
      | mk read left =>
        rw [hread] at hend
        cases hend
        rfl
    | cons segment segments =>
      have hline : (readBoundedLine limit overflow buffers).1 = outcome limit overflow segment ∧
          (outcome limit overflow segment ≠ .tooLong →
            lineSegments (readBoundedLine limit overflow buffers).2.flatten = segments) := by
        have heq := @readLine_eq limit overflow [] buffers segment segments hlimit
          List.not_mem_nil (fun _ => Nat.zero_le limit) hlines
        have hstart : readLine limit overflow (held limit []) (isOver limit []) buffers =
            readBoundedLine limit overflow buffers := by
          rw [readBoundedLine, held, List.take_nil, isOver, decide_eq_false (by simp)]
        rwa [hstart] at heq
      cases hread : readBoundedLine limit overflow buffers with
      | mk read left =>
        rw [hread] at hline
        obtain ⟨hfirst, hleft⟩ := hline
        rw [List.map_cons, ← hfirst]
        rw [← hfirst] at hleft
        cases read with
        | endOfFile => exact absurd hfirst.symm (outcome_ne_endOfFile segment)
        | tooLong => rfl
        | line bytes truncated =>
          have hsegments := hleft (by simp)
          rw [hlines, List.length_cons, ← hsegments] at hfuel
          rw [untilTooLong]
          · rw [← hsegments, ← ih left (Nat.le_of_succ_le_succ hfuel)]
          · simp

/-- **The lines that are read are the lines of the file**, each held to the limit, up to the first
that is too long. -/
theorem readBoundedLines_eq (hlimit : 0 < limit) (buffers : List (List UInt8)) :
    readBoundedLines limit overflow buffers =
      untilTooLong ((lineSegments buffers.flatten).map (outcome limit overflow)) :=
  boundedLines_eq hlimit _ buffers (length_lineSegments_le _)

lemma untilTooLong_eq_self {reads : List LineRead} (h : .tooLong ∉ reads) :
    untilTooLong reads = reads := by
  induction reads with
  | nil => rfl
  | cons read reads ih =>
    rw [List.mem_cons, not_or] at h
    cases read with
    | tooLong => exact absurd rfl h.1
    | endOfFile => rw [untilTooLong, ih h.2]; simp
    | line bytes truncated => rw [untilTooLong, ih h.2]; simp

/-- With `LineOverflow::Truncate` every line is read. -/
theorem readBoundedLines_truncate (hlimit : 0 < limit) (buffers : List (List UInt8)) :
    readBoundedLines limit .truncate buffers =
      (lineSegments buffers.flatten).map (outcome limit .truncate) := by
  rw [readBoundedLines_eq hlimit]
  refine untilTooLong_eq_self fun hmem => ?_
  obtain ⟨segment, -, hsegment⟩ := List.mem_map.1 hmem
  exact outcome_truncate_ne_tooLong segment hsegment

end Lines

end BoundedLine

end Rupi
