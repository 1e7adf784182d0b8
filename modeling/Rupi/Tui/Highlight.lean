import Rupi.Core.Text
import Rupi.Tui.Line
import Rupi.Tui.Rows

/-!
The operation and the arguments of an input line.

- `tokenLength`: the characters of a token; white space ends it, except in a quote.
- `tokens`: the tokens of a line, by their texts; `tokenRuns`: where they stand.
- `classify`: the places of the tokens, found again from their texts.
- **`classify_eq`**: they are found where they stand.
- `segmentRow`: a part of a line in the roles of some runs; **`chars_segmentRow`**.
-/

namespace Rupi.Tui

/-! ### Tokens -/

/-- The quote that is open behind a character. -/
def quoteAfter (quote : Option Char) (c : Char) : Option Char :=
  match quote with
  | some opened => if c = opened then none else some opened
  | none => if c = '"' ∨ c = '\x27' then some c else none

/-- The loop of `token_end`: the characters in front of the end of a token. -/
def tokenLength (quote : Option Char) : List Char → ℕ
  | [] => 0
  | c :: rest =>
      if quote.isNone ∧ isWhitespace c then 0 else tokenLength (quoteAfter quote c) rest + 1

lemma tokenLength_le (quote : Option Char) (rest : List Char) :
    tokenLength quote rest ≤ rest.length := by
  induction rest generalizing quote with
  | nil => exact le_rfl
  | cons c rest ih =>
    rw [tokenLength, List.length_cons]
    split_ifs
    · exact Nat.zero_le _
    · exact Nat.succ_le_succ (ih _)

/-- `str::trim_start`. -/
def trimStart (text : List Char) : List Char := text.dropWhile isWhitespace

/-- The length of the token that the rest of a line begins with. -/
def tokenSize (rest : List Char) : ℕ := tokenLength none (trimStart rest)

/-- A token begins behind the white space. -/
lemma head_trimStart {rest tail : List Char} {c : Char} (h : trimStart rest = c :: tail) :
    isWhitespace c = false := by
  have hsome : rest.dropWhile isWhitespace ≠ [] := by
    rw [show rest.dropWhile isWhitespace = c :: tail from h]
    exact List.cons_ne_nil _ _
  have hhead := List.head_dropWhile_not isWhitespace hsome
  simp only [show rest.dropWhile isWhitespace = c :: tail from h, List.head_cons] at hhead
  exact hhead

lemma tokenSize_pos {rest : List Char} (h : trimStart rest ≠ []) : 0 < tokenSize rest := by
  obtain ⟨c, tail, hrest⟩ := List.exists_cons_of_ne_nil h
  have hc := head_trimStart hrest
  rw [tokenSize, hrest, tokenLength, if_neg (by simp [hc])]
  exact Nat.succ_pos _

lemma length_drop_token {rest : List Char} (h : trimStart rest ≠ []) :
    ((trimStart rest).drop (tokenSize rest)).length < rest.length := by
  have hpos := tokenSize_pos h
  have hle : (trimStart rest).length ≤ rest.length :=
    (List.dropWhile_suffix isWhitespace).length_le
  have hlength := List.length_pos_iff.2 h
  rw [List.length_drop]
  omega

/-- The loop of `tokens`, with the role of the next token. -/
def tokensFrom (role : Role) (rest : List Char) : List Segment :=
  if trimStart rest = [] then []
  else
    ⟨(trimStart rest).take (tokenSize rest), role⟩ ::
      tokensFrom .argument ((trimStart rest).drop (tokenSize rest))
termination_by rest.length
decreasing_by exact length_drop_token ‹_›

/-- `highlight::tokens`. -/
def tokens (input : List Char) : List Segment := tokensFrom .operation input

/-- A run of a line: where it stands, and its role. -/
structure Run where
  start : ℕ
  stop : ℕ
  role : Role
  deriving DecidableEq, Repr

/-- Where the first token of `rest` stands, which is at `start`. -/
def tokenStart (start : ℕ) (rest : List Char) : ℕ :=
  start + (rest.length - (trimStart rest).length)

/-- Where the tokens of `rest` stand, which is at `start`. -/
def tokenRunsFrom (role : Role) (start : ℕ) (rest : List Char) : List Run :=
  if trimStart rest = [] then []
  else
    ⟨tokenStart start rest, tokenStart start rest + tokenSize rest, role⟩ ::
      tokenRunsFrom .argument (tokenStart start rest + tokenSize rest)
        ((trimStart rest).drop (tokenSize rest))
termination_by rest.length
decreasing_by exact length_drop_token ‹_›

/-- Where the tokens of a line stand. -/
def tokenRuns (line : List Char) : List Run := tokenRunsFrom .operation 0 line

/-- The role of a place in some runs: white space between them is text. -/
def roleIn (runs : List Run) (position : ℕ) : Role :=
  (runs.find? fun run => run.start ≤ position ∧ position < run.stop).elim .userText Run.role

/-- The role of a place of a line. -/
def roleAt (line : List Char) (position : ℕ) : Role := roleIn (tokenRuns line) position

/-! ### Tokens found again -/

/-- `str::find` of a text. -/
def findText (needle haystack : List Char) : Option ℕ :=
  haystack.tails.findIdx? fun tail => needle.isPrefixOf tail

/-- The loop of `classify`, behind `cursor`. -/
def classifyFrom (line : List Char) (cursor : ℕ) : List Segment → Option (List Run)
  | [] => some []
  | segment :: segments =>
      (findText segment.text (line.drop cursor)).bind fun offset =>
        (classifyFrom line (cursor + offset + segment.text.length) segments).map fun runs =>
          ⟨cursor + offset, cursor + offset + segment.text.length, segment.role⟩ :: runs

/-- `classify`: no runs when a token is not found. -/
def classify (line : List Char) : List Run := (classifyFrom line 0 (tokens line)).getD []

section Tokens

variable {line rest blank needle : List Char} {c : Char} {role : Role} {start stop lower : ℕ}
  {runs : List Run}

/-- A text is not found in front of the first place of its first character. -/
lemma findText_append (hblank : c ∉ blank) (h : c :: needle <+: rest) :
    findText (c :: needle) (blank ++ rest) = some blank.length := by
  induction blank with
  | nil =>
    cases rest with
    | nil => exact absurd h (by simp)
    | cons d rest =>
      rw [List.nil_append, findText, List.tails_cons, List.findIdx?_cons,
        List.isPrefixOf_iff_prefix.2 h]
      rfl
  | cons d blank ih =>
    rw [List.mem_cons, not_or] at hblank
    obtain ⟨hd, hblank⟩ := hblank
    have hrest := ih hblank
    have hfirst : (c :: needle).isPrefixOf (d :: (blank ++ rest)) = false := by
      rw [List.isPrefixOf_cons_cons, beq_eq_false_iff_ne.2 hd, Bool.false_and]
    rw [findText] at hrest
    rw [List.cons_append, findText, List.tails_cons, List.findIdx?_cons, hfirst, hrest]
    rfl

/-- The tokens of the rest of a line are found where they stand. -/
lemma classifyFrom_eq (h : line.drop start = rest) :
    classifyFrom line start (tokensFrom role rest) = some (tokenRunsFrom role start rest) := by
  fun_induction tokensFrom role rest generalizing start with
  | case1 role rest hnil =>
    rw [tokenRunsFrom, if_pos hnil]
    rfl
  | case2 role rest hsome ih =>
    have hsplit : rest.takeWhile isWhitespace ++ trimStart rest = rest :=
      List.takeWhile_append_dropWhile
    have hlength := congrArg List.length hsplit
    rw [List.length_append] at hlength
    have hpos := tokenSize_pos hsome
    have hle : tokenSize rest ≤ (trimStart rest).length := tokenLength_le none _
    have hfound : findText ((trimStart rest).take (tokenSize rest)) (line.drop start) =
        some (rest.takeWhile isWhitespace).length := by
      obtain ⟨c, tail, htoken⟩ := List.exists_cons_of_ne_nil hsome
      obtain ⟨n, hn⟩ := Nat.exists_eq_add_of_lt hpos
      rw [Nat.zero_add] at hn
      have htake : (trimStart rest).take (tokenSize rest) = c :: tail.take n := by
        rw [htoken, hn, List.take_succ_cons]
      have hfront : c :: tail.take n <+: trimStart rest := htake ▸ List.take_prefix _ _
      have hblank : c ∉ rest.takeWhile isWhitespace := fun hmem =>
        absurd (List.mem_takeWhile_imp hmem) (by simp [head_trimStart htoken])
      have hfind := findText_append hblank hfront
      rw [hsplit] at hfind
      rw [htake, h, hfind]
    have hhere : tokenStart start rest = start + (rest.takeWhile isWhitespace).length := by
      rw [tokenStart]
      omega
    have hbehind : line.drop (start + (rest.takeWhile isWhitespace).length + tokenSize rest) =
        (trimStart rest).drop (tokenSize rest) := by
      have htoken := congrArg (List.drop (rest.takeWhile isWhitespace).length) hsplit
      rw [List.drop_left] at htoken
      rw [← List.drop_drop, ← List.drop_drop, h, ← htoken]
    rw [tokenRunsFrom, if_neg hsome, classifyFrom, hfound, Option.bind_some,
      List.length_take_of_le hle, ih hbehind, Option.map_some, hhere]

/-- **The tokens of a line are found** where they stand. -/
theorem classify_eq (line : List Char) : classify line = tokenRuns line := by
  rw [classify, tokens, classifyFrom_eq List.drop_zero]
  rfl

/-- Runs that follow one another, from one place to another. -/
def Ordered (stop : ℕ) : ℕ → List Run → Prop
  | _, [] => True
  | start, run :: runs =>
      start ≤ run.start ∧ run.start < run.stop ∧ run.stop ≤ stop ∧ Ordered stop run.stop runs

lemma ordered_tokenRunsFrom (role : Role) (start : ℕ) (rest : List Char) :
    Ordered (start + rest.length) start (tokenRunsFrom role start rest) := by
  fun_induction tokenRunsFrom role start rest with
  | case1 => trivial
  | case2 role start rest hsome ih =>
    have hpos := tokenSize_pos hsome
    have hle : tokenSize rest ≤ (trimStart rest).length := tokenLength_le none _
    have hlength : (trimStart rest).length ≤ rest.length :=
      (List.dropWhile_suffix isWhitespace).length_le
    have hend : tokenStart start rest + tokenSize rest +
        ((trimStart rest).drop (tokenSize rest)).length = start + rest.length := by
      rw [List.length_drop, tokenStart]
      omega
    rw [hend] at ih
    refine ⟨Nat.le_add_right _ _, Nat.lt_add_of_pos_right hpos, ?_, ih⟩
    rw [List.length_drop] at hend
    dsimp only
    omega

/-- The tokens of a line follow one another. -/
lemma ordered_tokenRuns (line : List Char) : Ordered line.length 0 (tokenRuns line) := by
  have hordered := ordered_tokenRunsFrom .operation 0 line
  rwa [Nat.zero_add] at hordered

/-- A line of white space has no token. -/
lemma tokenRuns_eq_nil (h : ∀ c ∈ line, isWhitespace c) : tokenRuns line = [] := by
  have htrim : trimStart line = [] := List.dropWhile_eq_nil_iff.2 h
  rw [tokenRuns, tokenRunsFrom, if_pos htrim]

end Tokens

/-! ### Parts of a line -/

/-- The loop of `segment_row`, behind `cursor`. -/
def segmentFrom (line : List Char) (start stop : ℕ) (out : RenderLine) (cursor : ℕ) :
    List Run → RenderLine
  | [] => if cursor < stop then out.push (between line cursor stop) .userText else out
  | run :: runs =>
      if min run.stop stop ≤ max run.start start then segmentFrom line start stop out cursor runs
      else
        let blank :=
          if cursor < max run.start start then
            out.push (between line cursor (max run.start start)) .userText
          else out
        segmentFrom line start stop
          (blank.push (between line (max run.start start) (min run.stop stop)) run.role)
          (min run.stop stop) runs

/-- `segment_row`. -/
def segmentRow (decoration line : List Char) (start stop : ℕ) (runs : List Run) : RenderLine :=
  segmentFrom line start stop (RenderLine.ofText decoration .prompt) start runs

/-- A part of a line, each character with the role of its place. -/
def paint (runs : List Run) (line : List Char) (start stop : ℕ) : List (Char × Role) :=
  ((between line start stop).zipIdx start).map fun (c, position) => (c, roleIn runs position)

section Parts

variable {line : List Char} {runs : List Run} {run : Run} {role : Role}
  {start middle stop cursor lower position : ℕ}

lemma between_append (hmiddle : start ≤ middle) (hstop : middle ≤ stop) :
    between line start stop = between line start middle ++ between line middle stop := by
  have hsplit : stop - start = (middle - start) + (stop - middle) := by omega
  rw [between, between, between, hsplit, List.take_add, List.drop_drop,
    Nat.add_sub_cancel' hmiddle]

lemma between_self : between line start start = [] := by
  rw [between, Nat.sub_self, List.take_zero]

/-- A part of a line without its roles. -/
lemma fst_paint : (paint runs line start stop).map Prod.fst = between line start stop := by
  rw [paint, List.map_map]
  exact List.zipIdx_map_fst start _

lemma paint_append (hmiddle : start ≤ middle) (hstop : middle ≤ stop)
    (hlength : stop ≤ line.length) :
    paint runs line start stop = paint runs line start middle ++ paint runs line middle stop := by
  rw [paint, between_append hmiddle hstop, List.zipIdx_append, List.map_append,
    length_between (hstop.trans hlength), Nat.add_sub_cancel' hmiddle]
  rfl

lemma paint_self : paint runs line start start = [] := by
  rw [paint, between_self]
  rfl

lemma paint_congr {others : List Run} (hlength : stop ≤ line.length)
    (h : ∀ position, start ≤ position → position < stop →
      roleIn runs position = roleIn others position) :
    paint runs line start stop = paint others line start stop := by
  rw [paint, paint]
  refine List.map_congr_left fun pair hpair => ?_
  obtain ⟨c, position⟩ := pair
  have hplace := List.mem_zipIdx hpair
  rw [length_between hlength] at hplace
  exact congrArg (Prod.mk c) (h position hplace.1 (by omega))

/-- A part whose places all have one role. -/
lemma paint_eq_of_forall (hlength : stop ≤ line.length)
    (h : ∀ position, start ≤ position → position < stop → roleIn runs position = role) :
    paint runs line start stop = (between line start stop).map (·, role) := by
  rw [paint]
  conv_rhs => rw [← List.zipIdx_map_fst start (between line start stop), List.map_map]
  refine List.map_congr_left fun pair hpair => ?_
  obtain ⟨c, position⟩ := pair
  have hplace := List.mem_zipIdx hpair
  rw [length_between hlength] at hplace
  exact congrArg (Prod.mk c) (h position hplace.1 (by omega))

lemma roleIn_cons_of_mem (hstart : run.start ≤ position) (hstop : position < run.stop) :
    roleIn (run :: runs) position = run.role := by
  rw [roleIn, List.find?_cons_of_pos (by simp [hstart, hstop])]
  rfl

lemma roleIn_cons_of_not_mem (h : position < run.start ∨ run.stop ≤ position) :
    roleIn (run :: runs) position = roleIn runs position := by
  have hnot : ¬(run.start ≤ position ∧ position < run.stop) := by omega
  rw [roleIn, List.find?_cons_of_neg (by simpa using hnot)]
  rfl

lemma roleIn_of_lt (h : Ordered stop lower runs) (hlt : position < lower) :
    roleIn runs position = .userText := by
  induction runs generalizing lower with
  | nil => rfl
  | cons run runs ih =>
    obtain ⟨hlower, hrun, -, hruns⟩ := h
    rw [roleIn_cons_of_not_mem (Or.inl (by omega))]
    exact ih hruns (by omega)

lemma chars_segmentFrom (h : Ordered line.length lower runs) (hstart : start ≤ cursor)
    (hcursor : cursor ≤ stop) (hlength : stop ≤ line.length) (hlower : cursor ≤ max lower start)
    (out : RenderLine) :
    (segmentFrom line start stop out cursor runs).chars = out.chars ++ paint runs line cursor stop := by
  induction runs generalizing lower cursor out with
  | nil =>
    have hpaint := @paint_eq_of_forall line [] .userText cursor stop hlength fun _ _ _ => rfl
    rw [segmentFrom, hpaint]
    split_ifs with hlt
    · exact chars_push
    · obtain rfl : cursor = stop := by omega
      rw [between_self, List.map_nil, List.append_nil]
  | cons run runs ih =>
    obtain ⟨hfirst, hrun, hwhole, hruns⟩ := h
    rw [segmentFrom]
    by_cases hnone : min run.stop stop ≤ max run.start start
    · rw [if_pos hnone, ih hruns hstart hcursor (by omega)]
      exact congrArg _ (paint_congr hlength fun position _ _ =>
        (roleIn_cons_of_not_mem (by omega)).symm)
    · rw [if_neg hnone, ih hruns (by omega) (min_le_right _ _) (by omega)]
      have hfront : cursor ≤ max run.start start := by omega
      have hblank : (if cursor < max run.start start then
          out.push (between line cursor (max run.start start)) .userText else out).chars =
            out.chars ++ paint (run :: runs) line cursor (max run.start start) := by
        rw [@paint_eq_of_forall _ _ .userText _ _ (by omega) fun position _ _ =>
          (roleIn_cons_of_not_mem (by omega)).trans (roleIn_of_lt hruns (by omega))]
        split_ifs with hlt
        · exact chars_push
        · rw [le_antisymm hfront (not_lt.1 hlt), between_self, List.map_nil, List.append_nil]
      have hrun : paint (run :: runs) line (max run.start start) (min run.stop stop) =
          (between line (max run.start start) (min run.stop stop)).map (·, run.role) :=
        paint_eq_of_forall (by omega) fun position _ _ => roleIn_cons_of_mem (by omega) (by omega)
      have hrest : paint (run :: runs) line (min run.stop stop) stop =
          paint runs line (min run.stop stop) stop :=
        paint_congr hlength fun position _ _ => roleIn_cons_of_not_mem (by omega)
      rw [chars_push, hblank, paint_append hfront (by omega) hlength,
        paint_append (not_le.1 hnone).le (min_le_right _ _) hlength, hrun, hrest]
      simp only [List.append_assoc]

/-- A character that is not white space is in a token. -/
lemma roleIn_tokenRunsFrom_ne {rest : List Char} {n : ℕ} {c : Char} (hrole : role ≠ .userText)
    (h : rest[n]? = some c) (hc : isWhitespace c = false) :
    roleIn (tokenRunsFrom role start rest) (start + n) ≠ .userText := by
  fun_induction tokenRunsFrom role start rest generalizing n with
  | case1 role start rest hnil =>
    have hblank := List.dropWhile_eq_nil_iff.1 hnil c (List.mem_of_getElem? h)
    exact absurd hblank (by simp [hc])
  | case2 role start rest hsome ih =>
    have hsplit : rest.takeWhile isWhitespace ++ trimStart rest = rest :=
      List.takeWhile_append_dropWhile
    have hlength := congrArg List.length hsplit
    rw [List.length_append] at hlength
    have hhere : tokenStart start rest = start + (rest.takeWhile isWhitespace).length := by
      rw [tokenStart]
      omega
    have hblank : (rest.takeWhile isWhitespace).length ≤ n := by
      by_contra hlt
      rw [not_le] at hlt
      rw [← hsplit, List.getElem?_append_left hlt] at h
      exact absurd (List.mem_takeWhile_imp (List.mem_of_getElem? h)) (by simp [hc])
    by_cases htoken : start + n < tokenStart start rest + tokenSize rest
    · rw [roleIn_cons_of_mem (by dsimp only; omega) htoken]
      exact hrole
    · rw [roleIn_cons_of_not_mem (Or.inr (not_lt.1 htoken))]
      have hrest : start + n = tokenStart start rest + tokenSize rest +
          (n - (rest.takeWhile isWhitespace).length - tokenSize rest) := by omega
      rw [hrest]
      refine ih (by decide) ?_
      rw [← hsplit, List.getElem?_append_right hblank] at h
      rw [List.getElem?_drop, Nat.add_sub_cancel' (by omega), h]

/-- **A part of a line** is painted in the roles of its places. -/
theorem chars_segmentRow (h : Ordered line.length 0 runs) (hle : start ≤ stop)
    (hlength : stop ≤ line.length) (decoration : List Char) :
    (segmentRow decoration line start stop runs).chars =
      decoration.map (·, .prompt) ++ paint runs line start stop := by
  have hchars := chars_segmentFrom h le_rfl hle hlength (Nat.zero_max start).ge
    (RenderLine.ofText decoration .prompt)
  have htext : (RenderLine.ofText decoration .prompt).chars = decoration.map (·, .prompt) :=
    List.append_nil _
  rwa [htext] at hchars

end Parts

end Rupi.Tui
