import Rupi.Core.Redact

/-!
The block that opens a skill or prompt file.

- `extract`: the fields of the block; `readFront` also says which lines it leaves.
- `strip`: the file without the block.
- `readBlock_behind`, `stripFrom_behind`: both go to a line that closes, each by its own test.
- `Aligned`: the tests pick the same lines.
- **`strip_agrees_iff`**: where what is stripped is what was read.
-/

namespace Rupi.Frontmatter

/-! ### Text -/

/-- `str::trim_end`. -/
def trimEnd (text : List Char) : List Char := text.rdropWhile isWhitespace

/-- The text without its byte order mark. -/
def stripMark (text : List Char) : List Char := (stripFront ['\ufeff'] text).getD text

def fence : List Char := ['-', '-', '-']

/-- `starts_with([' ', '\t'])`. -/
def startsBlank (line : List Char) : Bool :=
  match line with
  | c :: _ => c = ' ' || c = '\t'
  | [] => false

/-! ### Values -/

/-- The text behind a number of bytes, where a symbol begins there. -/
def dropBytes : ℕ → List Char → Option (List Char)
  | 0, text => some text
  | _ + 1, [] => none
  | n + 1, c :: text => if c.utf8Size ≤ n + 1 then dropBytes (n + 1 - c.utf8Size) text else none

/-- A value written as a block scalar, still collecting its lines. -/
structure BlockScalar where
  fold : Bool
  keepTrailing : Bool
  lines : List (List Char)
  deriving DecidableEq, Repr

namespace BlockScalar

def byteLength (text : List Char) : ℕ := (text.map Char.utf8Size).sum

/-- How far the first line that is not blank is indented, in bytes. -/
def indent (lines : List (List Char)) : ℕ :=
  match lines.find? fun line => !(trimChars line).isEmpty with
  | some line => byteLength line - byteLength (line.dropWhile isWhitespace)
  | none => 0

/-- Lines folded into one: a break is a space, and each blank line a break of its own. -/
def folded : ℕ → Bool → List (List Char) → List Char
  | _, _, [] => []
  | blanks, sawText, line :: lines =>
    if (trimChars line).isEmpty then folded (blanks + 1) sawText lines
    else
      let gap := if blanks = 0 then [' '] else List.replicate blanks '\n'
      (if sawText then gap else []) ++ trimChars line ++ folded 0 true lines

/-- The value that the lines spell. -/
def value (block : BlockScalar) : List Char :=
  let stripped := block.lines.map fun line =>
    (dropBytes (indent block.lines) line).getD (line.dropWhile isWhitespace)
  let text := if block.fold then folded 0 false stripped else ['\n'].intercalate stripped
  let text := text.rdropWhile (· = '\n')
  if block.keepTrailing ∧ text ≠ [] then text ++ ['\n'] else text

end BlockScalar

/-- The escapes of a double-quoted value. -/
def unescape : List Char → List Char
  | '\\' :: c :: text => (if c = 'n' then '\n' else if c = 't' then '\t' else c) :: unescape text
  | '\\' :: [] => []
  | c :: text => c :: unescape text
  | [] => []

/-- Two single quotes are one. -/
def undouble : List Char → List Char
  | '\'' :: '\'' :: text => '\'' :: undouble text
  | c :: text => c :: undouble text
  | [] => []

/-- The inside of quotes. -/
def quoted (quote : Char) (raw : List Char) : Option (List Char) :=
  (stripFront [quote] raw).bind (stripSuffix quote)

/-- `unquote`. -/
def unquote (raw : List Char) : List Char :=
  match quoted '"' raw, quoted '\'' raw with
  | some body, _ => unescape body
  | none, some body => undouble body
  | none, none => raw

/-! ### Reading the block -/

/-- The pairs of a block, the last one first. -/
abbrev Fields := List (List Char × List Char)

/-- `Frontmatter::get`. -/
def get (key : List Char) (fields : Fields) : Option (List Char) :=
  (fields.find? fun pair => pair.1 = key).map (·.2)

/-- A block scalar that is being collected, with its key. -/
abbrev Pending := Option (List Char × BlockScalar)

/-- `close_block`. -/
def closeBlock (pending : Pending) (fields : Fields) : Fields :=
  match pending with
  | some (key, block) => (key, block.value) :: fields
  | none => fields

/-- The mark of a block scalar: how it folds and what it keeps. -/
def blockMark (raw : List Char) : Option BlockScalar :=
  match raw with
  | c :: marker =>
    let chomp := trimChars marker
    if (c = '|' ∨ c = '>') ∧ (chomp = [] ∨ chomp = ['-']) then
      some ⟨c = '>', chomp.isEmpty, []⟩
    else none
  | [] => none

/-- A line that belongs to no block scalar. -/
def readField (line : List Char) (fields : Fields) : Pending × Fields :=
  let trimmed := trimEnd line
  if trimmed = [] ∨ trimmed.head? = some '#' ∨ startsBlank line = true then (none, fields)
  else match splitOnce ':' trimmed with
    | none => (none, fields)
    | some (key, raw) =>
      if trimChars key = [] then (none, fields)
      else match blockMark (trimChars raw) with
        | some block => (some (trimChars key, block), fields)
        | none => (none, (trimChars key, unquote (trimChars raw)) :: fields)

/-- A line that does not close the block. -/
def readLine (line : List Char) (pending : Pending) (fields : Fields) : Pending × Fields :=
  match pending with
  | some (key, block) =>
    if trimEnd line = [] ∨ startsBlank line = true then
      (some (key, { block with lines := block.lines ++ [trimEnd line] }), fields)
    else readField line (closeBlock pending fields)
  | none => readField line fields

/-- The lines behind the opening one: the fields, and the lines that are left when the block closes.
Lines come with their endings, which are not read. -/
def readBlock (pending : Pending) (fields : Fields) :
    List (List Char) → Option (Fields × List (List Char))
  | [] => none
  | line :: lines =>
    if trimEnd (withoutEnding line) = fence then some (closeBlock pending fields, lines)
    else
      let (pending, fields) := readLine (withoutEnding line) pending fields
      readBlock pending fields lines

/-- `Extract`. -/
inductive Extract where
  | found (fields : Fields)
  | absent
  | malformed
  deriving DecidableEq, Repr

/-- What a block was read as, if the text opens with one, and the lines that are left. -/
def readFront (text : List Char) : Option (Option (Fields × List (List Char))) :=
  match splitInclusive (stripMark text) with
  | first :: lines =>
    if trimEnd (withoutEnding first) = fence then some (readBlock none [] lines) else none
  | [] => none

/-- `extract`. -/
def extract (text : List Char) : Extract :=
  match readFront text with
  | none => .absent
  | some none => .malformed
  | some (some (fields, _)) => .found fields

/-! ### Stripping the block -/

/-- `trim_start_matches(['\r', '\n'])`. -/
def trimBreaks (text : List Char) : List Char := text.dropWhile fun c => c = '\r' || c = '\n'

/-- The lines behind the opening one, from the line behind the closing one on. -/
def stripFrom : List (List Char) → Option (List Char)
  | [] => none
  | line :: lines =>
    if trimChars (trimEnd line) = fence then some (trimBreaks lines.flatten) else stripFrom lines

/-- `strip`. -/
def strip (text : List Char) : List Char :=
  let text := stripMark text
  match splitInclusive text with
  | [] => text
  | first :: lines =>
    if trimChars (trimEnd first) = fence then (stripFrom lines).getD text else text

/-! ### Lines that close -/

/-- The lines behind the first one that closes. -/
def behind (closes : List Char → Bool) : List (List Char) → Option (List (List Char))
  | [] => none
  | line :: lines => if closes line then some lines else behind closes lines

/-- A line at which reading stops. -/
def closesBlock (line : List Char) : Bool := trimEnd (withoutEnding line) = fence

/-- A line at which stripping stops. -/
def closesStrip (line : List Char) : Bool := trimChars (trimEnd line) = fence

section Behind

variable {closes : List Char → Bool} {lines rest : List (List Char)} {line : List Char}

lemma behind_eq_none : behind closes lines = none ↔ ∀ line ∈ lines, closes line = false := by
  induction lines with
  | nil => simp [behind]
  | cons line lines ih =>
    rw [behind]
    split_ifs with hcloses
    · simp [hcloses]
    · simp [hcloses, ih]

lemma behind_eq_some (h : behind closes lines = some rest) :
    ∃ before line, lines = before ++ line :: rest ∧ closes line = true ∧
      ∀ line ∈ before, closes line = false := by
  induction lines with
  | nil => cases h
  | cons line lines ih =>
    rw [behind] at h
    split_ifs at h with hcloses
    · obtain rfl := Option.some.inj h
      exact ⟨[], line, rfl, hcloses, by simp⟩
    · obtain ⟨before, closing, rfl, hclosing, hbefore⟩ := ih h
      refine ⟨line :: before, closing, rfl, hclosing, fun other hmem => ?_⟩
      rcases List.mem_cons.1 hmem with rfl | hmem
      · exact Bool.eq_false_iff.2 hcloses
      · exact hbefore other hmem

/-- Lines that do not close are passed over. -/
lemma behind_skip {skipped : List (List Char)} (h : ∀ line ∈ skipped, closes line = false) :
    behind closes (skipped ++ rest) = behind closes rest := by
  induction skipped with
  | nil => rfl
  | cons line skipped ih =>
    rw [List.cons_append, behind, if_neg (by simp [h line List.mem_cons_self])]
    exact ih fun other hmem => h other (List.mem_cons_of_mem _ hmem)

lemma behind_append {before : List (List Char)} (hcloses : closes line = true)
    (hbefore : ∀ line ∈ before, closes line = false) :
    behind closes (before ++ line :: rest) = some rest := by
  rw [behind_skip hbefore, behind, if_pos hcloses]

/-- What is left is less than what there was. -/
lemma length_flatten_lt (h : behind closes lines = some rest) (hne : ∀ line, closes line = true →
    line ≠ []) : rest.flatten.length < lines.flatten.length := by
  obtain ⟨before, line, rfl, hcloses, -⟩ := behind_eq_some h
  have hpos := List.length_pos_iff.2 (hne line hcloses)
  rw [List.flatten_append, List.flatten_cons, List.length_append, List.length_append]
  omega

end Behind

section Agreement

variable {text line : List Char} {lines : List (List Char)}

lemma readBlock_behind (pending : Pending) (fields : Fields) (lines : List (List Char)) :
    (readBlock pending fields lines).map (·.2) = behind closesBlock lines := by
  induction lines generalizing pending fields with
  | nil => rfl
  | cons line lines ih =>
    rw [readBlock, behind, closesBlock]
    by_cases hcloses : trimEnd (withoutEnding line) = fence
    · rw [if_pos hcloses, if_pos (decide_eq_true hcloses)]
      rfl
    · rw [if_neg hcloses, if_neg (by simp [hcloses])]
      exact ih _ _

lemma stripFrom_behind (lines : List (List Char)) :
    stripFrom lines = (behind closesStrip lines).map fun rest => trimBreaks rest.flatten := by
  induction lines with
  | nil => rfl
  | cons line lines ih =>
    rw [stripFrom, behind, closesStrip]
    by_cases hcloses : trimChars (trimEnd line) = fence
    · rw [if_pos hcloses, if_pos (decide_eq_true hcloses)]
      rfl
    · rw [if_neg hcloses, if_neg (by simp [hcloses]), ih]

lemma stripSuffix_eq_some {c : Char} (h : stripSuffix c text = some line) : text = line ++ [c] := by
  rw [stripSuffix] at h
  split_ifs at h with hlast
  rw [← Option.some.inj h]
  exact (List.dropLast_append_getLast? c hlast).symm

lemma trimEnd_append_blank {c : Char} (hc : isWhitespace c = true) (text : List Char) :
    trimEnd (text ++ [c]) = trimEnd text := List.rdropWhile_concat_pos _ _ _ hc

/-- An ending is blank. -/
lemma trimEnd_withoutEnding (line : List Char) : trimEnd (withoutEnding line) = trimEnd line := by
  unfold withoutEnding
  cases hbreak : stripSuffix '\n' line with
  | none => rfl
  | some text =>
    rw [stripSuffix_eq_some hbreak, trimEnd_append_blank (by decide)]
    dsimp only
    cases hreturn : stripSuffix '\r' text with
    | none => rfl
    | some inner =>
      rw [stripSuffix_eq_some hreturn, trimEnd_append_blank (by decide)]
      rfl

/-- A line that closes the block closes it for stripping too. -/
lemma closesStrip_of_closesBlock (h : closesBlock line = true) : closesStrip line = true := by
  rw [closesBlock, trimEnd_withoutEnding, decide_eq_true_eq] at h
  rw [closesStrip, h]
  decide

/-- A line that closes for stripping is not empty. -/
lemma ne_nil_of_closesStrip (h : closesStrip line = true) : line ≠ [] := by
  rintro rfl
  exact absurd h (by decide)

/-- What opens and closes for stripping opens and closes for reading: the first line is a fence for
both, and the first line behind it that closes. -/
def Aligned (text : List Char) : Prop :=
  match splitInclusive (stripMark text) with
  | first :: lines => closesStrip first = true → ∀ closing, lines.find? closesStrip = some closing →
      closesBlock first = true ∧ closesBlock closing = true
  | [] => True

/-- The text without its block, by the lines. -/
lemma strip_eq (text : List Char) : strip text = match splitInclusive (stripMark text) with
    | first :: lines => if closesStrip first = true then
        ((behind closesStrip lines).map fun rest => trimBreaks rest.flatten).getD (stripMark text)
      else stripMark text
    | [] => stripMark text := by
  unfold strip
  dsimp only
  split
  · rename_i hsplit
    rw [hsplit]
  · rename_i first lines hsplit
    rw [hsplit]
    dsimp only
    rw [stripFrom_behind, closesStrip]
    simp only [decide_eq_true_eq]

/-- The block that is read, by the lines. -/
lemma readFront_eq (text : List Char) : (readFront text).map (Option.map (·.2)) =
    match splitInclusive (stripMark text) with
    | first :: lines => if closesBlock first = true then some (behind closesBlock lines) else none
    | [] => none := by
  unfold readFront
  split
  · rename_i first lines hsplit
    simp only [closesBlock, decide_eq_true_eq]
    split_ifs
    · rw [Option.map_some, readBlock_behind]
    · rfl
  · rfl

/-- Breaks that are trimmed leave no more than there was. -/
lemma length_trimBreaks_le (text : List Char) : (trimBreaks text).length ≤ text.length :=
  (List.dropWhile_suffix _).length_le

/-- What stripping keeps of a text that has a block for it is less than the text. -/
lemma length_strip_lt {first : List Char} {rest : List (List Char)}
    (hsplit : splitInclusive (stripMark text) = first :: lines)
    (hrest : behind closesStrip lines = some rest) :
    (trimBreaks rest.flatten).length < (stripMark text).length := by
  have hlt := length_flatten_lt hrest fun line h => ne_nil_of_closesStrip h
  have htext := congrArg List.length (flatten_splitInclusive (stripMark text))
  rw [hsplit, List.flatten_cons, List.length_append] at htext
  exact lt_of_le_of_lt (length_trimBreaks_le _) (by omega)

/-- What was read of the text and what is stripped of it agree: behind a block that is read there is
what stripping keeps, and without one all of the text is kept. -/
def Agrees (text : List Char) : Prop :=
  (∀ fields rest, readFront text = some (some (fields, rest)) →
    strip text = trimBreaks rest.flatten) ∧
  ((∀ fields, extract text ≠ .found fields) → strip text = stripMark text)

lemma extract_found_iff {fields : Fields} : extract text = .found fields ↔
    ∃ rest, readFront text = some (some (fields, rest)) := by
  unfold extract
  split
  · simp_all
  · simp_all
  · rename_i found rest hread
    rw [hread]
    simp

/-- A text with no block to read keeps the others. -/
lemma agrees_of_strip (hstrip : strip text = stripMark text)
    (hread : ∀ fields rest, readFront text ≠ some (some (fields, rest))) : Agrees text :=
  ⟨fun fields rest h => absurd h (hread fields rest), fun _ => hstrip⟩

lemma behind_closesBlock_none (h : behind closesStrip lines = none) :
    behind closesBlock lines = none :=
  behind_eq_none.2 fun line hmem => Bool.eq_false_iff.2 fun hcloses =>
    absurd (closesStrip_of_closesBlock hcloses) (by simp [behind_eq_none.1 h line hmem])

/-- Behind a line that closes, no breaks are trimmed of what comes before it. -/
lemma length_trimBreaks_lt {rest after : List (List Char)}
    (h : behind closesBlock rest = some after) :
    (trimBreaks after.flatten).length < (trimBreaks rest.flatten).length := by
  obtain ⟨before, line, rfl, hcloses, -⟩ := behind_eq_some h
  have hmark : ∃ c ∈ before.flatten ++ line, (c = '\r' || c = '\n') = false := by
    rw [closesBlock, decide_eq_true_eq, trimEnd_withoutEnding] at hcloses
    have hdash : '-' ∈ trimEnd line := by rw [hcloses]; decide
    exact ⟨'-', List.mem_append_right _ ((List.rdropWhile_prefix _ _).subset hdash), by decide⟩
  have hkept : (before.flatten ++ line).dropWhile (fun c => c = '\r' || c = '\n') ≠ [] := by
    rw [Ne, List.dropWhile_eq_nil_iff]
    intro hall
    obtain ⟨c, hc, hfalse⟩ := hmark
    rw [hall c hc] at hfalse
    cases hfalse
  have hflatten : (before ++ line :: after).flatten = (before.flatten ++ line) ++ after.flatten := by
    simp
  rw [hflatten, trimBreaks, trimBreaks, List.dropWhile_append, if_neg (by simpa using hkept),
    List.length_append]
  have hpos := List.length_pos_iff.2 hkept
  have hle := length_trimBreaks_le after.flatten
  rw [trimBreaks] at hle
  omega

/-- A text that stripping cuts agrees exactly if reading opens and closes at the same lines. -/
lemma agrees_cut_iff {first closing : List Char} {before rest : List (List Char)}
    (hsplit : splitInclusive (stripMark text) = first :: (before ++ closing :: rest))
    (hfirst : closesStrip first = true) (hclosing : closesStrip closing = true)
    (hbefore : ∀ line ∈ before, closesStrip line = false) :
    Agrees text ↔ closesBlock first = true ∧ closesBlock closing = true := by
  have hrest : behind closesStrip (before ++ closing :: rest) = some rest :=
    behind_append hclosing hbefore
  have hlt := length_strip_lt hsplit hrest
  have hstrip := strip_eq text
  have hread := readFront_eq text
  rw [hsplit] at hstrip hread
  dsimp only at hstrip hread
  rw [if_pos hfirst, hrest, Option.map_some, Option.getD_some] at hstrip
  have hunread : ∀ line ∈ before, closesBlock line = false := fun line hmem =>
    Bool.eq_false_iff.2 fun hcloses =>
      absurd (closesStrip_of_closesBlock hcloses) (by simp [hbefore line hmem])
  constructor
  · rintro ⟨hfound, hother⟩
    by_contra hnot
    -- Stripping cuts the text, so there must be a block that is read, and it ends later.
    obtain ⟨fields, hfields⟩ : ∃ fields, extract text = .found fields := by
      by_contra hnone
      rw [hother fun fields heq => hnone ⟨fields, heq⟩] at hstrip
      rw [← hstrip] at hlt
      exact absurd hlt (lt_irrefl _)
    obtain ⟨after, hafter⟩ := extract_found_iff.1 hfields
    rw [hafter] at hread
    have hopens : closesBlock first = true := by
      by_contra hno
      rw [if_neg hno] at hread
      cases hread
    have hcloses : closesBlock closing = false :=
      Bool.eq_false_iff.2 fun hcloses => hnot ⟨hopens, hcloses⟩
    rw [if_pos hopens, behind_skip hunread, behind, if_neg (by simp [hcloses])] at hread
    have hshorter := length_trimBreaks_lt (Option.some.inj hread).symm
    rw [← hfound fields after hafter, hstrip] at hshorter
    exact absurd hshorter (lt_irrefl _)
  · rintro ⟨hopens, hcloses⟩
    rw [if_pos hopens, behind_append hcloses hunread] at hread
    refine ⟨fun fields after hafter => ?_, fun hnone => ?_⟩
    · rw [hafter] at hread
      obtain rfl : after = rest := by simpa using hread
      exact hstrip
    · cases hfront : readFront text with
      | none => simp [hfront] at hread
      | some block =>
        cases block with
        | none => simp [hfront] at hread
        | some found => exact absurd (extract_found_iff.2 ⟨found.2, hfront⟩) (hnone found.1)

/-- **Stripping and reading agree exactly where their lines are aligned.** -/
lemma agrees_iff (text : List Char) : Agrees text ↔ Aligned text := by
  have hstrip := strip_eq text
  have hread := readFront_eq text
  unfold Aligned
  cases hsplit : splitInclusive (stripMark text) with
  | nil =>
    rw [hsplit] at hstrip hread
    exact iff_of_true (agrees_of_strip hstrip fun fields rest h => by simp [h] at hread) trivial
  | cons first lines =>
    rw [hsplit] at hstrip hread
    dsimp only at hstrip hread ⊢
    by_cases hfirst : closesStrip first = true
    · rw [if_pos hfirst] at hstrip
      cases hrest : behind closesStrip lines with
      | none =>
        rw [hrest, Option.map_none, Option.getD_none] at hstrip
        rw [behind_closesBlock_none hrest] at hread
        refine iff_of_true (agrees_of_strip hstrip fun fields rest h => ?_) fun _ closing hclosing => ?_
        · rw [h] at hread
          split_ifs at hread <;> cases hread
        · have hfalse := behind_eq_none.1 hrest closing (List.mem_of_find?_eq_some hclosing)
          rw [List.find?_some hclosing] at hfalse
          cases hfalse
      | some rest =>
        obtain ⟨before, closing, rfl, hclosing, hbefore⟩ := behind_eq_some hrest
        have hfind : (before ++ closing :: rest).find? closesStrip = some closing := by
          rw [List.find?_append, List.find?_eq_none.2 fun line hmem => by simp [hbefore line hmem],
            Option.none_or, List.find?_cons_of_pos hclosing]
        rw [agrees_cut_iff hsplit hfirst hclosing hbefore, hfind]
        exact ⟨fun h _ line hline => Option.some.inj hline ▸ h, fun h => h hfirst closing rfl⟩
    · rw [if_neg hfirst] at hstrip
      rw [if_neg fun hcloses => hfirst (closesStrip_of_closesBlock hcloses)] at hread
      exact iff_of_true (agrees_of_strip hstrip fun fields rest h => by simp [h] at hread)
        fun htrue => absurd htrue hfirst

end Agreement

end Rupi.Frontmatter
