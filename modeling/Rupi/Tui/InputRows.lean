import Rupi.Tui.DisplayRows
import Rupi.Tui.Highlight

/-!
The rows of the input, in the roles of its tokens.

- `Painter`: a walk over the lines of the buffer, alongside its rows; `inputRows`.
- `Painted`: the rows keep their text, and each character has the role of its place.
- `plain_inputRows`: the rows keep their text.
- `contentRows_front`: the walk stays in step over lines that are not empty.
- `Faded`: a walk that has only white space in front of it.
- **`inputRows_painted`**: when the rows are painted, and when they are not.
-/

namespace Rupi.Tui

open Editor

/-- What `input_rows` keeps: a line of the buffer and its runs, how much of the line the rows have
taken, and the lines behind it. -/
structure Painter where
  line : List Char
  runs : List Run
  taken : ℕ
  lines : List (List Char)
  deriving DecidableEq, Repr

namespace Painter

/-- A walk that is in a line. -/
def inLine (line : List Char) (taken : ℕ) (lines : List (List Char)) : Painter :=
  ⟨line, classify line, taken, lines⟩

/-- A row that the line cannot account for begins the next line. -/
def turn (painter : Painter) (content : List Char) : Painter :=
  if content.isPrefixOf (painter.line.drop painter.taken) then painter
  else
    match painter.lines with
    | [] => painter
    | next :: lines => inLine next 0 lines

/-- A row is cut from the line, or else handed back whole. -/
def place (painter : Painter) (decoration content : List Char) : RenderLine × Painter :=
  if content.isPrefixOf (painter.line.drop painter.taken) then
    (segmentRow decoration painter.line painter.taken (painter.taken + content.length) painter.runs,
      { painter with taken := painter.taken + content.length })
  else ((RenderLine.ofText decoration .prompt).push content .userText, painter)

/-- The body of the loop of `input_rows`. -/
def row (painter : Painter) (decoration content : List Char) : RenderLine × Painter :=
  (painter.turn content).place decoration content

/-- The loop of `input_rows`, from a row with a number on. -/
def rows (prompt : List Char) : Painter → ℕ → List (List Char) → List RenderLine
  | _, _, [] => []
  | painter, index, row :: later =>
      let content := (stripFront (decoration prompt index) row).getD row
      (painter.row (decoration prompt index) content).1 ::
        rows prompt (painter.row (decoration prompt index) content).2 (index + 1) later

end Painter

/-- `input_rows`. -/
def inputRows (rows : List (List Char)) (prompt buffer : List Char) : List RenderLine :=
  let lines := buffer.splitOn '\n'
  (Painter.inLine (lines.headD []) 0 lines.tail).rows prompt 0 rows

/-- A row of the buffer, each character with the role of its place in its line. -/
def rowChars (lines : List (List Char)) (row : Row) : List (Char × Role) :=
  ((between (lines.getD row.line []) row.start row.stop).zipIdx row.start).map
    fun (c, position) => (c, roleAt (lines.getD row.line []) position)

/-- The rows of the input keep their text, and each character behind the decoration has the role of
its place. -/
structure Painted (prompt : List Char) (editor : Editor) : Prop where
  plain : (inputRows (editor.display prompt).rows prompt editor.text).map RenderLine.plain =
    (editor.display prompt).rows
  roles : ∀ i (row : Row × Bool) (line : RenderLine), editor.displayRows[i]? = some row →
    (inputRows (editor.display prompt).rows prompt editor.text)[i]? = some line →
      line.chars.drop (decoration prompt i).length = rowChars editor.lines row.1

/-! ### Contents -/

/-- The texts of the rows of a line. -/
def rowTexts (width : ℕ) (text : List Char) : List (List Char) :=
  (lineRows text width).map fun (start, stop) => between text start stop

/-- The rows of a line in the roles of their places. -/
def rowPaint (width : ℕ) (text : List Char) : List (List (Char × Role)) :=
  (lineRows text width).map fun (start, stop) => paint (tokenRuns text) text start stop

/-- Rows behind their decoration, from a number on. -/
def decorated (prompt : List Char) (index : ℕ) (rows : List (List (Char × Role))) :
    List (List (Char × Role)) :=
  (rows.zipIdx index).map fun (row, number) => (decoration prompt number).map (·, .prompt) ++ row

namespace Painter

/-- The loop of `input_rows` over rows without their decoration. -/
def contentRows (prompt : List Char) : Painter → ℕ → List (List Char) → List RenderLine
  | _, _, [] => []
  | painter, index, content :: later =>
      (painter.row (decoration prompt index) content).1 ::
        contentRows prompt (painter.row (decoration prompt index) content).2 (index + 1) later

/-- The walk behind some rows. -/
def after (painter : Painter) (contents : List (List Char)) : Painter :=
  contents.foldl (fun painter content => (painter.row [] content).2) painter

end Painter

section Contents

variable {prompt content text : List Char} {painter : Painter} {index width start stop : ℕ}
  {lines contents later : List (List Char)}

lemma snd_place (front : List Char) :
    (painter.place front content).2 = (painter.place [] content).2 := by
  rw [Painter.place, Painter.place]
  split_ifs <;> rfl

lemma snd_row (front : List Char) : (painter.row front content).2 = (painter.row [] content).2 :=
  snd_place front

lemma contentRows_cons : painter.contentRows prompt index (content :: later) =
    (painter.row (decoration prompt index) content).1 ::
      (painter.row (decoration prompt index) content).2.contentRows prompt (index + 1) later := rfl

lemma contentRows_append (contents later : List (List Char)) :
    painter.contentRows prompt index (contents ++ later) =
      painter.contentRows prompt index contents ++
        (painter.after contents).contentRows prompt (index + contents.length) later := by
  induction contents generalizing painter index with
  | nil => rfl
  | cons content contents ih =>
    have hafter : painter.after (content :: contents) =
        (painter.row (decoration prompt index) content).2.after contents := by
      rw [snd_row]
      rfl
    rw [List.cons_append, Painter.contentRows, ih, Painter.contentRows, List.cons_append, hafter,
      List.length_cons, Nat.add_assoc, Nat.add_comm 1]

lemma after_append (contents later : List (List Char)) :
    painter.after (contents ++ later) = (painter.after contents).after later :=
  List.foldl_append

lemma length_contentRows : (painter.contentRows prompt index contents).length = contents.length := by
  induction contents generalizing painter index with
  | nil => rfl
  | cons content contents ih => rw [Painter.contentRows, List.length_cons, ih, List.length_cons]

/-- The decoration of a row is taken off again. -/
lemma rows_eq (contents : List (List Char)) :
    painter.rows prompt index ((contents.zipIdx index).map fun (content, number) =>
      decoration prompt number ++ content) = painter.contentRows prompt index contents := by
  induction contents generalizing painter index with
  | nil => rfl
  | cons content contents ih =>
    have hstrip : (stripFront (decoration prompt index) (decoration prompt index ++ content)).getD
        (decoration prompt index ++ content) = content := by
      rw [stripFront, if_pos (List.prefix_append _ _), List.drop_left, Option.getD_some]
    rw [List.zipIdx_cons, List.map_cons, Painter.rows]
    dsimp only
    rw [hstrip, ih, Painter.contentRows]

lemma decorated_append (rows more : List (List (Char × Role))) :
    decorated prompt index (rows ++ more) =
      decorated prompt index rows ++ decorated prompt (index + rows.length) more := by
  rw [decorated, List.zipIdx_append, List.map_append]
  rfl

/-- A value of each row of the buffer, a line at a time. -/
lemma map_bufferRows {α : Type} (f : List Char → ℕ × ℕ → α) (lines : List (List Char)) :
    (bufferRows lines width).map (fun row => f (lines.getD row.line []) (row.start, row.stop)) =
      lines.flatMap fun text => (lineRows text width).map (f text) := by
  have hrows : ∀ pair ∈ lines.zipIdx, ((lineRows pair.1 width).map fun (start, stop) =>
      (⟨pair.2, start, stop⟩ : Row)).map
        (fun row => f (lines.getD row.line []) (row.start, row.stop)) =
      (lineRows pair.1 width).map (f pair.1) := by
    rintro ⟨text, line⟩ hpair
    have hline := List.mem_zipIdx_iff_getElem?.1 hpair
    rw [List.map_map]
    refine List.map_congr_left fun span _ => ?_
    have htext : lines.getD line [] = text := by
      rw [List.getD_eq_getElem?_getD, hline, Option.getD_some]
    exact congrArg (f · span) htext
  rw [bufferRows, List.map_flatMap, List.flatMap_congr hrows]
  conv_rhs => rw [← List.zipIdx_map_fst 0 lines, List.flatMap_map]

lemma rowTexts_length : (rowTexts width text).length = (rowPaint width text).length := by
  rw [rowTexts, rowPaint, List.length_map, List.length_map]

lemma flatMap_length (lines : List (List Char)) :
    (lines.flatMap (rowTexts width)).length = (lines.flatMap (rowPaint width)).length := by
  rw [List.length_flatMap, List.length_flatMap]
  exact congrArg _ (List.map_congr_left fun text _ => rowTexts_length)

end Contents

/-! ### Texts -/

/-- A walk with the runs of its line. -/
structure Coherent (painter : Painter) : Prop where
  runs : painter.runs = classify painter.line
  taken : painter.taken ≤ painter.line.length

section Texts

open Painter

variable {prompt : List Char} {painter : Painter} {index : ℕ}

lemma coherent_turn (h : Coherent painter) (content : List Char) :
    Coherent (painter.turn content) := by
  rw [turn]
  split_ifs
  · exact h
  · split
    · exact h
    · exact ⟨rfl, Nat.zero_le _⟩

/-- A row keeps its text. -/
lemma coherent_place (h : Coherent painter) (front content : List Char) :
    (painter.place front content).1.plain = front ++ content ∧
      Coherent (painter.place front content).2 := by
  have htext : (RenderLine.ofText front .prompt).chars = front.map (·, .prompt) :=
    List.append_nil _
  by_cases hfront : content.isPrefixOf (painter.line.drop painter.taken)
  · rw [Painter.place, if_pos hfront]
    rw [List.isPrefixOf_iff_prefix] at hfront
    have hlength := hfront.length_le
    rw [List.length_drop] at hlength
    have htaken := h.taken
    have hordered : Ordered painter.line.length 0 painter.runs := by
      rw [h.runs, classify_eq]
      exact ordered_tokenRuns painter.line
    have hsame : between painter.line painter.taken (painter.taken + content.length) = content := by
      rw [between, Nat.add_sub_cancel_left]
      exact (List.prefix_iff_eq_take.1 hfront).symm
    refine ⟨?_, h.runs, by dsimp only; omega⟩
    rw [plain_eq, chars_segmentRow hordered (Nat.le_add_right _ _) (by omega), List.map_append,
      fst_paint, hsame, List.map_map]
    exact congrArg (· ++ content) (List.map_id _)
  · rw [Painter.place, if_neg hfront, plain_eq, chars_push, htext, List.map_append, List.map_map,
      List.map_map]
    exact ⟨congrArg₂ _ (List.map_id _) (List.map_id _), h⟩

lemma plain_contentRows (h : Coherent painter) (contents : List (List Char)) (index : ℕ) :
    (painter.contentRows prompt index contents).map RenderLine.plain =
      (contents.zipIdx index).map fun (content, number) => decoration prompt number ++ content := by
  induction contents generalizing painter index with
  | nil => rfl
  | cons content contents ih =>
    obtain ⟨hplain, hcoherent⟩ :=
      coherent_place (coherent_turn h content) (decoration prompt index) content
    rw [contentRows_cons, List.map_cons, row, hplain, ih hcoherent]
    rfl

/-- **The rows of the input keep their text**, in every buffer. -/
theorem plain_inputRows (editor : Editor) (prompt buffer : List Char) :
    (inputRows (editor.display prompt).rows prompt buffer).map RenderLine.plain =
      (editor.display prompt).rows := by
  have hdisplay : (editor.display prompt).rows = ((editor.displayRows.map fun row =>
      between (editor.lines.getD row.1.line []) row.1.start row.1.stop).zipIdx 0).map
        fun (content, number) => decoration prompt number ++ content := by
    rw [List.zipIdx_map, List.map_map]
    rfl
  have hrows := @rows_eq prompt (inLine ((buffer.splitOn '\n').headD []) 0
    (buffer.splitOn '\n').tail) 0 (editor.displayRows.map fun row =>
      between (editor.lines.getD row.1.line []) row.1.start row.1.stop)
  rw [← hdisplay] at hrows
  rw [inputRows, hrows, plain_contentRows ⟨rfl, Nat.zero_le _⟩, ← hdisplay]

end Texts

/-! ### In step -/

section InStep

open Painter

variable {prompt content text last : List Char} {index width start stop : ℕ}
  {lines later front more : List (List Char)} {spans : List (ℕ × ℕ)}

lemma between_isPrefix : between text start stop <+: text.drop start := List.take_prefix _ _

lemma turn_inLine (h : content <+: text.drop start) :
    (inLine text start lines).turn content = inLine text start lines :=
  if_pos (List.isPrefixOf_iff_prefix.2 h)

lemma place_inLine (h : content <+: text.drop start) (decoration : List Char) :
    (inLine text start lines).place decoration content =
      (segmentRow decoration text start (start + content.length) (classify text),
        inLine text (start + content.length) lines) :=
  if_pos (List.isPrefixOf_iff_prefix.2 h)

/-- A row that goes on with the line is painted in its roles. -/
lemma row_inLine (hle : start ≤ stop) (hlength : stop ≤ text.length) (decoration : List Char) :
    ((inLine text start lines).row decoration (between text start stop)).1.chars =
      decoration.map (·, .prompt) ++ paint (tokenRuns text) text start stop ∧
    ((inLine text start lines).row decoration (between text start stop)).2 =
      inLine text stop lines := by
  have hstop : start + (between text start stop).length = stop := by
    rw [length_between hlength]
    omega
  rw [row, turn_inLine between_isPrefix, place_inLine between_isPrefix, hstop, classify_eq]
  exact ⟨chars_segmentRow (ordered_tokenRuns text) hle hlength decoration, rfl⟩

lemma tiles_head {span : ℕ × ℕ} (h : Tiles start stop (span :: spans)) :
    span.1 = start ∧ start ≤ span.2 ∧ span.2 ≤ stop := by
  have hmem := h.mem List.mem_cons_self
  cases spans with
  | nil => exact ⟨congrArg Prod.fst h.1, hmem.1.trans hmem.2.1, hmem.2.2⟩
  | cons next spans => exact ⟨h.1, hmem.1.trans hmem.2.1, hmem.2.2⟩

/-- The rows that tile the rest of a line. -/
lemma contentRows_spans (h : Tiles start text.length spans) (index : ℕ) :
    ((inLine text start lines).contentRows prompt index
      (spans.map fun (start, stop) => between text start stop)).map RenderLine.chars =
        decorated prompt index
          (spans.map fun (start, stop) => paint (tokenRuns text) text start stop) ∧
    (inLine text start lines).after (spans.map fun (start, stop) => between text start stop) =
      inLine text text.length lines := by
  induction spans generalizing start index with
  | nil => exact h.elim
  | cons span spans ih =>
    obtain ⟨rfl, hle, hlength⟩ := tiles_head h
    have hrow := @row_inLine text _ _ lines hle hlength
    have hafter : ∀ contents, (inLine text span.1 lines).after
        (between text span.1 span.2 :: contents) = (inLine text span.2 lines).after contents :=
      fun contents => congrArg (List.foldl _ · contents) (hrow []).2
    cases spans with
    | nil =>
      have hend : span.2 = text.length := congrArg Prod.snd h.1
      refine ⟨congrArg (fun row => [row]) (hrow _).1, (hafter []).trans ?_⟩
      rw [hend]
      rfl
    | cons next spans =>
      obtain ⟨hchars, hlast⟩ := ih h.2.2 (index + 1)
      refine ⟨?_, (hafter _).trans hlast⟩
      rw [List.map_cons, contentRows, List.map_cons, (hrow _).1, (hrow _).2, hchars]
      rfl

/-- The rows of a line that is not empty begin with a part of it. -/
lemma exists_rowTexts (htext : text ≠ []) :
    ∃ content more, rowTexts width text = content :: more ∧ content ≠ [] ∧ content <+: text := by
  have htiles := tiles_lineRows text width
  cases hspans : lineRows text width with
  | nil =>
    rw [hspans] at htiles
    exact htiles.elim
  | cons span spans =>
    rw [hspans] at htiles
    have hmem := htiles.mem List.mem_cons_self
    have hpos := List.length_pos_iff.2 htext
    have hspan : span.1 = 0 ∧ 0 < span.2 := by
      cases spans with
      | nil =>
        obtain ⟨rfl, -⟩ := htiles
        exact ⟨rfl, hpos⟩
      | cons next spans => exact ⟨htiles.1, htiles.2.1⟩
    refine ⟨_, _, by rw [rowTexts, hspans, List.map_cons], ?_, ?_⟩
    · rw [← List.length_pos_iff, length_between hmem.2.2]
      omega
    · have hfront := @between_isPrefix text span.1 span.2
      rwa [hspan.1, List.drop_zero, ← hspan.1] at hfront

/-- Behind a line, a row of the next one begins it. -/
lemma row_next (hcontent : content ≠ []) (hfront : content <+: text) (decoration : List Char) :
    (inLine last last.length (text :: lines)).row decoration content =
      (inLine text 0 lines).row decoration content := by
  have hnone : ¬content.isPrefixOf (last.drop last.length) := by
    rw [List.drop_length, List.isPrefixOf_iff_prefix, List.prefix_nil]
    exact hcontent
  have hturn : (inLine last last.length (text :: lines)).turn content = inLine text 0 lines :=
    if_neg hnone
  rw [row, row, hturn, turn_inLine hfront]

/-- **In step**: from the start of a line, over lines that are not empty, to the end of one. -/
lemma contentRows_front (hfront : ∀ line ∈ front, line ≠ []) (first : List Char) (index : ℕ) :
    ∃ last, ((inLine first 0 (front ++ later)).contentRows prompt index
        ((first :: front).flatMap (rowTexts width))).map RenderLine.chars =
          decorated prompt index ((first :: front).flatMap (rowPaint width)) ∧
      (inLine first 0 (front ++ later)).after ((first :: front).flatMap (rowTexts width)) =
        inLine last last.length later := by
  induction front generalizing first index with
  | nil =>
    have hspans := @contentRows_spans prompt first 0 later _ (tiles_lineRows first width) index
    rw [List.flatMap_singleton, List.flatMap_singleton]
    exact ⟨first, hspans⟩
  | cons text front ih =>
    obtain ⟨htext, hfront⟩ := List.forall_mem_cons.1 hfront
    obtain ⟨content, more, htexts, hcontent, hbegins⟩ := @exists_rowTexts _ width htext
    obtain ⟨hchars, hafter⟩ :=
      @contentRows_spans prompt first 0 (text :: front ++ later) _ (tiles_lineRows first width) index
    have hnext := @row_next content text first (front ++ later) hcontent hbegins
    have hrows : ∀ number, (inLine first first.length (text :: front ++ later)).contentRows prompt
        number ((text :: front).flatMap (rowTexts width)) = (inLine text 0 (front ++ later)).contentRows
          prompt number ((text :: front).flatMap (rowTexts width)) := by
      intro number
      rw [List.flatMap_cons, htexts, List.cons_append, List.cons_append, contentRows_cons,
        contentRows_cons, hnext]
    have hbehind : (inLine first first.length (text :: front ++ later)).after
        ((text :: front).flatMap (rowTexts width)) =
          (inLine text 0 (front ++ later)).after ((text :: front).flatMap (rowTexts width)) := by
      rw [List.flatMap_cons, htexts]
      exact congrArg (fun row => List.foldl _ row.2 _) (hnext [])
    obtain ⟨last, hchars', hafter'⟩ := ih hfront text (index + (rowTexts width first).length)
    have hafter : (inLine first 0 (text :: front ++ later)).after (rowTexts width first) =
        inLine first first.length (text :: front ++ later) := hafter
    refine ⟨last, ?_, ?_⟩
    · have hpaint : (first :: text :: front).flatMap (rowPaint width) =
          rowPaint width first ++ (text :: front).flatMap (rowPaint width) := List.flatMap_cons
      rw [List.flatMap_cons, contentRows_append, hafter, hrows, List.map_append, hchars', hpaint,
        decorated_append, ← rowTexts_length]
      exact congrArg (· ++ _) hchars
    · rw [List.flatMap_cons, after_append, hafter, hbehind, hafter']

end InStep

/-! ### White space -/

/-- A text of white space. -/
def IsBlank (text : List Char) : Prop := ∀ c ∈ text, isWhitespace c

instance (text : List Char) : Decidable (IsBlank text) :=
  inferInstanceAs (Decidable (∀ c ∈ text, isWhitespace c))

/-- A walk that can only be in white space, or at the end of its line. -/
structure Faded (painter : Painter) : Prop where
  runs : painter.runs = classify painter.line
  taken : painter.taken ≤ painter.line.length
  line : painter.taken = painter.line.length ∨ IsBlank painter.line
  lines : ∀ line ∈ painter.lines, IsBlank line

section Blank

open Painter

variable {prompt content text last : List Char} {painter : Painter} {index width start stop : ℕ}
  {lines later front contents : List (List Char)}

lemma paint_of_isBlank (h : IsBlank text) (hlength : stop ≤ text.length) :
    paint (tokenRuns text) text start stop = (between text start stop).map (·, .userText) := by
  rw [tokenRuns_eq_nil h]
  exact paint_eq_of_forall hlength fun _ _ _ => rfl

lemma faded_turn (h : Faded painter) (content : List Char) : Faded (painter.turn content) := by
  rw [turn]
  split_ifs
  · exact h
  · split
    · exact h
    · rename_i next lines hlines
      have hblank := h.lines
      rw [hlines] at hblank
      obtain ⟨hnext, hrest⟩ := List.forall_mem_cons.1 hblank
      exact ⟨rfl, Nat.zero_le _, Or.inr hnext, hrest⟩

/-- A row of a faded walk is plain text. -/
lemma faded_place (h : Faded painter) (decoration content : List Char) :
    (painter.place decoration content).1.chars =
      decoration.map (·, .prompt) ++ content.map (·, .userText) ∧
    Faded (painter.place decoration content).2 := by
  by_cases hfront : content.isPrefixOf (painter.line.drop painter.taken)
  · rw [Painter.place, if_pos hfront]
    rw [List.isPrefixOf_iff_prefix] at hfront
    have hlength := hfront.length_le
    rw [List.length_drop] at hlength
    have htaken := h.taken
    have hsame : between painter.line painter.taken (painter.taken + content.length) = content := by
      rw [between, Nat.add_sub_cancel_left]
      exact (List.prefix_iff_eq_take.1 hfront).symm
    have hpaint : paint painter.runs painter.line painter.taken
        (painter.taken + content.length) = content.map (·, .userText) := by
      obtain hend | hblank := h.line
      · obtain rfl : content = [] := List.length_eq_zero_iff.1 (by omega)
        exact paint_self
      · rw [h.runs, classify_eq, paint_of_isBlank hblank (by omega), hsame]
    have hordered : Ordered painter.line.length 0 painter.runs := by
      rw [h.runs, classify_eq]
      exact ordered_tokenRuns painter.line
    refine ⟨?_, h.runs, by dsimp only; omega, ?_, h.lines⟩
    · rw [chars_segmentRow hordered (Nat.le_add_right _ _) (by omega), hpaint]
    · obtain hend | hblank := h.line
      · exact Or.inl (by dsimp only; omega)
      · exact Or.inr hblank
  · rw [Painter.place, if_neg hfront, chars_push]
    refine ⟨?_, h⟩
    have htext : (RenderLine.ofText decoration .prompt).chars = decoration.map (·, .prompt) :=
      List.append_nil _
    rw [htext]

lemma contentRows_faded (h : Faded painter) (contents : List (List Char)) (index : ℕ) :
    (painter.contentRows prompt index contents).map RenderLine.chars =
      decorated prompt index (contents.map fun content => content.map (·, .userText)) := by
  induction contents generalizing painter index with
  | nil => rfl
  | cons content contents ih =>
    obtain ⟨hchars, hfaded⟩ := faded_place (faded_turn h content) (decoration prompt index) content
    rw [contentRows, List.map_cons, row, hchars, ih hfaded]
    rfl

lemma rowPaint_of_isBlank (h : IsBlank text) :
    rowPaint width text = (rowTexts width text).map fun content => content.map (·, .userText) := by
  rw [rowPaint, rowTexts, List.map_map]
  refine List.map_congr_left fun span hspan => ?_
  exact paint_of_isBlank h ((tiles_lineRows text width).mem hspan).2.2

/-- The rows of lines of white space. -/
lemma contentRows_blank (h : Faded painter) (hlines : ∀ line ∈ lines, IsBlank line) (index : ℕ) :
    (painter.contentRows prompt index (lines.flatMap (rowTexts width))).map RenderLine.chars =
      decorated prompt index (lines.flatMap (rowPaint width)) := by
  rw [contentRows_faded h, List.map_flatMap]
  refine congrArg _ (List.flatMap_congr fun text htext => ?_)
  exact (rowPaint_of_isBlank (hlines text htext)).symm

end Blank

/-! ### Out of step -/

/-- A walk that is in the first ones of the lines behind a place, or at the end of its line. -/
structure Within (later : List (List Char)) (count : ℕ) (painter : Painter) : Prop where
  lines : painter.lines = later.drop count
  line : painter.line.drop painter.taken = [] ∨ painter.line ∈ later.take count

section OutOfStep

open Painter

variable {content text : List Char} {painter : Painter} {width count : ℕ}
  {later contents : List (List Char)}

/-- A row takes the walk on by a line at most, and a row without text does not. -/
lemma within_row (h : Within later count painter) (decoration content : List Char) :
    ∃ behind ≤ count + if content = [] then 0 else 1,
      Within later behind (painter.row decoration content).2 := by
  by_cases hfront : content.isPrefixOf (painter.line.drop painter.taken)
  · have hturn : painter.turn content = painter := if_pos hfront
    refine ⟨count, Nat.le_add_right _ _, ?_⟩
    rw [row, hturn, Painter.place, if_pos hfront]
    refine ⟨h.lines, h.line.imp_left fun hend => ?_⟩
    rw [hend, List.isPrefixOf_iff_prefix, List.prefix_nil] at hfront
    subst hfront
    exact hend
  · have hcontent : content ≠ [] := by
      rintro rfl
      exact hfront (List.isPrefixOf_iff_prefix.2 List.nil_prefix)
    rw [if_neg hcontent]
    cases hlines : painter.lines with
    | nil =>
      have hturn : painter.turn content = painter := by
        rw [turn, if_neg hfront, hlines]
      refine ⟨count, Nat.le_add_right _ _, ?_⟩
      rw [row, hturn, Painter.place, if_neg hfront]
      exact h
    | cons next lines =>
      have hturn : painter.turn content = inLine next 0 lines := by
        rw [turn, if_neg hfront, hlines]
      have hdrop := h.lines.symm.trans hlines
      have hlater : later.drop (count + 1) = lines := by
        rw [← List.drop_drop, hdrop, List.drop_one, List.tail_cons]
      have hnext : next ∈ later.take (count + 1) := by
        have hget := congrArg (fun lines => lines[0]?) hdrop
        simp only [List.getElem?_drop, Nat.add_zero, List.getElem?_cons_zero] at hget
        rw [List.take_add_one, hget]
        exact List.mem_append_right _ (List.mem_singleton_self _)
      refine ⟨count + 1, le_rfl, ?_⟩
      rw [row, hturn, Painter.place]
      split_ifs
      · exact ⟨hlater.symm, Or.inr hnext⟩
      · exact ⟨hlater.symm, Or.inr hnext⟩

lemma within_after (h : Within later count painter) (contents : List (List Char)) :
    ∃ behind ≤ count + (contents.filter (· ≠ [])).length,
      Within later behind (painter.after contents) := by
  induction contents generalizing painter count with
  | nil => exact ⟨count, le_rfl, h⟩
  | cons content contents ih =>
    obtain ⟨next, hnext, hrow⟩ := within_row h [] content
    obtain ⟨behind, hbehind, hafter⟩ := ih hrow
    refine ⟨behind, hbehind.trans ?_, hafter⟩
    by_cases hcontent : content = []
    · rw [if_pos hcontent] at hnext
      rw [List.filter_cons_of_neg (by simpa using hcontent)]
      omega
    · rw [if_neg hcontent] at hnext
      rw [List.filter_cons_of_pos (by simpa using hcontent), List.length_cons]
      omega

/-- Text that comes up while the walk is in white space is handed back whole. -/
lemma row_late (h : Within later count painter) (hlength : count < later.length)
    (hblank : ∀ line ∈ later.take (count + 1), IsBlank line) (hcontent : ¬IsBlank content)
    (decoration : List Char) : (painter.row decoration content).1.chars =
      decoration.map (·, .prompt) ++ content.map (·, .userText) := by
  have hnot : ∀ {text : List Char}, IsBlank text → ¬content.isPrefixOf text := by
    intro text htext hfront
    rw [List.isPrefixOf_iff_prefix] at hfront
    exact hcontent fun c hc => htext c (hfront.subset hc)
  have hrest : IsBlank (painter.line.drop painter.taken) := by
    obtain hend | hline := h.line
    · rw [hend]
      exact fun c hc => absurd hc List.not_mem_nil
    · have hmem := List.take_subset_take_left later (Nat.le_succ count) hline
      exact fun c hc => hblank _ hmem c (List.mem_of_mem_drop hc)
  have hdrop := h.lines
  rw [List.drop_eq_getElem_cons hlength] at hdrop
  have hnext : later[count] ∈ later.take (count + 1) := by
    rw [List.take_add_one, List.getElem?_eq_getElem hlength]
    exact List.mem_append_right _ (List.mem_singleton_self _)
  have hturn : painter.turn content = inLine later[count] 0 (later.drop (count + 1)) := by
    rw [turn, if_neg (hnot hrest), hdrop]
  have hplace : (inLine later[count] 0 (later.drop (count + 1))).place decoration content =
      ((RenderLine.ofText decoration .prompt).push content .userText,
        inLine later[count] 0 (later.drop (count + 1))) := if_neg (hnot (hblank _ hnext))
  rw [row, hturn, hplace, chars_push]
  exact congrArg (· ++ _) (List.append_nil _)

end OutOfStep

/-! ### The input -/

/-- Behind the first line, there is only white space from an empty line on. -/
def Spaced (lines : List (List Char)) : Prop :=
  ∀ line ∈ lines.tail.dropWhile (· ≠ []), IsBlank line

instance (lines : List (List Char)) : Decidable (Spaced lines) :=
  inferInstanceAs (Decidable (∀ line ∈ lines.tail.dropWhile (· ≠ []), IsBlank line))

section Input

open Painter

variable {prompt first : List Char} {editor : Editor} {width : ℕ} {lines : List (List Char)}

lemma contentRows_spaced (h : Spaced (first :: lines)) (prompt : List Char) (width : ℕ) :
    ((inLine first 0 lines).contentRows prompt 0
      ((first :: lines).flatMap (rowTexts width))).map RenderLine.chars =
        decorated prompt 0 ((first :: lines).flatMap (rowPaint width)) := by
  obtain ⟨front, later, hsplit, hfront, hlater⟩ : ∃ front later, front ++ later = lines ∧
      (∀ line ∈ front, line ≠ []) ∧ ∀ line ∈ later, IsBlank line := by
    refine ⟨_, _, @List.takeWhile_append_dropWhile _ (· ≠ []) lines, fun line hline => ?_, h⟩
    have hline := List.mem_takeWhile_imp hline
    simpa using hline
  obtain ⟨last, hchars, hafter⟩ := @contentRows_front prompt width later front hfront first 0
  have hfaded : Faded (inLine last last.length later) := ⟨rfl, le_rfl, Or.inl rfl, hlater⟩
  rw [← hsplit, ← List.cons_append, List.flatMap_append, List.flatMap_append, contentRows_append,
    List.map_append, hchars, hafter, contentRows_blank hfaded hlater, decorated_append,
    flatMap_length]

/-- The texts of the rows of the buffer. -/
lemma texts_displayRows (editor : Editor) : editor.displayRows.map
    (fun row => between (editor.lines.getD row.1.line []) row.1.start row.1.stop) =
      editor.lines.flatMap (rowTexts editor.width) := by
  have hrows := @map_bufferRows editor.width _
    (fun text span => between text span.1 span.2) editor.lines
  rw [← map_fst_displayRows, List.map_map] at hrows
  exact hrows

/-- The rows of the input are a walk over the texts of the rows. -/
lemma inputRows_eq (h : editor.text.splitOn '\n' = editor.lines) (prompt : List Char) :
    inputRows (editor.display prompt).rows prompt editor.text =
      (inLine (editor.lines.headD []) 0 editor.lines.tail).contentRows prompt 0
        (editor.lines.flatMap (rowTexts editor.width)) := by
  have hdisplay : (editor.display prompt).rows =
      ((editor.lines.flatMap (rowTexts editor.width)).zipIdx 0).map fun (content, number) =>
        decoration prompt number ++ content := by
    rw [← texts_displayRows, List.zipIdx_map, List.map_map]
    rfl
  rw [inputRows, h, hdisplay]
  exact rows_eq _

/-- The rows of the buffer in the roles of their places. -/
lemma rowChars_displayRows (editor : Editor) :
    editor.displayRows.map (fun row => rowChars editor.lines row.1) =
      editor.lines.flatMap (rowPaint editor.width) := by
  have hrows := @map_bufferRows editor.width _
    (fun text span => paint (tokenRuns text) text span.1 span.2) editor.lines
  rw [← map_fst_displayRows, List.map_map] at hrows
  exact hrows

lemma painted_of_chars
    (hchars : (inputRows (editor.display prompt).rows prompt editor.text).map RenderLine.chars =
      decorated prompt 0 (editor.lines.flatMap (rowPaint editor.width))) :
    Painted prompt editor := by
  rw [← rowChars_displayRows] at hchars
  refine ⟨plain_inputRows editor prompt editor.text, fun i row line hrow hline => ?_⟩
  have hchar := congrArg (fun rows => rows[i]?) hchars
  simp only [decorated, List.getElem?_map, List.getElem?_zipIdx, hline, hrow, Option.map_some,
    Option.some.injEq, Nat.zero_add] at hchar
  rw [hchar]
  have hlength : ((decoration prompt i).map fun c => (c, Role.prompt)).length =
    (decoration prompt i).length := List.length_map _
  rw [← hlength, List.drop_left]

/-- Text behind lines of white space, with fewer rows of white space in front of it than there are
such lines. -/
def Lagging (width : ℕ) (lines : List (List Char)) : Prop :=
  ∃ first front gap text rest, lines = (first :: front) ++ (gap ++ text :: rest) ∧
    (∀ line ∈ front, line ≠ []) ∧ (∀ line ∈ gap, IsBlank line) ∧ ¬IsBlank text ∧
      ((gap.flatMap (rowTexts width) ++ (rowTexts width text).takeWhile fun row => IsBlank row).filter
        (· ≠ [])).length < gap.length

lemma flatten_spans {text : List Char} {start : ℕ} {spans : List (ℕ × ℕ)}
    (h : Tiles start text.length spans) :
    (spans.map fun (start, stop) => between text start stop).flatten = text.drop start := by
  induction spans generalizing start with
  | nil => exact h.elim
  | cons span spans ih =>
    obtain ⟨rfl, hle, -⟩ := tiles_head h
    have hsplit : between text span.1 span.2 ++ text.drop span.2 = text.drop span.1 := by
      have hdrop := List.take_append_drop (span.2 - span.1) (text.drop span.1)
      rwa [List.drop_drop, Nat.add_sub_cancel' hle] at hdrop
    rw [List.map_cons, List.flatten_cons]
    cases spans with
    | nil =>
      have hend : span.2 = text.length := congrArg Prod.snd h.1
      have hnil : text.drop span.2 = [] := by rw [hend, List.drop_length]
      rw [hnil] at hsplit
      exact hsplit
    | cons next spans => rw [ih h.2.2, hsplit]

lemma flatten_rowTexts (width : ℕ) (text : List Char) : (rowTexts width text).flatten = text :=
  flatten_spans (tiles_lineRows text width)

/-- A text that is not white space has a row that is not. -/
lemma exists_row_of_not_isBlank {text : List Char} (h : ¬IsBlank text) :
    ∃ content more, (rowTexts width text).dropWhile (fun row => IsBlank row) = content :: more ∧
      ¬IsBlank content := by
  cases hdrop : (rowTexts width text).dropWhile (fun row => IsBlank row) with
  | nil =>
    rw [List.dropWhile_eq_nil_iff] at hdrop
    refine absurd (fun c hc => ?_) h
    rw [← flatten_rowTexts width text] at hc
    obtain ⟨row, hrow, hc⟩ := List.mem_flatten.1 hc
    exact of_decide_eq_true (hdrop row hrow) c hc
  | cons content more =>
    have hhead := List.head?_dropWhile_not (fun row => decide (IsBlank row)) (rowTexts width text)
    rw [hdrop] at hhead
    exact ⟨content, more, rfl, of_decide_eq_false hhead⟩

/-- A row that is handed back whole is painted wrong when it has text. -/
lemma not_painted_of_row {i : ℕ} {line : RenderLine} {content : List Char}
    (hline : (inputRows (editor.display prompt).rows prompt editor.text)[i]? = some line)
    (hcontent : (editor.lines.flatMap (rowTexts editor.width))[i]? = some content)
    (hchars : line.chars =
      (decoration prompt i).map (·, .prompt) ++ content.map (·, .userText))
    (hblank : ¬IsBlank content) : ¬Painted prompt editor := by
  intro h
  rw [← texts_displayRows, List.getElem?_map, Option.map_eq_some_iff] at hcontent
  obtain ⟨row, hrow, hcontent⟩ := hcontent
  have hroles := h.roles i row line hrow hline
  have hlength : ((decoration prompt i).map fun c => (c, Role.prompt)).length =
    (decoration prompt i).length := List.length_map _
  rw [hchars, ← hlength, List.drop_left] at hroles
  obtain ⟨c, hc, hspace⟩ : ∃ c ∈ content, isWhitespace c = false := by
    simpa [IsBlank] using hblank
  obtain ⟨n, hn⟩ := List.mem_iff_getElem?.1 hc
  have hrole := congrArg (fun chars => chars[n]?) hroles
  simp only [rowChars, List.getElem?_map, List.getElem?_zipIdx, hcontent, hn, Option.map_some,
    Option.some.injEq, Prod.mk.injEq, true_and] at hrole
  have hplace : (editor.lines.getD row.1.line [])[row.1.start + n]? = some c := by
    rw [← hcontent, between, List.getElem?_take] at hn
    split_ifs at hn
    rwa [List.getElem?_drop] at hn
  have hne := @roleIn_tokenRunsFrom_ne .operation 0 _ _ _ (by decide) hplace hspace
  rw [Nat.zero_add] at hne
  exact hne hrole.symm

/-- **Behind an empty line** the walk is out of step, and the first text is painted wrong. -/
lemma not_painted_of_lagging (h : editor.text.splitOn '\n' = editor.lines)
    (hlag : Lagging editor.width editor.lines) (prompt : List Char) : ¬Painted prompt editor := by
  obtain ⟨first, front, gap, text, rest, hlines, hfront, hgap, htext, hcount⟩ := hlag
  obtain ⟨content, more, hdrop, hcontent⟩ := @exists_row_of_not_isBlank editor.width text htext
  have htexts := @List.takeWhile_append_dropWhile _ (fun row => decide (IsBlank row))
    (rowTexts editor.width text)
  rw [hdrop] at htexts
  obtain ⟨last, -, hafter⟩ :=
    @contentRows_front prompt editor.width (gap ++ text :: rest) front hfront first 0
  have hstart : Within (gap ++ text :: rest) 0 (inLine last last.length (gap ++ text :: rest)) :=
    ⟨rfl, Or.inl List.drop_length⟩
  obtain ⟨count, hle, hwithin⟩ := within_after hstart (gap.flatMap (rowTexts editor.width) ++
    (rowTexts editor.width text).takeWhile fun row => IsBlank row)
  rw [Nat.zero_add] at hle
  have hlate := row_late hwithin (by rw [List.length_append]; omega) (fun line hline => by
    rw [List.take_append_of_le_length (by omega)] at hline
    exact hgap line (List.mem_of_mem_take hline)) hcontent
  rw [← hafter, ← after_append] at hlate
  have htextRows : (text :: rest).flatMap (rowTexts editor.width) =
      ((rowTexts editor.width text).takeWhile (fun row => IsBlank row) ++ content :: more) ++
        rest.flatMap (rowTexts editor.width) := by
    rw [List.flatMap_cons, htexts]
  obtain ⟨before, hbefore⟩ : ∃ before, before = (first :: front).flatMap (rowTexts editor.width) ++
      (gap.flatMap (rowTexts editor.width) ++
        (rowTexts editor.width text).takeWhile fun row => IsBlank row) := ⟨_, rfl⟩
  have hcontents : editor.lines.flatMap (rowTexts editor.width) =
      before ++ content :: (more ++ rest.flatMap (rowTexts editor.width)) := by
    rw [hlines, List.flatMap_append, List.flatMap_append, htextRows, hbefore]
    simp only [List.append_assoc, List.cons_append]
  have hwalk : inLine (editor.lines.headD []) 0 editor.lines.tail =
      inLine first 0 (front ++ (gap ++ text :: rest)) := by
    rw [hlines]
    rfl
  have hinput := inputRows_eq h prompt
  rw [hcontents, hwalk, contentRows_append, contentRows_cons] at hinput
  rw [← hbefore] at hlate
  refine @not_painted_of_row prompt editor before.length _ content ?_ ?_ (hlate _) hcontent
  · rw [hinput, List.getElem?_append_right length_contentRows.le, length_contentRows, Nat.sub_self,
      Nat.zero_add]
    rfl
  · rw [hcontents, List.getElem?_append_right le_rfl, Nat.sub_self]
    rfl

/-- **The input is painted** when no text stands behind an empty line that is not the first one;
where it does, with fewer rows of white space between than lines, the first text is painted wrong. -/
theorem inputRows_painted (editor : Editor) (h : editor.text.splitOn '\n' = editor.lines)
    (prompt : List Char) : (Spaced editor.lines → Painted prompt editor) ∧
      (Lagging editor.width editor.lines → ¬Painted prompt editor) := by
  refine ⟨fun hspaced => ?_, fun hlag => not_painted_of_lagging h hlag prompt⟩
  cases hlines : editor.lines with
  | nil => exact absurd (h.trans hlines) (List.splitOn_ne_nil _ _)
  | cons first lines =>
    rw [hlines] at hspaced
    have hinput := inputRows_eq h prompt
    have hchars := contentRows_spaced hspaced prompt editor.width
    rw [hlines] at hinput
    refine painted_of_chars ?_
    rw [hinput, hlines]
    exact hchars

end Input

namespace Painted

/-- A buffer of some lines, at a width. -/
def typed (width : ℕ) (lines : List (List Char)) : Editor :=
  (withWidth width).load (['\n'].intercalate lines)

/-- A wrapped command in front of empty lines is painted; a command behind one is not. -/
theorem painted_command :
    Painted ['>', ' '] (typed 4 [['l', 's', ' ', ' ', '"', 'a', ' ', 'b'], [], [' '], []]) ∧
      ¬Painted ['>', ' '] (typed 4 [['l', 's'], [], [' '], ['c', 'd']]) :=
  ⟨(inputRows_painted _ (by decide +kernel) _).1 (by decide +kernel),
    (inputRows_painted _ (by decide +kernel) _).2 ⟨['l', 's'], [], [[], [' ']], ['c', 'd'], [],
      by decide +kernel, by decide, by decide, by decide, by decide +kernel⟩⟩

/-- Behind an empty line a command is text. -/
theorem empty_line_misleads : ¬∀ (prompt : List Char) (editor : Editor),
    editor.text.splitOn '\n' = editor.lines → Painted prompt editor := by
  intro h
  have hpainted := h ['>', ' '] (typed 80 [['l', 's'], [], ['c', 'd']]) (by decide +kernel)
  have hrole := hpainted.roles 2 (⟨2, 0, 2⟩, true)
    ⟨[⟨[' ', ' '], .prompt⟩, ⟨['c', 'd'], .userText⟩]⟩ (by decide +kernel) (by decide +kernel)
  exact absurd hrole (by decide +kernel)

end Painted

end Rupi.Tui
