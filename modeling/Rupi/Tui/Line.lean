import Rupi.Tui.Width

/-!
Lines made of segments, each with a role.

- `RenderLine`: a line; `RenderLine.push` appends a text in a role.
- `atoms`: the runs of spaces and of other characters in a line.
- `place`: one word on the row that is being filled, split where it must be.
- `RenderLine.wrapped`: a line on rows of a width.
-/

namespace Rupi.Tui

/-- `style::Role`. -/
inductive Role where
  | prompt
  | userText
  | assistant
  | operation
  | flag
  | path
  | argument
  | toolOutput
  | reasoningNative
  | reasoningProviderSummary
  | reasoningDeclared
  | reasoningReconstructed
  | stateOk
  | stateFailed
  | stateUnknown
  | metaFact
  | muted
  | info
  | warning
  | error
  | rare
  | status
  deriving DecidableEq, Repr

/-- One run of text with one role. -/
structure Segment where
  text : List Char
  role : Role
  deriving DecidableEq, Repr

def Segment.width (segment : Segment) : ℕ := displayWidth segment.text

/-- A line, by its segments. -/
structure RenderLine where
  segments : List Segment
  deriving DecidableEq, Repr

namespace RenderLine

/-- `RenderLine::new`. -/
def empty : RenderLine := ⟨[]⟩

/-- `RenderLine::text`. -/
def ofText (text : List Char) (role : Role) : RenderLine := ⟨[⟨text, role⟩]⟩

/-- `push`: text in the role of the last segment goes to that segment. -/
def push (line : RenderLine) (text : List Char) (role : Role) : RenderLine :=
  if text.isEmpty then line
  else
    match line.segments.getLast? with
    | some last =>
        if last.role = role then
          ⟨line.segments.dropLast ++ [⟨last.text ++ text, role⟩]⟩
        else ⟨line.segments ++ [⟨text, role⟩]⟩
    | none => ⟨[⟨text, role⟩]⟩

def width (line : RenderLine) : ℕ := (line.segments.map Segment.width).sum

/-- `is_empty`: no columns. -/
def isEmpty (line : RenderLine) : Bool := line.width = 0

/-- `plain`. -/
def plain (line : RenderLine) : List Char := line.segments.flatMap Segment.text

/-- The characters of a line, each with its role. -/
def chars (line : RenderLine) : List (Char × Role) :=
  line.segments.flatMap fun segment => segment.text.map fun c => (c, segment.role)

end RenderLine

section Chars

variable {line : RenderLine} {text : List Char} {role : Role}

@[simp] lemma chars_empty : RenderLine.empty.chars = [] := rfl

@[simp] lemma chars_push : (line.push text role).chars = line.chars ++ text.map (·, role) := by
  rw [RenderLine.push]
  split_ifs with hempty
  · rw [List.isEmpty_iff.1 hempty, List.map_nil, List.append_nil]
  · cases hlast : line.segments.getLast? with
    | none =>
      rw [List.getLast?_eq_none_iff] at hlast
      simp [RenderLine.chars, hlast]
    | some last =>
      have hsplit := List.dropLast_append_getLast? last hlast
      dsimp only
      split_ifs with hrole
      · conv_rhs => rw [RenderLine.chars, ← hsplit]
        simp [RenderLine.chars, hrole]
      · simp [RenderLine.chars]

/-- The columns of a line are those of its characters. -/
lemma width_eq : line.width = displayWidth (line.chars.map Prod.fst) := by
  obtain ⟨segments⟩ := line
  induction segments with
  | nil => rfl
  | cons segment segments ih =>
    have hfst : (segment.text.map fun c => (c, segment.role)).map Prod.fst = segment.text := by
      simp [Function.comp_def]
    rw [RenderLine.width, List.map_cons, List.sum_cons, RenderLine.chars, List.flatMap_cons,
      List.map_append, displayWidth_append, hfst]
    exact congrArg _ ih

@[simp] lemma width_push : (line.push text role).width = line.width + displayWidth text := by
  rw [width_eq, chars_push, List.map_append, displayWidth_append, ← width_eq]
  simp [Function.comp_def]

@[simp] lemma width_empty : RenderLine.empty.width = 0 := rfl

lemma plain_eq : line.plain = line.chars.map Prod.fst := by
  obtain ⟨segments⟩ := line
  induction segments with
  | nil => rfl
  | cons segment segments ih =>
    rw [RenderLine.plain, RenderLine.chars, List.flatMap_cons, List.flatMap_cons, List.map_append]
    refine congrArg₂ _ ?_ ih
    simp [Function.comp_def]

end Chars

/-! ### Atoms -/

/-- A run of spaces, or of other characters. -/
structure Atom where
  text : List Char
  role : Role
  space : Bool
  deriving DecidableEq, Repr

/-- The atoms of one text. -/
def atomsOf (role : Role) : List Char → List Atom
  | [] => []
  | c :: text =>
      match atomsOf role text with
      | [] => [⟨[c], role, c = ' '⟩]
      | atom :: atoms =>
          if atom.space = decide (c = ' ') then ⟨c :: atom.text, role, atom.space⟩ :: atoms
          else ⟨[c], role, c = ' '⟩ :: atom :: atoms

/-- `atoms`. -/
def atoms (line : RenderLine) : List Atom :=
  line.segments.flatMap fun segment => atomsOf segment.role segment.text

/-! ### Filling rows -/

/-- The longest front that fits the columns left. -/
def fitFront (budget : ℕ) : List Char → List Char × List Char
  | [] => ([], [])
  | c :: text =>
      if budget < charWidth c then ([], c :: text)
      else
        let (head, tail) := fitFront (budget - charWidth c) text
        (c :: head, tail)

/-- `split_prefix`: at least one character. -/
def splitPrefix (text : List Char) (budget : ℕ) : List Char × List Char :=
  let parts := fitFront budget text
  if parts.1.isEmpty then (text.take 1, text.drop 1) else parts

/-- The rows written, the row being filled, whether it holds a word, and the spaces held for
the next word. -/
structure Filling where
  lines : List RenderLine
  current : RenderLine
  filled : Bool
  pending : Option Atom
  deriving DecidableEq, Repr

/-- `start_continuation`. -/
def startContinuation (indent : ℕ) : RenderLine :=
  RenderLine.empty.push (List.replicate indent ' ') .muted

namespace Filling

variable (s : Filling)

/-- The row is written, and the next one begins with its indent. -/
def breakRow (indent : ℕ) : Filling := ⟨s.lines ++ [s.current], startContinuation indent, false, none⟩

/-- `emit`, then a text on the row. -/
def write (text : List Char) (role : Role) : Filling :=
  { s with
    current := (match s.pending with
      | some atom => s.current.push atom.text atom.role
      | none => s.current).push text role
    pending := none }

/-- The columns left on the row. -/
def remaining (width : ℕ) : ℕ := width - s.current.width

/-- The columns of the spaces held. -/
def separator : ℕ := (s.pending.map fun atom => displayWidth atom.text).getD 0

/-- Spaces that would take up the rest of the row are given up. -/
def dropSeparator (width : ℕ) : Filling :=
  if s.remaining width ≤ s.separator then { s with pending := none } else s

end Filling

lemma fitFront_append (budget : ℕ) (text : List Char) :
    (fitFront budget text).1 ++ (fitFront budget text).2 = text := by
  induction text generalizing budget with
  | nil => rfl
  | cons c text ih =>
    rw [fitFront]
    split_ifs
    · rfl
    · exact congrArg (c :: ·) (ih _)

lemma splitPrefix_append (text : List Char) (budget : ℕ) :
    (splitPrefix text budget).1 ++ (splitPrefix text budget).2 = text := by
  rw [splitPrefix]
  split_ifs
  · exact List.take_append_drop 1 text
  · exact fitFront_append budget text

lemma splitPrefix_ne_nil {text : List Char} (h : text ≠ []) (budget : ℕ) :
    (splitPrefix text budget).1 ≠ [] := by
  rw [splitPrefix]
  split_ifs with hempty
  · obtain ⟨c, rest, rfl⟩ := List.exists_cons_of_ne_nil h
    exact List.cons_ne_nil _ _
  · exact fun hnil => hempty (List.isEmpty_iff.2 hnil)

lemma length_splitPrefix_lt {text : List Char} (h : text ≠ []) (budget : ℕ) :
    (splitPrefix text budget).2.length < text.length := by
  have happend := congrArg List.length (splitPrefix_append text budget)
  have hhead := List.length_pos_of_ne_nil (splitPrefix_ne_nil h budget)
  rw [List.length_append] at happend
  omega

lemma Filling.filled_dropSeparator (s : Filling) (width : ℕ) :
    (s.dropSeparator width).filled = s.filled := by
  rw [Filling.dropSeparator]
  split_ifs <;> rfl

/-- The inner loop of `wrapped`: a word goes to the row if it fits behind the spaces held, else
to the next row, and is split where it is wider than a row. -/
def place (width indent : ℕ) (role : Role) (s : Filling) (rest : List Char) : Filling :=
  let t := s.dropSeparator width
  if t.filled ∧ t.remaining width < displayWidth rest + t.separator then
    place width indent role (t.breakRow indent) rest
  else if _h : ¬t.filled ∧ width < displayWidth rest + t.separator ∧ rest ≠ [] then
    let parts := splitPrefix rest (max (t.remaining width - t.separator) 1)
    let split := (t.write parts.1 role).breakRow indent
    if parts.2.isEmpty then split else place width indent role split parts.2
  else { t.write rest role with filled := true }
termination_by (rest.length, if s.filled then 1 else 0)
decreasing_by
  · rename_i hfull
    have hfilled : s.filled = true := (s.filled_dropSeparator width).symm.trans hfull.1
    rw [hfilled]
    exact Prod.Lex.right _ Nat.one_pos
  · exact Prod.Lex.left _ _ (length_splitPrefix_lt _h.2.2 _)

/-- One atom. -/
def fillAtom (width indent : ℕ) (s : Filling) (atom : Atom) : Filling :=
  if atom.space then { s with pending := some atom } else place width indent atom.role s atom.text

/-- `MIN_COLUMN`. -/
def minColumn : ℕ := 12

/-- `NarrowDecoration`. -/
inductive NarrowDecoration where
  | keep
  | strip
  deriving DecidableEq, Repr

/-- `leading_columns`. -/
def leadingColumns (line : RenderLine) : ℕ :=
  match line.segments with
  | [] => 0
  | first :: _ => (first.text.takeWhile (· = ' ')).length

/-- The indent of the rows behind the first. -/
def indentOf (line : RenderLine) (width : ℕ) (decoration : NarrowDecoration) : ℕ :=
  min (if decoration = .keep ∧ minColumn ≤ width then leadingColumns line else 0) (width - 1)

/-- `wrapped`. -/
def RenderLine.wrapped (line : RenderLine) (width : ℕ) (decoration : NarrowDecoration) :
    List RenderLine :=
  if width = 0 ∨ line.width ≤ width then [line]
  else
    let s := (atoms line).foldl (fillAtom width (indentOf line width decoration))
      ⟨[], RenderLine.empty, false, none⟩
    let lines := if s.current.isEmpty then s.lines else s.lines ++ [s.current]
    if lines.isEmpty then [RenderLine.empty] else lines

lemma wrapped_ne_nil (line : RenderLine) (width : ℕ) (decoration : NarrowDecoration) :
    line.wrapped width decoration ≠ [] := by
  have hrows : ∀ rows : List RenderLine,
      (if rows.isEmpty then [RenderLine.empty] else rows) ≠ [] := by
    intro rows
    cases rows <;> simp
  rw [RenderLine.wrapped]
  split_ifs with hfits
  · exact List.cons_ne_nil _ _
  · exact hrows _

end Rupi.Tui
