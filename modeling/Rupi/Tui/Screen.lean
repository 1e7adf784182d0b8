import Rupi.Lib.Grid
import Rupi.Tui.InputRows

/-!
The frame of the interactive loop on the screen.

- `cells`: the cells that a text takes.
- `Surface`: the state of the loop; `Surface.draw`, `Surface.handOver`, `Surface.writeNote` and
  `Surface.turn`: what it sends to the terminal.
- `Screen`: the loop and the terminal; `Screen.step`, `Screen.run`.
- `Open`: the frame stands below the rows that stay.
- **`owned_of_steady`**: the frame erases only itself, in runs without notes whose frames fit.
-/

namespace Rupi.Tui

/-! ### Cells -/

/-- A character with what it carries, on the columns it takes: the cells behind the first one are
empty. -/
def glyph (text : List Char) (columns : ℕ) : List (List Char) :=
  if columns = 0 then [] else text :: List.replicate (columns - 1) []

/-- The cells of a text behind a character: characters without width go with the one in front. -/
def cellsFrom (text : List Char) (columns : ℕ) : List Char → List (List Char)
  | [] => glyph text columns
  | c :: rest =>
      if charWidth c = 0 then cellsFrom (text ++ [c]) columns rest
      else glyph text columns ++ cellsFrom [c] (charWidth c) rest

/-- The cells of a text. -/
def cells (text : List Char) : List (List Char) := cellsFrom [] 0 text

/-- What is sent to a terminal. -/
abbrev Command := Grid.Command (List Char)

/-- A terminal. -/
abbrev Terminal := Grid (List Char)

/-- An empty cell. -/
def blankCell : List Char := [' ']

/-- `write_line` of each text. -/
def writeLines (texts : List (List Char)) : List Command := Grid.lines (texts.map cells)

/-! ### The loop -/

/-- `Loop`, with whether it has come to its end. -/
structure Surface where
  editor : Editor
  model : List Char
  working : Bool
  turns : ℕ
  columns : ℕ
  above : ℕ
  closed : Bool
  deriving DecidableEq, Repr

/-- How a turn ends. -/
inductive Ending where
  | done
  | stopped (note : List Char)
  | failed
  deriving DecidableEq, Repr

/-- Where a submitted line leads: to a note, or to a turn with its output, of which the last row is
not terminated, or to the end of the loop. -/
inductive Answer where
  | note (texts : List (List Char))
  | turn (model : List Char) (texts : List (List Char)) (last : List Char) (ending : Ending)
  | quit
  deriving DecidableEq, Repr

/-- An event. -/
inductive Event where
  | edit (intent : Intent) (answer : Answer)
  | resize (columns height : ℕ)
  | interrupt
  deriving DecidableEq, Repr

/-- `PROMPT_PREFIX`. -/
def promptPrefix : List Char := ['>', ' ']

/-- `frame_lines`. -/
def frameLines (rows : ℕ) : ℕ := rows + 1

/-- `caret_lines_up`. -/
def caretLinesUp (rows caretRow : ℕ) : ℕ := frameLines rows - caretRow

/-- `terminal_lines` and `terminal_columns`: a count in 16 bits. -/
def terminalCount (count : ℕ) : ℕ := min count 65535

/-- A move up, when there are lines to move. -/
def moveUp (lines : ℕ) : List Command := if 0 < lines then [.up (terminalCount lines)] else []

namespace Surface

/-- `Loop::set_columns`. -/
def setColumns (surface : Surface) (columns : ℕ) : Surface :=
  { surface with
    columns := max columns 1
    editor := surface.editor.setWidth (max (max columns 1 - displayWidth promptPrefix) 1) }

/-- `Loop::new`, with the words that Tab completes to. -/
def start (model : List Char) (columns : ℕ) (words : List (List Char)) : Surface :=
  setColumns ⟨(Editor.withWidth 80).setCompletions words, model, false, 0, 1, 0, false⟩ columns

/-- `Loop::erase`. -/
def erase (surface : Surface) : List Command :=
  moveUp surface.above ++ [.toColumn 0, .clearDown]

/-- What the editor displays. -/
def layout (surface : Surface) : Editor.Layout := surface.editor.display promptPrefix

section Status

variable (status : List Char → Bool → ℕ → ℕ → List Char)

/-- `Loop::status`, by what `status_line` makes of the model, the state, the turns and the
columns. -/
def statusText (surface : Surface) : List Char :=
  status surface.model surface.working surface.turns surface.columns

/-- The rows of the frame. -/
def frame (surface : Surface) : List (List Char) :=
  (inputRows surface.layout.rows promptPrefix surface.editor.text).map RenderLine.plain ++
    [surface.statusText status]

/-- `Loop::draw`. -/
def draw (surface : Surface) : List Command × Surface :=
  (surface.erase ++ writeLines (surface.frame status) ++
      moveUp (caretLinesUp surface.layout.rows.length surface.layout.cursor.line) ++
        [.toColumn (terminalCount surface.layout.cursor.column)],
    { surface with above := surface.layout.cursor.line })

/-- `Loop::hand_over`. -/
def handOver (surface : Surface) : List Command × Surface :=
  (surface.erase ++ writeLines [{ surface with working := true }.statusText status],
    { surface with above := 0, working := true })

/-- `Loop::write_note`. -/
def writeNote (surface : Surface) (texts : List (List Char)) : List Command × Surface :=
  (writeLines texts ++ (surface.draw status).1, (surface.draw status).2)

/-- `Loop::turn`: `take_line` ends the last row of the output. -/
def turn (surface : Surface) (model : List Char) (texts : List (List Char)) (last : List Char)
    (ending : Ending) : List Command × Surface :=
  let handed := surface.handOver status
  let output := writeLines (texts ++ [last])
  match ending with
  | .done =>
      let drawn := draw status { handed.2 with model, turns := surface.turns + 1, working := false }
      (handed.1 ++ output ++ drawn.1, drawn.2)
  | .stopped note =>
      let drawn := draw status { handed.2 with model, working := false }
      (handed.1 ++ output ++ writeLines [note] ++ drawn.1, drawn.2)
  | .failed => (handed.1 ++ output, { handed.2 with model, closed := true })

/-- `Loop::submit`. -/
def submit (surface : Surface) : Answer → List Command × Surface
  | .note texts => surface.writeNote status texts
  | .turn model texts last ending => surface.turn status model texts last ending
  | .quit => ([], { surface with closed := true })

/-- What follows on the outcome of an intent. -/
def respond (surface : Surface) (answer : Answer) : Outcome → List Command × Surface
  | .unchanged => ([], surface)
  | .changed | .cancelled => surface.draw status
  | .submit _ => surface.submit status answer

variable (alphanumeric : Char → Bool)

/-- The loop behind an intent of the editor. -/
def edited (surface : Surface) (intent : Intent) : Surface :=
  { surface with editor := (surface.editor.apply alphanumeric intent).2 }

/-- The body of `Loop::run`. -/
def handle (surface : Surface) : Event → List Command × Surface
  | .edit intent answer =>
      (surface.edited alphanumeric intent).respond status answer
        (surface.editor.apply alphanumeric intent).1
  | .resize columns height =>
      let drawn := (surface.setColumns columns).draw status
      (.resize height :: drawn.1, drawn.2)
  | .interrupt => ([], { surface with closed := surface.editor.isEmpty })

end Status

end Surface

/-! ### The screen -/

/-- The loop and its terminal. -/
structure Screen where
  surface : Surface
  terminal : Terminal

namespace Screen

section Run

variable (status : List Char → Bool → ℕ → ℕ → List Char) (alphanumeric : Char → Bool)

/-- What an event sends to the terminal, and leaves of the loop: nothing when it is at its end. -/
def sends (screen : Screen) (event : Event) : List Command × Surface :=
  if screen.surface.closed then ([], screen.surface)
  else screen.surface.handle status alphanumeric event

def step (screen : Screen) (event : Event) : Screen :=
  ⟨(screen.sends status alphanumeric event).2,
    screen.terminal.run blankCell (screen.sends status alphanumeric event).1⟩

def run (screen : Screen) (events : List Event) : Screen :=
  events.foldl (step status alphanumeric) screen

/-- The first frame. -/
def start (terminal : Terminal) (surface : Surface) : Screen :=
  ⟨(surface.draw status).2, terminal.run blankCell (surface.draw status).1⟩

/-- The rows of a turn: its status line, its output, and the note about its end. -/
def turnRows (surface : Surface) (texts : List (List Char)) (last : List Char) :
    Ending → List (List Char)
  | .stopped note =>
      { surface with working := true }.statusText status :: (texts ++ [last]) ++ [note]
  | _ => { surface with working := true }.statusText status :: (texts ++ [last])

/-- The rows of an answer to what is submitted. -/
def answerRows (surface : Surface) : Outcome → Answer → List (List Char)
  | .submit _, .note texts => texts
  | .submit _, .turn _ texts last ending => turnRows status surface texts last ending
  | _, _ => []

/-- The rows that an event writes to stay. -/
def rowsOf (screen : Screen) : Event → List (List Char)
  | .edit intent answer =>
      if screen.surface.closed then []
      else
        answerRows status (screen.surface.edited alphanumeric intent)
          (screen.surface.editor.apply alphanumeric intent).1 answer
  | _ => []

/-- The rows that a run writes to stay. -/
def written (screen : Screen) : List Event → List (List Char)
  | [] => []
  | event :: events =>
      screen.rowsOf status alphanumeric event ++
        written (screen.step status alphanumeric event) events

end Run

end Screen

/-! ### The frame below the rows that stay -/

/-- A frame fits a terminal of a height, with the row of the cursor below it, and the terminal can
count it. -/
structure Fits (surface : Surface) (height : ℕ) : Prop where
  rows : frameLines surface.layout.rows.length + 1 ≤ height
  count : frameLines surface.layout.rows.length ≤ 65535
  column : surface.layout.cursor.column ≤ 65535

/-- A terminal below `past`, with the cursor where the loop takes it to be. -/
structure Below (past : List (List (List Char))) (above : ℕ) (terminal : Terminal) : Prop where
  rows : past <+: terminal.rows
  line : terminal.line = past.length + above
  top : terminal.top ≤ past.length
  count : above ≤ 65535

/-- The frame of the loop stands below `past`, with the cursor on the caret. -/
structure Open (status : List Char → Bool → ℕ → ℕ → List Char) (past : List (List (List Char)))
    (screen : Screen) : Prop where
  rows : screen.terminal.rows = past ++ (screen.surface.frame status).map cells ++ [[]]
  line : screen.terminal.line = past.length + screen.surface.layout.cursor.line
  column : screen.terminal.column = screen.surface.layout.cursor.column
  above : screen.surface.above = screen.surface.layout.cursor.line
  top : screen.terminal.top ≤ past.length
  count : screen.surface.above ≤ 65535

section Frame

variable {status : List Char → Bool → ℕ → ℕ → List Char} {past : List (List (List Char))}
  {terminal : Terminal} {surface : Surface} {screen : Screen}

open Grid

lemma length_frame (surface : Surface) :
    (surface.frame status).length = frameLines surface.layout.rows.length := by
  rw [Surface.frame, Surface.layout, plain_inputRows, List.length_append]
  rfl

lemma Open.below (h : Open status past screen) :
    Below past screen.surface.above screen.terminal :=
  ⟨by rw [h.rows, List.append_assoc]; exact List.prefix_append _ _, h.above ▸ h.line, h.top, h.count⟩

/-- **An erase** begins at the first row of the frame. -/
lemma fresh_erase (h : Below past surface.above terminal) :
    Fresh past (terminal.run blankCell surface.erase) ∧
      (terminal.run blankCell surface.erase).top = terminal.top ∧
      (terminal.run blankCell surface.erase).height = terminal.height ∧
      terminal.cleared blankCell surface.erase = [past.length] := by
  obtain ⟨behind, hrows⟩ := h.rows
  by_cases habove : 0 < surface.above
  · have hcount : terminalCount surface.above = surface.above := min_eq_left h.count
    have hline := line_up h.line h.top
    rw [Surface.erase, moveUp, if_pos habove, hcount]
    exact ⟨fresh_clear hrows.symm hline, rfl, rfl, congrArg (fun line => [line]) hline⟩
  · have hzero : surface.above = 0 := Nat.eq_zero_of_not_pos habove
    have hline := h.line
    rw [hzero, Nat.add_zero] at hline
    rw [Surface.erase, moveUp, if_neg habove]
    exact ⟨fresh_clear hrows.symm hline, rfl, rfl, congrArg (fun line => [line]) hline⟩

/-- **A frame is drawn** where the last one was. -/
lemma open_draw (h : Below past surface.above terminal) (hfits : Fits surface terminal.height) :
    Open status past ⟨(surface.draw status).2, terminal.run blankCell (surface.draw status).1⟩ ∧
      terminal.cleared blankCell (surface.draw status).1 = [past.length] ∧
      (terminal.run blankCell (surface.draw status).1).height = terminal.height := by
  obtain ⟨hfresh, htop, hheight, hcleared⟩ := fresh_erase h
  have hcaret : surface.layout.cursor.line ≤ surface.layout.rows.length :=
    surface.editor.display_cursor_le promptPrefix
  obtain ⟨hrows, hcount, hcolumn⟩ := hfits
  obtain ⟨hlines, hheight', htop'⟩ :=
    @fresh_lines _ blankCell _ _ hfresh ((surface.frame status).map cells)
  have hup : 0 < caretLinesUp surface.layout.rows.length surface.layout.cursor.line := by
    rw [caretLinesUp, frameLines]
    omega
  have hdraw : (surface.draw status).1 = surface.erase ++ writeLines (surface.frame status) ++
      [.up (caretLinesUp surface.layout.rows.length surface.layout.cursor.line),
        .toColumn surface.layout.cursor.column] := by
    have hlines : terminalCount (caretLinesUp surface.layout.rows.length
        surface.layout.cursor.line) =
          caretLinesUp surface.layout.rows.length surface.layout.cursor.line :=
      min_eq_left ((Nat.sub_le _ _).trans hcount)
    have hright : terminalCount surface.layout.cursor.column = surface.layout.cursor.column :=
      min_eq_left hcolumn
    rw [Surface.draw, moveUp, if_pos hup, hlines, hright]
    simp only [List.append_assoc, List.cons_append, List.nil_append]
  have hrun : terminal.run blankCell (surface.draw status).1 =
      (((terminal.run blankCell surface.erase).run blankCell
        (writeLines (surface.frame status))).up
          (caretLinesUp surface.layout.rows.length surface.layout.cursor.line)).toColumn
            surface.layout.cursor.column := by
    rw [hdraw, run_append, run_append]
    rfl
  have hlength : ((surface.frame status).map cells).length =
      frameLines surface.layout.rows.length := by
    rw [List.length_map, length_frame]
  rw [hlength, hheight, htop] at htop'
  have hheight'' := hheight'.trans hheight
  obtain ⟨hfilled, hline, -⟩ := hlines
  rw [List.length_append, hlength] at hline
  have htop'' : ((terminal.run blankCell surface.erase).run blankCell
      (writeLines (surface.frame status))).top ≤ past.length :=
    htop'.trans (max_le h.top (by omega))
  have hsplit : past.length + frameLines surface.layout.rows.length =
      past.length + surface.layout.cursor.line +
        caretLinesUp surface.layout.rows.length surface.layout.cursor.line := by
    rw [caretLinesUp, frameLines]
    omega
  have hshown : surface.layout.cursor.line ≤ 65535 := by
    rw [frameLines] at hcount
    omega
  have hcursor := line_up (hline.trans hsplit) (htop''.trans (Nat.le_add_right _ _))
  refine ⟨⟨?_, ?_, ?_, rfl, ?_, hshown⟩, ?_, ?_⟩
  · rw [hrun, rows_moved]
    exact hfilled
  · rw [hrun, line_moved]
    exact hcursor
  · rw [hrun, column_moved]
    rfl
  · rw [hrun, top_moved]
    exact htop''
  · rw [hdraw, cleared_append, cleared_append, hcleared]
    have hnone : ((terminal.run blankCell surface.erase).cleared blankCell
        (writeLines (surface.frame status))) = [] := cleared_lines _
    rw [hnone]
    rfl
  · rw [hrun, height_moved]
    exact hheight''

lemma writeLines_append (texts more : List (List Char)) :
    writeLines (texts ++ more) = writeLines texts ++ writeLines more := by
  rw [writeLines, List.map_append, Grid.lines, List.flatMap_append]
  rfl

/-- Rows that are written where the frame was. -/
lemma fresh_written (h : Below past surface.above terminal) (texts : List (List Char)) :
    Fresh (past ++ texts.map cells) (terminal.run blankCell (surface.erase ++ writeLines texts)) ∧
      Below (past ++ texts.map cells) 0
        (terminal.run blankCell (surface.erase ++ writeLines texts)) ∧
      (terminal.run blankCell (surface.erase ++ writeLines texts)).height = terminal.height ∧
      terminal.cleared blankCell (surface.erase ++ writeLines texts) = [past.length] := by
  obtain ⟨hfresh, htop, hheight, hcleared⟩ := fresh_erase h
  obtain ⟨hlines, hheight', htop'⟩ := @fresh_lines _ blankCell _ _ hfresh (texts.map cells)
  have hpos := (terminal.run blankCell surface.erase).height_pos
  have hpast := h.top
  rw [run_append]
  refine ⟨hlines, ⟨?_, hlines.line, htop'.trans ?_, Nat.zero_le _⟩, hheight'.trans hheight, ?_⟩
  · rw [writeLines, hlines.rows]
    exact List.prefix_append _ _
  · rw [List.length_append]
    omega
  · have hnone : (terminal.run blankCell surface.erase).cleared blankCell (writeLines texts) = [] :=
      cleared_lines _
    rw [cleared_append, hcleared, hnone]
    rfl

/-- A frame that is drawn below rows that are written where the last frame was. -/
lemma open_written {drawn : Surface} (h : Below past surface.above terminal)
    (texts : List (List Char)) (hdrawn : drawn.above = 0) (hfits : Fits drawn terminal.height) :
    Open status (past ++ texts.map cells) ⟨(drawn.draw status).2,
        terminal.run blankCell (surface.erase ++ writeLines texts ++ (drawn.draw status).1)⟩ ∧
      terminal.cleared blankCell (surface.erase ++ writeLines texts ++ (drawn.draw status).1) =
        [past.length, (past ++ texts.map cells).length] := by
  obtain ⟨-, hbelow, hheight, hcleared⟩ := fresh_written h texts
  rw [← hdrawn] at hbelow
  rw [← hheight] at hfits
  obtain ⟨hopen, hcleared', -⟩ := @open_draw status _ _ _ hbelow hfits
  rw [run_append, cleared_append, hcleared, hcleared']
  exact ⟨hopen, rfl⟩

end Frame

/-! ### Runs -/

section Runs

variable (status : List Char → Bool → ℕ → ℕ → List Char) (alphanumeric : Char → Bool)

/-- What a screen shows above the frame: the frame is below it, or the loop is at its end. -/
def Stands (past : List (List (List Char))) (screen : Screen) : Prop :=
  if screen.surface.closed then past <+: screen.terminal.rows else Open status past screen

/-- An outcome that leads to no note, and draws only a frame that fits. -/
def SteadyAnswer (surface : Surface) (height : ℕ) : Outcome → Answer → Prop
  | .unchanged, _ => True
  | .changed, _ | .cancelled, _ => Fits surface height
  | .submit _, .note _ => False
  | .submit _, .quit => True
  | .submit _, .turn _ _ _ ending => ending ≠ .failed → Fits surface height

/-- An event that leads to no note, and draws only frames that fit. -/
def Steady (screen : Screen) : Event → Prop
  | .edit intent answer =>
      SteadyAnswer (screen.surface.edited alphanumeric intent) screen.terminal.height
        (screen.surface.editor.apply alphanumeric intent).1 answer
  | .resize columns height =>
      Fits screen.surface (max height 1) ∧ Fits (screen.surface.setColumns columns) (max height 1)
  | .interrupt => True

/-- The erases of commands: none, or the frame at a line, or the frame and then what is below rows
that are written there. -/
def Erases (start next : ℕ) (cleared : List ℕ) : Prop :=
  cleared = [] ∨ cleared = [start] ∨ cleared = [start, next]

/-- The frame owns what it erases, along a run on a terminal with rows above the loop. -/
structure Owned (past : List (List (List Char))) (screen : Screen) (events : List Event) :
    Prop where
  stays : ∀ done, done <+: events →
    past ++ (screen.written status alphanumeric done).map cells <+:
      (screen.run status alphanumeric done).terminal.rows
  shown : ∀ done, done <+: events → (screen.run status alphanumeric done).surface.closed = false →
    (screen.run status alphanumeric done).terminal.rows =
        past ++ (screen.written status alphanumeric done).map cells ++
          ((screen.run status alphanumeric done).surface.layout.rows ++
            [(screen.run status alphanumeric done).surface.statusText status]).map cells ++ [[]] ∧
      (screen.run status alphanumeric done).terminal.line =
        (past ++ (screen.written status alphanumeric done).map cells).length +
          (screen.run status alphanumeric done).surface.layout.cursor.line ∧
      (screen.run status alphanumeric done).terminal.column =
        (screen.run status alphanumeric done).surface.layout.cursor.column
  erases : ∀ done event, done ++ [event] <+: events →
    Erases (past ++ (screen.written status alphanumeric done).map cells).length
      (past ++ (screen.written status alphanumeric (done ++ [event])).map cells).length
      ((screen.run status alphanumeric done).terminal.cleared blankCell
        ((screen.run status alphanumeric done).sends status alphanumeric event).1)

end Runs

section Steps

open Grid Screen

variable {status : List Char → Bool → ℕ → ℕ → List Char} {alphanumeric : Char → Bool}
  {past : List (List (List Char))} {screen : Screen} {event : Event}

lemma stands_of_open (h : Open status past screen) (hopen : screen.surface.closed = false) :
    Stands status past screen := by
  rw [Stands, if_neg (by rw [hopen]; exact Bool.false_ne_true)]
  exact h

lemma stands_of_closed (h : past <+: screen.terminal.rows) (hclosed : screen.surface.closed = true) :
    Stands status past screen := by
  rw [Stands, if_pos hclosed]
  exact h

/-- A turn keeps its rows. -/
lemma stands_turn {surface : Surface} {terminal : Terminal} (h : Below past surface.above terminal)
    (hclosed : surface.closed = false) (model : List Char) (texts : List (List Char))
    (last : List Char) (ending : Ending) (hfits : ending ≠ .failed → Fits surface terminal.height) :
    Stands status (past ++ (turnRows status surface texts last ending).map cells)
        ⟨(surface.turn status model texts last ending).2,
          terminal.run blankCell (surface.turn status model texts last ending).1⟩ ∧
      Erases past.length
        (past ++ (turnRows status surface texts last ending).map cells).length
        (terminal.cleared blankCell (surface.turn status model texts last ending).1) := by
  have houtput : (surface.handOver status).1 ++ writeLines (texts ++ [last]) = surface.erase ++
      writeLines ({ surface with working := true }.statusText status :: (texts ++ [last])) := by
    rw [Surface.handOver, List.append_assoc, ← writeLines_append]
    rfl
  cases ending with
  | done =>
    have hdrawn : Fits { (surface.handOver status).2 with
        model, turns := surface.turns + 1, working := false } terminal.height := by
      obtain ⟨hrows, hcount, hcolumn⟩ := hfits (by decide)
      exact ⟨hrows, hcount, hcolumn⟩
    obtain ⟨hopen, hcleared⟩ := @open_written status _ _ _ _ h
      ({ surface with working := true }.statusText status :: (texts ++ [last])) rfl hdrawn
    rw [← houtput] at hopen hcleared
    exact ⟨stands_of_open hopen hclosed, Or.inr (Or.inr hcleared)⟩
  | stopped note =>
    have hdrawn : Fits { (surface.handOver status).2 with model, working := false }
        terminal.height := by
      obtain ⟨hrows, hcount, hcolumn⟩ := hfits Ending.noConfusion
      exact ⟨hrows, hcount, hcolumn⟩
    obtain ⟨hopen, hcleared⟩ := @open_written status _ _ _ _ h
      ({ surface with working := true }.statusText status :: (texts ++ [last]) ++ [note]) rfl hdrawn
    rw [writeLines_append, ← List.append_assoc, ← houtput] at hopen hcleared
    exact ⟨stands_of_open hopen hclosed, Or.inr (Or.inr hcleared)⟩
  | failed =>
    obtain ⟨-, hbelow, -, hcleared⟩ := fresh_written h
      ({ surface with working := true }.statusText status :: (texts ++ [last]))
    rw [← houtput] at hbelow hcleared
    exact ⟨stands_of_closed hbelow.rows rfl, Or.inr (Or.inl hcleared)⟩

/-- The answer to an intent keeps the rows that stay. -/
lemma stands_respond (h : Open status past screen) (hclosed : screen.surface.closed = false)
    (intent : Intent) (answer : Answer)
    (hsteady : SteadyAnswer (screen.surface.edited alphanumeric intent) screen.terminal.height
      (screen.surface.editor.apply alphanumeric intent).1 answer) :
    Stands status (past ++ (answerRows status (screen.surface.edited alphanumeric intent)
          (screen.surface.editor.apply alphanumeric intent).1 answer).map cells)
        ⟨((screen.surface.edited alphanumeric intent).respond status answer
            (screen.surface.editor.apply alphanumeric intent).1).2,
          screen.terminal.run blankCell ((screen.surface.edited alphanumeric intent).respond status
            answer (screen.surface.editor.apply alphanumeric intent).1).1⟩ ∧
      Erases past.length (past ++ (answerRows status (screen.surface.edited alphanumeric intent)
          (screen.surface.editor.apply alphanumeric intent).1 answer).map cells).length
        (screen.terminal.cleared blankCell ((screen.surface.edited alphanumeric intent).respond
          status answer (screen.surface.editor.apply alphanumeric intent).1).1) := by
  have hbelow : Below past (screen.surface.edited alphanumeric intent).above screen.terminal :=
    h.below
  have hhonest := @Editor.honest_apply alphanumeric screen.surface.editor intent
  cases houtcome : (screen.surface.editor.apply alphanumeric intent).1 with
  | unchanged =>
    have hsame := hhonest houtcome
    have hlayout : (screen.surface.edited alphanumeric intent).layout = screen.surface.layout :=
      hsame.display promptPrefix
    have hframe : (screen.surface.edited alphanumeric intent).frame status =
        screen.surface.frame status := by
      rw [Surface.frame, Surface.frame, Surface.layout, Surface.layout, plain_inputRows,
        plain_inputRows]
      exact congrArg₂ _ (congrArg Editor.Layout.rows hlayout) rfl
    obtain ⟨hrows, hline, hcolumn, habove, htop, hcount⟩ := h
    have hopen : Open status past
        ⟨screen.surface.edited alphanumeric intent, screen.terminal⟩ :=
      ⟨by rw [hframe]; exact hrows, by rw [hlayout]; exact hline, by rw [hlayout]; exact hcolumn,
        by rw [hlayout]; exact habove, htop, hcount⟩
    rw [answerRows.eq_def, List.map_nil, List.append_nil]
    exact ⟨stands_of_open hopen hclosed, Or.inl rfl⟩
  | changed | cancelled =>
    rw [houtcome] at hsteady
    obtain ⟨hopen, hcleared, -⟩ := @open_draw status _ _ _ hbelow hsteady
    rw [answerRows.eq_def, List.map_nil, List.append_nil]
    exact ⟨stands_of_open hopen hclosed, Or.inr (Or.inl hcleared)⟩
  | submit text =>
    rw [houtcome] at hsteady
    cases answer with
    | note texts => exact hsteady.elim
    | quit =>
      rw [answerRows.eq_def, List.map_nil, List.append_nil]
      exact ⟨stands_of_closed h.below.rows rfl, Or.inl rfl⟩
    | turn model texts last ending => exact stands_turn hbelow hclosed model texts last ending hsteady

/-- **A step** keeps the rows that stay, and erases from the first row of the frame on. -/
theorem stands_step (h : Stands status past screen)
    (hsteady : screen.surface.closed = false → Steady alphanumeric screen event) :
    Stands status (past ++ (screen.rowsOf status alphanumeric event).map cells)
        (screen.step status alphanumeric event) ∧
      Erases past.length
        (past ++ (screen.rowsOf status alphanumeric event).map cells).length
        (screen.terminal.cleared blankCell (screen.sends status alphanumeric event).1) := by
  cases hclosed : screen.surface.closed with
  | true =>
    have hsends : screen.sends status alphanumeric event = ([], screen.surface) := by
      rw [sends, if_pos hclosed]
    have hrows : screen.rowsOf status alphanumeric event = [] := by
      cases event with
      | edit => exact if_pos hclosed
      | resize | interrupt => rfl
    rw [Stands, if_pos hclosed] at h
    rw [step, hsends, hrows, List.map_nil, List.append_nil]
    exact ⟨stands_of_closed h hclosed, Or.inl rfl⟩
  | false =>
    have hnot : ¬screen.surface.closed = true := by
      rw [hclosed]
      exact Bool.false_ne_true
    have hsends : screen.sends status alphanumeric event =
        screen.surface.handle status alphanumeric event := by
      rw [sends, if_neg hnot]
    rw [Stands, if_neg hnot] at h
    have hevent := hsteady hclosed
    rw [step, hsends]
    cases event with
    | edit intent answer =>
      have hrows : screen.rowsOf status alphanumeric (.edit intent answer) =
          answerRows status (screen.surface.edited alphanumeric intent)
            (screen.surface.editor.apply alphanumeric intent).1 answer := if_neg hnot
      rw [hrows]
      exact stands_respond h hclosed intent answer hevent
    | resize columns height =>
      obtain ⟨hfits, hdrawn⟩ := hevent
      have hlength : screen.terminal.rows.length =
          past.length + frameLines screen.surface.layout.rows.length + 1 := by
        rw [h.rows, List.length_append, List.length_append, List.length_map, length_frame]
        rfl
      have hfits := hfits.rows
      have hline := h.line
      have htop := h.top
      have hresized : Below past (screen.surface.setColumns columns).above
          (screen.terminal.resize height) := by
        refine ⟨h.below.rows, ?_, ?_, h.count⟩
        · have hsame : (screen.terminal.resize height).line = max screen.terminal.line
              (screen.terminal.rows.length - max height 1) := rfl
          rw [hsame, hlength, max_eq_left (by omega)]
          exact h.below.line
        · have hsame : (screen.terminal.resize height).top = max screen.terminal.top
              (screen.terminal.rows.length - max height 1) := rfl
          rw [hsame, hlength]
          omega
      obtain ⟨hopen, hcleared, -⟩ := @open_draw status _ _ _ hresized hdrawn
      have hrows : screen.rowsOf status alphanumeric (.resize columns height) = [] := rfl
      rw [hrows, List.map_nil, List.append_nil]
      exact ⟨stands_of_open hopen hclosed, Or.inr (Or.inl hcleared)⟩
    | interrupt =>
      have hrows : screen.rowsOf status alphanumeric .interrupt = [] := rfl
      rw [hrows, List.map_nil, List.append_nil]
      refine ⟨?_, Or.inl rfl⟩
      cases hempty : screen.surface.editor.isEmpty with
      | true => exact stands_of_closed h.below.rows hempty
      | false =>
        refine stands_of_open ?_ hempty
        exact ⟨h.rows, h.line, h.column, h.above, h.top, h.count⟩

lemma written_append (events more : List Event) :
    screen.written status alphanumeric (events ++ more) =
      screen.written status alphanumeric events ++
        (screen.run status alphanumeric events).written status alphanumeric more := by
  induction events generalizing screen with
  | nil => rfl
  | cons event events ih =>
    rw [List.cons_append, written, ih, written, List.append_assoc]
    rfl

lemma stands_run (h : Stands status past screen) {events : List Event}
    (hsteady : ∀ done event, done ++ [event] <+: events →
      (screen.run status alphanumeric done).surface.closed = false →
        Steady alphanumeric (screen.run status alphanumeric done) event) :
    Stands status (past ++ (screen.written status alphanumeric events).map cells)
      (screen.run status alphanumeric events) := by
  induction events generalizing screen past with
  | nil =>
    rw [written, List.map_nil, List.append_nil]
    exact h
  | cons event events ih =>
    have hfirst := hsteady [] event (by simp [List.prefix_iff_eq_take])
    have hnext := ih (stands_step h hfirst).1 fun done later hdone =>
      hsteady (event :: done) later (List.cons_prefix_cons.2 ⟨rfl, hdone⟩)
    rw [written, List.map_append, ← List.append_assoc]
    exact hnext

/-- **The frame erases only what it owns**, on every terminal: in a run without notes whose frames
fit, every row that is written to stay stays, below these rows the screen shows the editor and the
status line, and each erase begins at the first row of the last frame, or below what is written
there. -/
theorem owned_of_steady (status : List Char → Bool → ℕ → ℕ → List Char)
    (alphanumeric : Char → Bool) (terminal : Terminal) (model : List Char) (columns : ℕ)
    (words : List (List Char)) (events : List Event)
    (hstart : Fits (Surface.start model columns words) terminal.height)
    (hsteady : ∀ done event, done ++ [event] <+: events →
      ((Screen.start status terminal (Surface.start model columns words)).run status alphanumeric
        done).surface.closed = false →
      Steady alphanumeric ((Screen.start status terminal (Surface.start model columns words)).run
        status alphanumeric done) event) :
    Owned status alphanumeric (terminal.rows.take terminal.line)
      (Screen.start status terminal (Surface.start model columns words)) events := by
  have hline := terminal.line_lt
  have hbelow : Below (terminal.rows.take terminal.line)
      (Surface.start model columns words).above terminal := by
    have hlength : (terminal.rows.take terminal.line).length = terminal.line := by
      rw [List.length_take]
      omega
    exact ⟨List.take_prefix _ _, hlength.symm, hlength.symm ▸ terminal.top_le, Nat.zero_le _⟩
  have hopen := (@open_draw status _ _ _ hbelow hstart).1
  have hstands : ∀ done, done <+: events → Stands status (terminal.rows.take terminal.line ++
      ((Screen.start status terminal (Surface.start model columns words)).written status
        alphanumeric done).map cells)
        ((Screen.start status terminal (Surface.start model columns words)).run status alphanumeric
          done) := fun done hdone =>
    stands_run (stands_of_open hopen rfl) fun front event hfront =>
      hsteady front event (hfront.trans hdone)
  refine ⟨fun done hdone => ?_, fun done hdone hclosed => ?_, fun done event hdone => ?_⟩
  · have hdone := hstands done hdone
    rw [Stands] at hdone
    split_ifs at hdone
    · exact hdone
    · exact hdone.below.rows
  · have hdone := hstands done hdone
    rw [Stands, if_neg (by rw [hclosed]; exact Bool.false_ne_true)] at hdone
    refine ⟨?_, hdone.line, hdone.column⟩
    have hframe : ∀ surface : Surface, surface.frame status =
        surface.layout.rows ++ [surface.statusText status] := fun surface => by
      rw [Surface.frame, Surface.layout, plain_inputRows]
    rw [← hframe]
    exact hdone.rows
  · have herases := (stands_step (hstands done ((List.prefix_append _ _).trans hdone))
      (hsteady done event hdone)).2
    rw [List.append_assoc, ← List.map_append] at herases
    rw [written_append]
    have hlast : ∀ screen : Screen, screen.written status alphanumeric [event] =
        screen.rowsOf status alphanumeric event := fun screen => List.append_nil _
    rw [hlast]
    exact herases

/-- The condition on a run, at each of its places. -/
lemma steady_of_forall {events : List Event}
    (h : ∀ i : Fin events.length,
      Steady alphanumeric (screen.run status alphanumeric (events.take i)) (events.get i)) :
    ∀ done event, done ++ [event] <+: events →
      (screen.run status alphanumeric done).surface.closed = false →
        Steady alphanumeric (screen.run status alphanumeric done) event := by
  rintro done event ⟨later, rfl⟩ -
  have hsteady := h ⟨done.length, by simp⟩
  rw [List.get_eq_getElem] at hsteady
  simp only [List.append_assoc, List.take_left, List.getElem_append_right le_rfl, Nat.sub_self]
    at hsteady
  exact hsteady

end Steps

namespace Shown

/-- A shell with a row of its own, and the cursor below it. -/
def shell : Terminal where
  rows := [cells ['$'], []]
  line := 1
  column := 0
  top := 0
  height := 4
  line_lt := by decide
  top_le := by decide
  height_pos := by decide

def status (_ : List Char) (working : Bool) (_ _ : ℕ) : List Char :=
  if working then ['r'] else ['w']

instance (surface : Surface) (height : ℕ) : Decidable (Fits surface height) :=
  decidable_of_iff (frameLines surface.layout.rows.length + 1 ≤ height ∧
      frameLines surface.layout.rows.length ≤ 65535 ∧ surface.layout.cursor.column ≤ 65535)
    ⟨fun h => ⟨h.1, h.2.1, h.2.2⟩, fun h => ⟨h.rows, h.count, h.column⟩⟩

instance (surface : Surface) (height : ℕ) (outcome : Outcome) (answer : Answer) :
    Decidable (SteadyAnswer surface height outcome answer) :=
  match outcome, answer with
  | .unchanged, _ => isTrue trivial
  | .changed, _ | .cancelled, _ => inferInstanceAs (Decidable (Fits surface height))
  | .submit _, .note _ => isFalse id
  | .submit _, .quit => isTrue trivial
  | .submit _, .turn _ _ _ ending =>
      inferInstanceAs (Decidable (ending ≠ .failed → Fits surface height))

instance (alphanumeric : Char → Bool) (screen : Screen) (event : Event) :
    Decidable (Steady alphanumeric screen event) :=
  match event with
  | .edit _ _ => inferInstanceAs (Decidable (SteadyAnswer _ _ _ _))
  | .resize _ _ => inferInstanceAs (Decidable (_ ∧ _))
  | .interrupt => isTrue trivial

/-- A prompt on two rows, a turn that scrolls the terminal, and a prompt on a wider one. -/
theorem owned_turn : Owned status Char.isAlphanum [cells ['$']]
    (Screen.start status shell (Surface.start [] 80 []))
    [.edit (.insert 'a') .quit, .edit .insertNewline .quit, .edit .submit
      (.turn [] [['b'], []] ['c'] (.stopped ['d'])), .edit (.insert 'e') .quit, .resize 90 5] :=
  owned_of_steady status Char.isAlphanum shell [] 80 [] _ (by decide +kernel)
    (steady_of_forall (by decide +kernel))

/-- A note goes on with the row of the caret, and is not the row that was written. -/
theorem note_joins_frame : ¬Owned status Char.isAlphanum [cells ['$']]
    (Screen.start status shell (Surface.start [] 80 []))
    [.edit (.insert '/') .quit, .edit .submit (.note [['n']])] := by
  intro h
  exact absurd (h.stays _ List.prefix_rfl) (by decide +kernel)

end Shown

end Rupi.Tui
