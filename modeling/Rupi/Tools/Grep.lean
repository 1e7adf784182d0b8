import Rupi.Core.BoundedLine
import Rupi.Core.Lossy
import Rupi.Tools.Contract
import Rupi.Tools.Exec
import Rupi.Tools.Glob

/-!
The grep tool.

- `Scan.allow`, `Scan.visit`, `scanFile`, `scanDir`: the walk, with every flag that a stop sets.
- `search`, `execute`: one call, with the notes below its result.
- `Reaches`: the files below the root, and whether the walk overlooks them.
- `grep_lists_iff`: without a note, when exactly the result lists every matching line.
-/

namespace Rupi

open BoundedLine Payload

namespace Grep

/-! ### What is searched -/

/-- The bytes of a name. -/
abbrev Name := List UInt8

/-- A file: whether it can be opened, the buffers that it comes in, and the number of lines after
which reading fails. -/
structure SearchedFile where
  opens : Bool
  buffers : List (List UInt8)
  failsAfter : Option Nat
  deriving DecidableEq, Repr

/-- How the reading of a directory entry goes: there may be an error in place of the entry, or of
its type. -/
inductive EntryRead where
  | read
  | failed
  | untyped
  deriving DecidableEq, Repr

/-- What a path names; what is neither a file nor a directory is a link, a device or a socket. -/
inductive Node where
  | file (file : SearchedFile)
  | dir (readable : Bool) (entries : List (Name × EntryRead × Node))
  | other

abbrev Entry := Name × EntryRead × Node

def Node.isDir : Node → Bool
  | .dir _ _ => true
  | _ => false

/-- What a check of the clocks finds: `is_cancelled_or_expired`, then what the two parts of it say
when they are asked again, and the deadline of the tool. What was seen once is seen again. -/
structure Observed where
  interrupted : Bool
  cancelled : Bool
  deadlineExpired : Bool
  expired : Bool
  seen : interrupted = true → cancelled = true ∨ deadlineExpired = true

/-! ### Matching -/

/-- `Matcher`. -/
structure Matcher where
  needle : String
  glob : Option String
  fold : Bool
  deriving DecidableEq, Repr

namespace Matcher

variable (toLowercase : String → String)

/-- `Matcher::new`; the lower case of a text is a parameter. -/
def new (pattern : String) (asGlob ignoreCase : Bool) : Matcher :=
  let folded := if ignoreCase then toLowercase pattern else pattern
  if asGlob then ⟨"", some folded, ignoreCase⟩ else ⟨folded, none, ignoreCase⟩

/-- `Matcher::matches`. -/
def matchesLine (matcher : Matcher) (text : String) : Bool :=
  match matcher.glob with
  -- a glob selects files, and every line of a selected file matches
  | some _ => true
  | none =>
    if matcher.needle.isEmpty then false
    else
      containsText matcher.needle.toList text.toList ||
        (matcher.fold && containsText matcher.needle.toList (toLowercase text).toList)

/-- `Matcher::matches_path`, for the name at the end of the path. -/
def matchesPath (matcher : Matcher) (name : Name) : Bool :=
  let name := String.ofList (fromUtf8Lossy name)
  match matcher.glob with
  | some pattern => globMatch pattern (if matcher.fold then toLowercase name else name)
  | none => true

end Matcher

/-! ### The state of a search -/

/-- `Scan`, with the number of checks that were made of the clocks. -/
structure Scan where
  found : List String
  limit : Nat
  hitLimit : Bool
  entries : Nat
  entriesHitCap : Bool
  skipped : Nat
  longLines : Nat
  timedOut : Bool
  cancelled : Bool
  stopped : Bool
  checks : Nat
  deriving DecidableEq, Repr

/-- `SCAN_LIMIT`. -/
def scanLimit : Nat := 200000

/-- `MAX_DEPTH`. -/
def maxDepth : Nat := 24

/-- `SKIP_DIRS`. -/
def skipDirs : List String :=
  [".git", ".hg", ".svn", "node_modules", "target", "dist", "build", ".venv", "venv",
    "__pycache__", ".pixi", ".cache"]

def isSkipped (name : Name) : Bool := skipDirs.contains (String.ofList (fromUtf8Lossy name))

namespace Scan

/-- `Scan::new`. -/
def new (limit : Nat) : Scan := ⟨[], limit, false, 0, false, 0, 0, false, false, false, 0⟩

/-- `Scan::allow`. -/
def allow (clocks : Nat → Observed) (st : Scan) : Bool × Scan :=
  if st.stopped then (false, st)
  else
    let now := clocks st.checks
    let st := { st with checks := st.checks + 1 }
    if now.interrupted then
      (false,
        { st with
          cancelled := now.cancelled
          timedOut := now.deadlineExpired && !now.cancelled
          stopped := true })
    else if st.limit ≤ st.found.length then (false, { st with hitLimit := true, stopped := true })
    else if now.expired then (false, { st with timedOut := true, stopped := true })
    else (true, st)

/-- `Scan::visit`. -/
def visit (st : Scan) : Bool × Scan :=
  if st.stopped then (false, st)
  else
    let st := { st with entries := st.entries + 1 }
    if scanLimit < st.entries then (false, { st with entriesHitCap := true, stopped := true })
    else (true, st)

end Scan

/-- `clip`. -/
def clip (text : List Char) (max : Nat) : List Char :=
  if byteSize text ≤ max then text else takeBytes max text ++ ['…']

/-- `relative`: a path from the name of the base on. -/
def relative (path base : List Name) : String :=
  String.ofList (fromUtf8Lossy (List.intercalate [0x2F] (path.drop (base.length - 1))))

/-- A line of the result. -/
def matchText (display : String) (number : Nat) (line : String) : String :=
  display ++ ":" ++ number.repr ++ ": " ++ String.ofList (clip (trimLineEnd line.toList) 300)

/-- `line_limit`. -/
def lineLimit (maxLineBytes : Nat) : Nat := max (min (maxLineBytes + 4) (2 ^ 64 - 1)) 1

/-- What the reads of a file give, up to the one that fails. -/
def SearchedFile.reads (file : SearchedFile) (maxLineBytes : Nat) : List (Option BoundedLine.LineRead) :=
  let lines := readBoundedLines (lineLimit maxLineBytes) .reject file.buffers
  match file.failsAfter with
  | none => lines.map some
  | some k => (lines.take k).map some ++ [none]

/-- What a search is given. -/
structure Search where
  toLowercase : String → String
  matcher : Matcher
  base : List Name
  maxLineBytes : Nat
  clocks : Nat → Observed

section Walk

variable (search : Search)

/-- The loop of `scan_file`. -/
def scanLines (display : String) (number : Nat) (st : Scan) : List (Option BoundedLine.LineRead) → Scan
  | [] => (st.allow search.clocks).2
  | read :: reads =>
    let (allowed, st) := st.allow search.clocks
    if !allowed then st
    else
      match read with
      | none => { st with skipped := st.skipped + 1 }
      | some .endOfFile => st
      | some .tooLong => { st with longLines := st.longLines + 1 }
      | some (.line bytes _) =>
        match fromUtf8 bytes with
        | none => { st with skipped := st.skipped + 1 }
        | some line =>
          if '\x00' ∈ line.toList then { st with skipped := st.skipped + 1 }
          else
            let matched := search.matcher.matchesLine search.toLowercase line
            let st :=
              if matched then
                { st with found := st.found ++ [matchText display (number + 1) line] }
              else st
            if matched ∧ st.limit ≤ st.found.length then
              { st with hitLimit := true, stopped := true }
            else
              let late := (search.clocks st.checks).expired
              let st := { st with checks := st.checks + 1 }
              if late then { st with timedOut := true, stopped := true }
              else scanLines display (number + 1) st reads

/-- `scan_file`. -/
def scanFile (path : List Name) (file : SearchedFile) (st : Scan) : Scan :=
  let (allowed, st) := st.allow search.clocks
  if !allowed then st
  else if !file.opens then { st with skipped := st.skipped + 1 }
  else scanLines search (relative path search.base) 0 st (file.reads search.maxLineBytes)

/-- The order of names. -/
def nameKey (name : Name) : List Nat := name.map UInt8.toNat

/-- The entries of a directory that can be read, in the order of their names. -/
def sortedEntries (entries : List Entry) : List Entry :=
  (entries.filter fun entry => entry.2.1 ≠ .failed).mergeSort fun a b =>
    decide (nameKey a.1 ≤ nameKey b.1)

/-- The loop of `scan_dir`, with what it does in a directory. -/
def scanEntries (descend : List Name → Node → Scan → Scan) (path : List Name) :
    List Entry → Scan → Scan
  -- a deep tree can exhaust the budget without visiting another entry
  | [], st => (st.allow search.clocks).2
  | (name, entryRead, node) :: entries, st =>
    let (visited, st) := st.visit
    if !visited then st
    else
      let (allowed, st) := st.allow search.clocks
      if !allowed then st
      else
        match entryRead, node with
        | .read, .dir readable children =>
          if isSkipped name then scanEntries descend path entries st
          else
            scanEntries descend path entries
              (descend (path ++ [name]) (.dir readable children) st)
        | .read, .file file =>
          if search.matcher.matchesPath search.toLowercase name then
            scanEntries descend path entries (scanFile search (path ++ [name]) file st)
          else scanEntries descend path entries st
        | _, _ => scanEntries descend path entries st

/-- `scan_dir`, with the number of levels that are left; none are where the depth is above
`MAX_DEPTH`. -/
def scanDir : Nat → List Name → Node → Scan → Scan
  | 0, _, _, st => st
  | left + 1, path, .dir true entries, st =>
    scanEntries search (scanDir left) path (sortedEntries entries) st
  | _ + 1, _, _, st => st

/-- The walk from the root. -/
def walk (root : Node) (limit : Nat) : Scan :=
  match root with
  | .file file => scanFile search search.base file (.new limit)
  | root => scanDir search (maxDepth + 1) search.base root (.new limit)

end Walk

/-! ### One call -/

/-- The notes below a result. -/
def Scan.notes (st : Scan) (maxMatches maxLineBytes : Nat) : List String :=
  (if st.found.isEmpty && (st.entriesHitCap || st.timedOut || st.cancelled ||
      decide (0 < st.skipped) || decide (0 < st.longLines)) then
    ["the search was incomplete, so absence is not established"] else []) ++
  (if st.hitLimit then
    ["stopped after " ++ maxMatches.repr ++ " matches; narrow the pattern or raise max_matches"]
  else []) ++
  (if st.entriesHitCap then
    ["stopped after scanning " ++ scanLimit.repr ++
      " entries; the result is partial, narrow the path"] else []) ++
  (if 0 < st.skipped then
    ["skipped " ++ st.skipped.repr ++ " binary or unreadable files"] else []) ++
  (if 0 < st.longLines then
    ["skipped " ++ st.longLines.repr ++ " file(s) containing lines over the " ++
      maxLineBytes.repr ++ " byte ingestion limit"] else []) ++
  (if st.timedOut then ["stopped after 60s; narrow the path"] else []) ++
  (if st.cancelled then ["search cancelled before the walk completed"] else [])

/-- The text of a result. -/
def Scan.text (st : Scan) (notes : List String) : String :=
  (if st.found.isEmpty then "no matches\n"
  else String.join (st.found.map fun line => line ++ "\n")) ++
    if notes.isEmpty then "" else "\n[" ++ String.intercalate "; " notes ++ "]\n"

/-- `max_matches`, from the argument where it is a number. -/
def maxMatchesOf (argument : Option Nat) : Nat := min (max (argument.getD 200) 1) 5000

/-- The arguments of a call. -/
structure Arguments where
  pattern : String
  asGlob : Bool
  ignoreCase : Bool
  maxMatches : Option Nat
  path : Option String
  deriving DecidableEq, Repr

/-- `arg_u64`. -/
def argU64 (request : ToolRequest) (name : String) : Option Nat :=
  ((request.arguments.get name).bind Value.asNat).filter (· < 2 ^ 64)

def Arguments.ofRequest (request : ToolRequest) : Except ToolError Arguments := do
  let pattern ← argStr request "pattern"
  pure ⟨pattern, argBool request "glob" false, argBool request "ignore_case" false,
    argU64 request "max_matches", (request.arguments.get "path").bind Value.asText⟩

/-- What a call meets outside of its arguments: the resolution of the path, with what it names. -/
structure Run where
  toLowercase : String → String
  searchPath : String → Except String (List Name × Option Node)
  cancelledBefore : Bool
  clocks : Nat → Observed
  maxLineBytes : Nat

/-- The search of a call. -/
def Run.search (run : Run) (args : Arguments) (base : List Name) : Search :=
  ⟨run.toLowercase, .new run.toLowercase args.pattern args.asGlob args.ignoreCase, base,
    run.maxLineBytes, run.clocks⟩

/-- `execute_inner`, behind the arguments. -/
def execute (run : Run) (args : Arguments) : ToolOutcome :=
  match run.searchPath (args.path.getD ".") with
  | .error error => .failed error
  | .ok (base, none) =>
    .failed ("grep: '/" ++ String.ofList (fromUtf8Lossy (List.intercalate [0x2F] base)) ++
      "' does not exist")
  | .ok (base, some root) =>
    if run.cancelledBefore then .failed "grep: cancelled before searching"
    else
      let maxMatches := maxMatchesOf args.maxMatches
      let st := walk (run.search args base) root maxMatches
      let text := st.text (st.notes maxMatches run.maxLineBytes)
      if st.cancelled then .failed text else .succeeded text

/-- `execute_inner`. -/
def executeInner (run : Run) (request : ToolRequest) : Except ToolError ToolOutcome :=
  (Arguments.ofRequest request).map (execute run)

/-! ### What is promised -/

/-- A file below a node, by its path, and whether the walk overlooks it: because a directory on the
way is too deep or cannot be read, or because an entry cannot be read. The depth is that of the
node; a skipped directory is not entered. -/
inductive Reaches : Nat → Node → List Name → SearchedFile → Bool → Prop
  | file {depth : Nat} (file : SearchedFile) : Reaches depth (.file file) [] file false
  | entry {depth : Nat} {readable : Bool} {entries : List Entry} {name : Name}
      {entryRead : EntryRead} {node : Node} {path : List Name} {file : SearchedFile}
      {overlooked : Bool} (hmem : (name, entryRead, node) ∈ entries)
      (hskip : node.isDir = true → isSkipped name = false)
      (h : Reaches (depth + 1) node path file overlooked) :
      Reaches depth (.dir readable entries) (name :: path) file
        (overlooked || decide (maxDepth < depth) || !readable || decide (entryRead ≠ .read))

/-- A matching line: the path of its file below the root, its number and its text. -/
structure Hit where
  path : List Name
  number : Nat
  line : String
  deriving DecidableEq, Repr

/-- The pattern selects the file; a root that is a file is always selected. -/
def Search.Selects (search : Search) (path : List Name) : Prop :=
  ∀ name ∈ path.getLast?, search.matcher.matchesPath search.toLowercase name = true

/-- A line of a file matches. -/
def Search.LineIn (search : Search) (file : SearchedFile) (hit : Hit) : Prop :=
  ∃ i segment, (lineSegments file.buffers.flatten)[i]? = some segment ∧ hit.number = i + 1 ∧
    fromUtf8 segment = some hit.line ∧
    search.matcher.matchesLine search.toLowercase hit.line = true

/-- A line of a selected file matches. -/
def Search.HitIn (search : Search) (file : SearchedFile) (hit : Hit) : Prop :=
  search.Selects hit.path ∧ search.LineIn file hit

/-- The order of the result: by path, name by name, then by number. -/
def Hit.Before (a b : Hit) : Prop :=
  a.path.map nameKey < b.path.map nameKey ∨ a.path = b.path ∧ a.number < b.number

/-- The line of the result for a hit, below a path. -/
def Search.render (search : Search) (path : List Name) (hit : Hit) : String :=
  matchText (relative (path ++ hit.path) search.base) hit.number hit.line

/-- Every matching line of every file below the root is listed once, in the order of the paths. -/
def ListsAll (search : Search) (root : Node) (found : List String) : Prop :=
  ∃ hits : List Hit, found = hits.map (search.render search.base) ∧ hits.Pairwise Hit.Before ∧
    ∀ hit, hit ∈ hits ↔
      ∃ file overlooked, Reaches 0 root hit.path file overlooked ∧ search.HitIn file hit

/-- No two entries of a directory have the same name. -/
inductive DistinctNames : Node → Prop
  | file (file : SearchedFile) : DistinctNames (.file file)
  | dir {readable : Bool} {entries : List Entry} (hnodup : (entries.map Prod.fst).Nodup)
      (h : ∀ entry ∈ entries, DistinctNames entry.2.2) : DistinctNames (.dir readable entries)
  | other : DistinctNames .other

/-! ### Flags -/

section Flags

variable {st st' st'' : Scan} {clocks : Nat → Observed} {texts more : List String}

/-- One of the flags is set that a note tells of. -/
def Scan.Flagged (st : Scan) : Prop :=
  st.hitLimit = true ∨ st.entriesHitCap = true ∨ 0 < st.skipped ∨ 0 < st.longLines ∨
    st.timedOut = true ∨ st.cancelled = true

/-- **There is no note exactly if no flag is set.** -/
lemma notes_eq_nil_iff (maxMatches maxLineBytes : Nat) :
    st.notes maxMatches maxLineBytes = [] ↔ ¬ st.Flagged := by
  simp only [Scan.notes, Scan.Flagged, List.append_eq_nil_iff, not_or]
  constructor
  · rintro ⟨⟨⟨⟨⟨⟨-, hlimit⟩, hcap⟩, hskipped⟩, hlong⟩, htime⟩, hcancelled⟩
    simp_all
  · rintro ⟨hlimit, hcap, hskipped, hlong, htime, hcancelled⟩
    simp [hlimit, hcap, hskipped, hlong, htime, hcancelled]

/-- A search that has stopped says so. -/
def Scan.Sound (st : Scan) : Prop := st.stopped = true → st.Flagged

/-- A part of the search adds these lines to the result, unless a flag is set. -/
def Adds (st st' : Scan) (texts : List String) : Prop :=
  st.Sound → st'.Sound ∧ (st'.Flagged ∨ ¬ st.Flagged ∧ st'.found = st.found ++ texts)

lemma adds_refl (st : Scan) : Adds st st [] := fun h => by
  by_cases hflagged : st.Flagged
  · exact ⟨h, .inl hflagged⟩
  · exact ⟨h, .inr ⟨hflagged, (List.append_nil _).symm⟩⟩

lemma Adds.trans (h : Adds st st' texts) (h' : Adds st' st'' more) :
    Adds st st'' (texts ++ more) := fun hsound => by
  obtain ⟨hsound', hfirst⟩ := h hsound
  obtain ⟨hsound'', hsecond⟩ := h' hsound'
  refine ⟨hsound'', ?_⟩
  rcases hsecond with hflagged | ⟨hclean, hfound⟩
  · exact .inl hflagged
  · rcases hfirst with hflagged | ⟨hclean', hfound'⟩
    · exact absurd hflagged hclean
    · exact .inr ⟨hclean', by rw [hfound, hfound', List.append_assoc]⟩

/-- Where a flag is set, nothing is promised of the lines. -/
lemma adds_of_flagged (h : st.Sound → st'.Flagged) : Adds st st' texts := fun hsound =>
  ⟨fun _ => h hsound, .inl (h hsound)⟩

/-- Counting sets no flag. -/
lemma adds_counted (st : Scan) (entries checks : Nat) :
    Adds st { st with entries := entries, checks := checks } [] := adds_refl st

/-- A line is added. -/
lemma adds_found (st : Scan) (text : String) :
    Adds st { st with found := st.found ++ [text] } [text] := fun h => by
  by_cases hflagged : st.Flagged
  · exact ⟨h, .inl hflagged⟩
  · exact ⟨h, .inr ⟨hflagged, rfl⟩⟩

/-- **A check that stops the search sets a flag.** -/
lemma allow_cases (st : Scan) (clocks : Nat → Observed) :
    st.allow clocks = (true, { st with checks := st.checks + 1 }) ∨
      ∃ st', st.allow clocks = (false, st') ∧ (st.Sound → st'.Flagged) := by
  rw [Scan.allow]
  dsimp only
  split_ifs with hstopped hinterrupted
  · exact .inr ⟨_, rfl, fun h => h hstopped⟩
  · refine .inr ⟨_, rfl, fun _ => ?_⟩
    cases hcancelled : (clocks st.checks).cancelled with
    | true => simp [Scan.Flagged]
    | false =>
      have hexpired := ((clocks st.checks).seen hinterrupted).resolve_left (by simp [hcancelled])
      simp [Scan.Flagged, hexpired]
  · exact .inr ⟨_, rfl, fun _ => .inl rfl⟩
  · exact .inr ⟨_, rfl, fun _ => .inr (.inr (.inr (.inr (.inl rfl))))⟩
  · exact .inl rfl

lemma visit_cases (st : Scan) :
    st.visit = (true, { st with entries := st.entries + 1 }) ∨
      ∃ st', st.visit = (false, st') ∧ (st.Sound → st'.Flagged) := by
  rw [Scan.visit]
  dsimp only
  split_ifs with hstopped
  · exact .inr ⟨_, rfl, fun h => h hstopped⟩
  · exact .inr ⟨_, rfl, fun _ => .inr (.inl rfl)⟩
  · exact .inl rfl

lemma adds_allow (st : Scan) (clocks : Nat → Observed) : Adds st (st.allow clocks).2 [] := by
  rcases allow_cases st clocks with h | ⟨st', h, hflagged⟩
  · rw [h]
    exact adds_counted st st.entries (st.checks + 1)
  · rw [h]
    exact adds_of_flagged hflagged

end Flags

/-! ### A file -/

section Files

variable {search : Search} {path : List Name} {number : Nat} {segments : List (List UInt8)}
  {reads : List (Option BoundedLine.LineRead)} {hit : Hit}

/-- The matching lines of a file, its path left out. -/
def fileHits (search : Search) : Nat → List (List UInt8) → List Hit
  | _, [] => []
  | number, segment :: segments =>
    (match fromUtf8 segment with
      | some line =>
        if search.matcher.matchesLine search.toLowercase line then [⟨[], number + 1, line⟩] else []
      | none => []) ++ fileHits search (number + 1) segments

/-- The reads give the lines of the file one by one, up to one that goes wrong. -/
def Follows : List (Option BoundedLine.LineRead) → List (List UInt8) → Prop
  | [], segments => segments = []
  | some (.line bytes _) :: reads, segments =>
    ∃ others, segments = bytes :: others ∧ Follows reads others
  | some .endOfFile :: _, _ => False
  | some .tooLong :: _, _ => True
  | none :: _, _ => True

lemma follows_untilTooLong (limit : Nat) (segments : List (List UInt8)) :
    Follows ((untilTooLong (segments.map (outcome limit .reject))).map some) segments := by
  induction segments with
  | nil => exact rfl
  | cons segment segments ih =>
    rw [List.map_cons]
    rcases Nat.lt_or_ge limit (withoutBreak segment).length with hlong | hfits
    · rw [outcome_reject hlong]
      exact trivial
    · rw [outcome_of_le hfits, untilTooLong]
      · exact ⟨segments, rfl, ih⟩
      · simp

lemma follows_take {lines : List BoundedLine.LineRead} (h : Follows (lines.map some) segments) (k : Nat) :
    Follows ((lines.take k).map some ++ [none]) segments := by
  induction lines generalizing segments k with
  | nil =>
    rw [List.take_nil]
    exact trivial
  | cons line lines ih =>
    cases k with
    | zero => exact trivial
    | succ k =>
      cases line with
      | endOfFile => exact h
      | tooLong => exact trivial
      | line bytes truncated =>
        obtain ⟨others, rfl, hothers⟩ := h
        exact ⟨others, rfl, ih hothers k⟩

lemma follows_reads (file : SearchedFile) (maxLineBytes : Nat) :
    Follows (file.reads maxLineBytes) (lineSegments file.buffers.flatten) := by
  have hpositive : 0 < lineLimit maxLineBytes := lt_max_of_lt_right Nat.one_pos
  have hlines := follows_untilTooLong (lineLimit maxLineBytes) (lineSegments file.buffers.flatten)
  rw [← readBoundedLines_eq hpositive] at hlines
  rw [SearchedFile.reads]
  cases file.failsAfter with
  | none => exact hlines
  | some k => exact follows_take hlines k

lemma flagged_skipped (st : Scan) : Scan.Flagged { st with skipped := st.skipped + 1 } :=
  .inr (.inr (.inl (Nat.succ_pos _)))

lemma flagged_longLines (st : Scan) : Scan.Flagged { st with longLines := st.longLines + 1 } :=
  .inr (.inr (.inr (.inl (Nat.succ_pos _))))

lemma flagged_timedOut (st : Scan) : Scan.Flagged { st with timedOut := true, stopped := true } :=
  .inr (.inr (.inr (.inr (.inl rfl))))

/-- **The loop over a file adds its matching lines.** -/
lemma scanLines_adds (st : Scan) (hfollows : Follows reads segments) :
    Adds st (scanLines search (relative path search.base) number st reads)
      ((fileHits search number segments).map (search.render path)) := by
  induction reads generalizing number segments st with
  | nil =>
    rw [show segments = [] from hfollows]
    exact adds_allow st search.clocks
  | cons read reads ih =>
    rw [scanLines]
    rcases allow_cases st search.clocks with hallow | ⟨st', hallow, hflagged⟩
    · rw [hallow]
      dsimp only
      rw [if_neg (by simp)]
      cases read with
      | none => exact adds_of_flagged fun _ => flagged_skipped _
      | some read =>
        cases read with
        | endOfFile => exact absurd hfollows id
        | tooLong => exact adds_of_flagged fun _ => flagged_longLines _
        | line bytes truncated =>
          obtain ⟨others, rfl, hothers⟩ := hfollows
          rw [fileHits]
          cases hline : fromUtf8 bytes with
          | none =>
            dsimp only
            rw [hline]
            exact adds_of_flagged fun _ => flagged_skipped _
          | some line =>
            dsimp only
            rw [hline]
            dsimp only
            by_cases hnul : '\x00' ∈ line.toList
            · rw [if_pos hnul]
              exact adds_of_flagged fun _ => flagged_skipped _
            · rw [if_neg hnul, List.map_append]
              cases hmatched : search.matcher.matchesLine search.toLowercase line with
              | true =>
                have hfound := (adds_counted st st.entries (st.checks + 1 + 1)).trans
                  (adds_found { st with checks := st.checks + 1 + 1 }
                    (matchText (relative path search.base) (number + 1) line))
                simp only [if_true, true_and]
                split_ifs
                · exact adds_of_flagged fun _ => .inl rfl
                · exact adds_of_flagged fun _ => flagged_timedOut _
                · refine Adds.trans ?_ (ih _ hothers)
                  simpa [Search.render] using hfound
              | false =>
                simp only [Bool.false_eq_true, if_false, false_and, List.map_nil, List.nil_append]
                split_ifs
                · exact adds_of_flagged fun _ => flagged_timedOut _
                · exact (adds_counted st st.entries (st.checks + 1 + 1)).trans (ih _ hothers)
    · rw [hallow]
      exact adds_of_flagged hflagged

/-- The matching lines of a file. -/
def hitsOf (search : Search) (file : SearchedFile) : List Hit :=
  fileHits search 0 (lineSegments file.buffers.flatten)

/-- **A file adds its matching lines.** -/
lemma scanFile_adds (file : SearchedFile) (st : Scan) :
    Adds st (scanFile search path file st) ((hitsOf search file).map (search.render path)) := by
  rw [scanFile]
  rcases allow_cases st search.clocks with hallow | ⟨st', hallow, hflagged⟩
  · rw [hallow]
    dsimp only
    rw [if_neg (by simp)]
    split_ifs
    · exact adds_of_flagged fun _ => flagged_skipped _
    · exact (adds_counted st st.entries (st.checks + 1)).trans
        (scanLines_adds _ (follows_reads file search.maxLineBytes))
  · rw [hallow]
    exact adds_of_flagged hflagged

end Files

/-! ### A directory -/

section Directories

variable {search : Search} {path : List Name} {below : Node → List Hit}

/-- A hit in an entry is one below the directory. -/
def Hit.under (name : Name) (hit : Hit) : Hit := { hit with path := name :: hit.path }

/-- The hits in an entry that the walk goes into; `below` are those in a directory. -/
def entryHits (search : Search) (below : Node → List Hit) : Entry → List Hit
  | (name, .read, .dir readable children) =>
    if isSkipped name then [] else (below (.dir readable children)).map (Hit.under name)
  | (name, .read, .file file) =>
    if search.matcher.matchesPath search.toLowercase name then
      (hitsOf search file).map (Hit.under name)
    else []
  | _ => []

/-- The hits in a directory that the walk goes into, with the number of levels that are left. -/
def walkedHits (search : Search) : Nat → Node → List Hit
  | left + 1, .dir true entries =>
    (sortedEntries entries).flatMap (entryHits search (walkedHits search left))
  | _, _ => []

lemma render_under (name : Name) (hits : List Hit) :
    (hits.map (Hit.under name)).map (search.render path) =
      hits.map (search.render (path ++ [name])) := by
  rw [List.map_map]
  refine List.map_congr_left fun hit _ => ?_
  simp [Search.render, Hit.under]

/-- **The loop over the entries of a directory adds their matching lines.** -/
lemma scanEntries_adds {descend : List Name → Node → Scan → Scan}
    (hdescend : ∀ path node st, Adds st (descend path node st)
      ((below node).map (search.render path))) (entries : List Entry) (st : Scan) :
    Adds st (scanEntries search descend path entries st)
      ((entries.flatMap (entryHits search below)).map (search.render path)) := by
  induction entries generalizing st with
  | nil => exact adds_allow st search.clocks
  | cons entry entries ih =>
    obtain ⟨name, entryRead, node⟩ := entry
    rw [scanEntries, List.flatMap_cons, List.map_append]
    rcases visit_cases st with hvisit | ⟨st', hvisit, hflagged⟩
    · rw [hvisit]
      dsimp only
      rw [if_neg (by simp)]
      rcases allow_cases { st with entries := st.entries + 1 } search.clocks with
        hallow | ⟨st', hallow, hflagged⟩
      · rw [hallow]
        dsimp only
        rw [if_neg (by simp)]
        have hstart := adds_counted st (st.entries + 1) (st.checks + 1)
        -- an entry that is neither entered nor read adds nothing
        have hpassed := hstart.trans
          (ih { st with entries := st.entries + 1, checks := st.checks + 1 })
        cases entryRead with
        | failed => exact hpassed
        | untyped => exact hpassed
        | read =>
          cases node with
          | other => exact hpassed
          | dir readable children =>
            by_cases hskip : isSkipped name = true
            · simp only [entryHits, if_pos hskip]
              exact hpassed
            · simp only [entryHits, if_neg hskip, render_under]
              exact hstart.trans ((hdescend _ _ _).trans (ih _))
          | file file =>
            by_cases hselected : search.matcher.matchesPath search.toLowercase name = true
            · simp only [entryHits, if_pos hselected, render_under]
              exact hstart.trans ((scanFile_adds file _).trans (ih _))
            · simp only [entryHits, if_neg hselected]
              exact hpassed
      · rw [hallow]
        exact adds_of_flagged hflagged
    · rw [hvisit]
      exact adds_of_flagged hflagged

/-- **A directory adds the matching lines of the files that the walk reads in it.** -/
lemma scanDir_adds (left : Nat) (path : List Name) (node : Node) (st : Scan) :
    Adds st (scanDir search left path node st)
      ((walkedHits search left node).map (search.render path)) := by
  induction left generalizing path node st with
  | zero => exact adds_refl st
  | succ left ih =>
    cases node with
    | file file => exact adds_refl st
    | other => exact adds_refl st
    | dir readable entries =>
      cases readable with
      | false => exact adds_refl st
      | true => exact scanEntries_adds ih (sortedEntries entries) st

/-- The hits in what the walk reads. -/
def rootHits (search : Search) (root : Node) : List Hit :=
  match root with
  | .file file => hitsOf search file
  | root => walkedHits search (maxDepth + 1) root

lemma walk_adds (root : Node) (limit : Nat) :
    Adds (.new limit) (walk search root limit)
      ((rootHits search root).map (search.render search.base)) := by
  cases root with
  | file file => exact scanFile_adds file _
  | dir readable entries => exact scanDir_adds _ _ _ _
  | other => exact scanDir_adds _ _ _ _

/-- Without a note, the result is the matching lines of the files that the walk reads. -/
lemma found_of_no_notes {root : Node} {limit maxMatches maxLineBytes : Nat}
    (h : (walk search root limit).notes maxMatches maxLineBytes = []) :
    (walk search root limit).found = (rootHits search root).map (search.render search.base) := by
  rw [notes_eq_nil_iff] at h
  have hsound : (Scan.new limit).Sound := fun hstopped => by cases hstopped
  obtain ⟨-, hflagged | ⟨-, hfound⟩⟩ := @walk_adds search root limit hsound
  · exact absurd hflagged h
  · rw [hfound]
    rfl

end Directories

/-! ### What the walk reads -/

section Reached

variable {search : Search} {depth left : Nat} {node : Node} {path : List Name} {name : Name}
  {file : SearchedFile} {hit : Hit} {entries : List Entry} {readable : Bool}
  {below : Node → List Hit}

lemma mem_fileHits {number : Nat} {segments : List (List UInt8)} :
    hit ∈ fileHits search number segments ↔ hit.path = [] ∧ ∃ i segment,
      segments[i]? = some segment ∧ hit.number = number + i + 1 ∧
        fromUtf8 segment = some hit.line ∧
        search.matcher.matchesLine search.toLowercase hit.line = true := by
  induction segments generalizing number with
  | nil => simp [fileHits]
  | cons segment segments ih =>
    have hhead : hit ∈ (match fromUtf8 segment with
        | some line =>
          if search.matcher.matchesLine search.toLowercase line then
            [(⟨[], number + 1, line⟩ : Hit)]
          else []
        | none => []) ↔ hit.path = [] ∧ hit.number = number + 1 ∧
          fromUtf8 segment = some hit.line ∧
          search.matcher.matchesLine search.toLowercase hit.line = true := by
      obtain ⟨hitPath, hitNumber, hitLine⟩ := hit
      cases hline : fromUtf8 segment with
      | none => simp
      | some line =>
        by_cases hmatch : search.matcher.matchesLine search.toLowercase line = true
        · simp only [if_pos hmatch, List.mem_singleton, Hit.mk.injEq, Option.some.injEq]
          constructor
          · rintro ⟨rfl, rfl, rfl⟩
            exact ⟨rfl, rfl, rfl, hmatch⟩
          · rintro ⟨rfl, rfl, rfl, -⟩
            exact ⟨rfl, rfl, rfl⟩
        · simp only [if_neg hmatch, List.not_mem_nil, Option.some.injEq, false_iff]
          rintro ⟨-, -, rfl, h⟩
          exact hmatch h
    rw [fileHits, List.mem_append, hhead, ih]
    constructor
    · rintro (⟨hpath, hnumber, hline⟩ | ⟨hpath, i, other, hother, hnumber, hline⟩)
      · exact ⟨hpath, 0, segment, rfl, hnumber, hline⟩
      · exact ⟨hpath, i + 1, other, hother, by omega, hline⟩
    · rintro ⟨hpath, i, other, hother, hnumber, hline⟩
      cases i with
      | zero =>
        obtain rfl : segment = other := by simpa using hother
        exact .inl ⟨hpath, hnumber, hline⟩
      | succ i => exact .inr ⟨hpath, i, other, by simpa using hother, by omega, hline⟩

lemma mem_hitsOf : hit ∈ hitsOf search file ↔ hit.path = [] ∧ search.LineIn file hit := by
  rw [hitsOf, mem_fileHits, Search.LineIn]
  simp only [Nat.zero_add]

lemma selects_singleton :
    search.Selects [name] ↔ search.matcher.matchesPath search.toLowercase name = true := by
  simp [Search.Selects]

lemma selects_cons (hpath : path ≠ []) : search.Selects (name :: path) ↔ search.Selects path := by
  rw [Search.Selects, Search.Selects, List.getLast?_cons]
  cases hlast : path.getLast? with
  | none => exact absurd (List.getLast?_eq_none_iff.1 hlast) hpath
  | some last => simp

lemma mem_sortedEntries {entry : Entry} :
    entry ∈ sortedEntries entries ↔ entry ∈ entries ∧ entry.2.1 ≠ .failed := by
  rw [sortedEntries, List.mem_mergeSort, List.mem_filter, decide_eq_true_iff]

lemma mem_entryHits {entryRead : EntryRead} :
    hit ∈ entryHits search below (name, entryRead, node) ↔ entryRead = .read ∧
      ∃ inner : Hit, inner.under name = hit ∧
        (node.isDir = true ∧ isSkipped name = false ∧ inner ∈ below node ∨
          ∃ file, node = .file file ∧
            search.matcher.matchesPath search.toLowercase name = true ∧
            inner ∈ hitsOf search file) := by
  cases entryRead with
  | failed => simp [entryHits]
  | untyped => simp [entryHits]
  | read =>
    cases node with
    | other => simp [entryHits, Node.isDir]
    | dir readable children =>
      by_cases hskip : isSkipped name = true
      · simp [entryHits, hskip, Node.isDir]
      · simp [entryHits, hskip, Node.isDir, and_comm]
    | file file =>
      by_cases hselected : search.matcher.matchesPath search.toLowercase name = true
      · simp [entryHits, hselected, Node.isDir, and_comm]
      · simp [entryHits, hselected, Node.isDir]

/-- How a file is reached in a directory. -/
lemma exists_entry_of_reaches {overlooked : Bool}
    (h : Reaches depth (.dir readable entries) path file overlooked) :
    ∃ name entryRead node inner hidden, path = name :: inner ∧ (name, entryRead, node) ∈ entries ∧
      (node.isDir = true → isSkipped name = false) ∧
      Reaches (depth + 1) node inner file hidden ∧
      (overlooked = false ↔
        hidden = false ∧ depth ≤ maxDepth ∧ readable = true ∧ entryRead = .read) := by
  cases h with
  | @entry _ _ _ name entryRead node inner _ hidden hmem hskip h =>
    refine ⟨name, entryRead, node, inner, hidden, rfl, hmem, hskip, h, ?_⟩
    rw [Bool.or_eq_false_iff, Bool.or_eq_false_iff, Bool.or_eq_false_iff, decide_eq_false_iff_not,
      decide_eq_false_iff_not, not_lt, not_not, Bool.not_eq_false', and_assoc, and_assoc]

/-- What the walk does not overlook in a directory. -/
lemma reaches_dir_iff :
    Reaches depth (.dir readable entries) path file false ↔ depth ≤ maxDepth ∧ readable = true ∧
      ∃ name node inner, path = name :: inner ∧ (name, .read, node) ∈ entries ∧
        (node.isDir = true → isSkipped name = false) ∧
        Reaches (depth + 1) node inner file false := by
  constructor
  · intro h
    obtain ⟨name, entryRead, node, inner, hidden, hpath, hmem, hskip, hinner, hseen⟩ :=
      exists_entry_of_reaches h
    obtain ⟨rfl, hdepth, hreadable, rfl⟩ := hseen.1 rfl
    exact ⟨hdepth, hreadable, name, node, inner, hpath, hmem, hskip, hinner⟩
  · rintro ⟨hdepth, rfl, name, node, inner, rfl, hmem, hskip, h⟩
    have hentry := @Reaches.entry depth true entries name .read node inner file false hmem hskip h
    rwa [decide_eq_false (not_lt.2 hdepth), decide_eq_false (by simp)] at hentry

lemma path_ne_nil_of_reaches {overlooked : Bool} (hdir : node.isDir = true)
    (h : Reaches depth node path file overlooked) : path ≠ [] := by
  cases h with
  | file => cases hdir
  | entry => exact List.cons_ne_nil _ _

/-- **The hits of the walk in a directory are those in the files it does not overlook.** -/
lemma mem_walkedHits (hdepth : depth + left = maxDepth + 1) (hdir : node.isDir = true) :
    hit ∈ walkedHits search left node ↔
      ∃ file, Reaches depth node hit.path file false ∧ search.HitIn file hit := by
  induction left generalizing depth node hit with
  | zero =>
    cases node with
    | file file => cases hdir
    | other => cases hdir
    | dir readable entries =>
      simp only [walkedHits, List.not_mem_nil, reaches_dir_iff, false_iff]
      rintro ⟨file, ⟨hle, -⟩, -⟩
      omega
  | succ left ih =>
    cases node with
    | file file => cases hdir
    | other => cases hdir
    | dir readable entries =>
      cases readable with
      | false => simp [walkedHits, reaches_dir_iff]
      | true =>
        rw [walkedHits, List.mem_flatMap]
        constructor
        · rintro ⟨⟨name, entryRead, child⟩, hmem, hhit⟩
          rw [mem_sortedEntries] at hmem
          obtain ⟨rfl, inner, rfl, ⟨hchild, hskip, hinner⟩ | ⟨file, rfl, hselected, hinner⟩⟩ :=
            mem_entryHits.1 hhit
          · obtain ⟨file, hreaches, hselects, hline⟩ :=
              (ih (by omega : depth + 1 + left = maxDepth + 1) hchild).1 hinner
            refine ⟨file, reaches_dir_iff.2 ⟨by omega, rfl, name, child, _, rfl, hmem.1,
              fun _ => hskip, hreaches⟩, ?_, hline⟩
            exact (selects_cons (path_ne_nil_of_reaches hchild hreaches)).2 hselects
          · obtain ⟨hpath, hline⟩ := mem_hitsOf.1 hinner
            refine ⟨file, reaches_dir_iff.2 ⟨by omega, rfl, name, .file file, _, rfl, hmem.1,
              fun h => (by cases h), ?_⟩, ?_, hline⟩
            · rw [hpath]
              exact .file file
            · show search.Selects (name :: inner.path)
              rwa [hpath, selects_singleton]
        · rintro ⟨file, hreaches, hselects, hline⟩
          obtain ⟨-, -, name, child, innerPath, hpath, hmem, hskip, hinner⟩ :=
            reaches_dir_iff.1 hreaches
          refine ⟨(name, .read, child), mem_sortedEntries.2 ⟨hmem, by simp⟩, ?_⟩
          refine mem_entryHits.2 ⟨rfl, ⟨innerPath, hit.number, hit.line⟩, ?_, ?_⟩
          · rw [Hit.under, ← hpath]
          · cases child with
            | file child =>
              cases hinner with
              | file =>
                refine .inr ⟨file, rfl, ?_, mem_hitsOf.2 ⟨rfl, hline⟩⟩
                rwa [hpath, selects_singleton] at hselects
            | other => cases hinner
            | dir readable children =>
              refine .inl ⟨rfl, hskip rfl, ?_⟩
              refine (ih (by omega : depth + 1 + left = maxDepth + 1) rfl).2
                ⟨file, hinner, ?_, hline⟩
              rw [hpath] at hselects
              exact (selects_cons (path_ne_nil_of_reaches rfl hinner)).1 hselects

lemma mem_rootHits {root : Node} : hit ∈ rootHits search root ↔
    ∃ file, Reaches 0 root hit.path file false ∧ search.HitIn file hit := by
  cases root with
  | dir readable entries => exact mem_walkedHits (Nat.zero_add _) rfl
  | other => exact ⟨fun h => (by cases h), fun ⟨file, h, _⟩ => (by cases h)⟩
  | file file =>
    rw [rootHits, mem_hitsOf]
    constructor
    · rintro ⟨hpath, hline⟩
      refine ⟨file, hpath ▸ .file file, ?_, hline⟩
      rw [hpath]
      exact fun name h => (by cases h)
    · rintro ⟨file', h, -, hline⟩
      generalize hpath : hit.path = path at h
      cases h
      exact ⟨rfl, hline⟩

end Reached

/-! ### The order of the result -/

section Order

variable {search : Search} {depth : Nat} {node root : Node} {path : List Name} {name : Name}
  {file file' : SearchedFile} {hit : Hit} {entries : List Entry} {overlooked overlooked' : Bool}

lemma nameKey_injective : Function.Injective nameKey :=
  List.map_injective_iff.2 fun _ _ h => UInt8.toNat_inj.1 h

/-- The entries come in the order of their names. -/
lemma sortedEntries_pairwise (hnodup : (entries.map Prod.fst).Nodup) :
    (sortedEntries entries).Pairwise fun a b => nameKey a.1 < nameKey b.1 := by
  have hle : (sortedEntries entries).Pairwise fun a b => nameKey a.1 ≤ nameKey b.1 := by
    refine (List.pairwise_mergeSort ?_ ?_ _).imp fun h => of_decide_eq_true h
    · intro a b c hab hbc
      exact decide_eq_true ((of_decide_eq_true hab).trans (of_decide_eq_true hbc))
    · intro a b
      rw [Bool.or_eq_true, decide_eq_true_eq, decide_eq_true_eq]
      exact le_total _ _
  have hne : (sortedEntries entries).Pairwise fun a b => a.1 ≠ b.1 := by
    have hsublist : ((entries.filter fun entry => entry.2.1 ≠ .failed).map Prod.fst).Nodup :=
      hnodup.sublist (List.filter_sublist.map Prod.fst)
    rw [← List.pairwise_map (f := Prod.fst) (R := (· ≠ ·))]
    exact ((List.mergeSort_perm _ _).map Prod.fst).nodup_iff.2 hsublist
  exact (hle.and hne).imp fun h => lt_of_le_of_ne h.1 fun heq => h.2 (nameKey_injective heq)

lemma before_under {a b : Hit} (name : Name) (h : a.Before b) :
    (a.under name).Before (b.under name) := by
  rcases h with hpath | ⟨hpath, hnumber⟩
  · exact .inl (List.cons_lt_cons_iff.2 (.inr ⟨rfl, hpath⟩))
  · exact .inr ⟨congrArg (name :: ·) hpath, hnumber⟩

lemma fileHits_pairwise (number : Nat) (segments : List (List UInt8)) :
    (fileHits search number segments).Pairwise Hit.Before := by
  induction segments generalizing number with
  | nil => exact List.Pairwise.nil
  | cons segment segments ih =>
    rw [fileHits, List.pairwise_append]
    refine ⟨?_, ih (number + 1), fun a ha b hb => ?_⟩
    · split
      · split_ifs
        · exact List.pairwise_singleton _ _
        · exact List.Pairwise.nil
      · exact List.Pairwise.nil
    · obtain ⟨hpath, i, -, -, hnumber, -⟩ := mem_fileHits.1 hb
      have hfirst : a.path = [] ∧ a.number = number + 1 := by
        split at ha
        · split_ifs at ha
          · rw [List.mem_singleton.1 ha]
            exact ⟨rfl, rfl⟩
          · cases ha
        · cases ha
      exact .inr ⟨by rw [hfirst.1, hpath], by omega⟩

lemma entryHits_pairwise {below : Node → List Hit} {entryRead : EntryRead}
    (hbelow : (below node).Pairwise Hit.Before) :
    (entryHits search below (name, entryRead, node)).Pairwise Hit.Before := by
  have hunder : ∀ hits : List Hit, hits.Pairwise Hit.Before →
      (hits.map (Hit.under name)).Pairwise Hit.Before := fun hits hhits =>
    List.pairwise_map.2 (hhits.imp (before_under name))
  cases entryRead with
  | failed => exact List.Pairwise.nil
  | untyped => exact List.Pairwise.nil
  | read =>
    cases node with
    | other => exact List.Pairwise.nil
    | dir readable children =>
      rw [entryHits]
      split_ifs
      · exact List.Pairwise.nil
      · exact hunder _ hbelow
    | file file =>
      rw [entryHits]
      split_ifs
      · exact hunder _ (fileHits_pairwise _ _)
      · exact List.Pairwise.nil

/-- **The hits of the walk come in the order of their paths.** -/
lemma walkedHits_pairwise (left : Nat) (hdistinct : DistinctNames node) :
    (walkedHits search left node).Pairwise Hit.Before := by
  induction left generalizing node with
  | zero => exact List.Pairwise.nil
  | succ left ih =>
    cases hdistinct with
    | file => exact List.Pairwise.nil
    | other => exact List.Pairwise.nil
    | @dir readable entries hnodup hbelow =>
      cases readable with
      | false => exact List.Pairwise.nil
      | true =>
        rw [walkedHits, List.pairwise_flatMap]
        constructor
        · exact fun entry hmem =>
            entryHits_pairwise (ih (hbelow entry (mem_sortedEntries.1 hmem).1))
        · refine (sortedEntries_pairwise hnodup).imp ?_
          rintro ⟨first, firstRead, firstNode⟩ ⟨second, secondRead, secondNode⟩ hlt x hx y hy
          obtain ⟨-, x, rfl, -⟩ := mem_entryHits.1 hx
          obtain ⟨-, y, rfl, -⟩ := mem_entryHits.1 hy
          exact .inl (List.cons_lt_cons_iff.2 (.inl hlt))

lemma rootHits_pairwise (hdistinct : DistinctNames root) :
    (rootHits search root).Pairwise Hit.Before := by
  cases root with
  | file file => exact fileHits_pairwise _ _
  | dir readable entries => exact walkedHits_pairwise _ hdistinct
  | other => exact List.Pairwise.nil

/-- A path leads to one file, in one way. -/
lemma reaches_unique (hdistinct : DistinctNames node) (h : Reaches depth node path file overlooked)
    (h' : Reaches depth node path file' overlooked') : file = file' ∧ overlooked = overlooked' := by
  induction h generalizing file' overlooked' with
  | file file =>
    cases h'
    exact ⟨rfl, rfl⟩
  | @entry depth readable entries name entryRead node path file overlooked hmem hskip h ih =>
    cases hdistinct with
    | dir hnodup hbelow =>
      cases h' with
      | @entry _ _ _ _ entryRead' node' _ _ hidden' hmem' hskip' h' =>
        have heq := List.inj_on_of_nodup_map hnodup hmem hmem' rfl
        cases heq
        obtain ⟨rfl, rfl⟩ := ih (hbelow _ hmem) h'
        exact ⟨rfl, rfl⟩

lemma rootHits_nodup (hdistinct : DistinctNames root) : (rootHits search root).Nodup :=
  (rootHits_pairwise hdistinct).imp fun {a b} h heq => by
    subst heq
    rcases h with h | ⟨-, h⟩
    · exact lt_irrefl _ h
    · exact lt_irrefl _ h

/-- **When the result lists every matching line.** A search that ends without a note lists every
matching line below its root, once and in order, exactly if none is in a file that it overlooks:
below an unreadable or too deep directory, or behind an entry that cannot be read. -/
theorem grep_lists_iff {limit maxMatches maxLineBytes : Nat} (hdistinct : DistinctNames root)
    (hnotes : (walk search root limit).notes maxMatches maxLineBytes = []) :
    ListsAll search root (walk search root limit).found ↔
      ∀ hit file, Reaches 0 root hit.path file true → ¬ search.HitIn file hit := by
  rw [found_of_no_notes hnotes]
  constructor
  · rintro ⟨hits, hfound, -, hall⟩ hit file hreaches hin
    have hsubset : rootHits search root ⊆ hits := fun other hother => by
      obtain ⟨file, hreaches, hin⟩ := mem_rootHits.1 hother
      exact (hall other).2 ⟨file, false, hreaches, hin⟩
    have hlength := congrArg List.length hfound
    rw [List.length_map, List.length_map] at hlength
    have hperm : (rootHits search root).Perm hits :=
      (List.subperm_of_subset (rootHits_nodup hdistinct) hsubset).perm_of_length_le hlength.ge
    obtain ⟨file', hreaches', -⟩ :=
      mem_rootHits.1 (hperm.mem_iff.2 ((hall hit).2 ⟨file, true, hreaches, hin⟩))
    cases (reaches_unique hdistinct hreaches hreaches').2
  · intro hseen
    refine ⟨rootHits search root, rfl, rootHits_pairwise hdistinct, fun hit => ?_⟩
    rw [mem_rootHits]
    constructor
    · exact fun ⟨file, hreaches, hin⟩ => ⟨file, false, hreaches, hin⟩
    · rintro ⟨file, overlooked, hreaches, hin⟩
      cases overlooked with
      | false => exact ⟨file, hreaches, hin⟩
      | true => exact absurd hin (hseen hit file hreaches)

/-- The clocks of a call that nothing stops. -/
def calmClocks : Nat → Observed := fun _ => ⟨false, false, false, false, fun h => (by cases h)⟩

/-- A run on a tree at `/w`. -/
def runOn (root : Node) : Run := ⟨id, fun _ => .ok ([[0x77]], some root), false, calmClocks, 4096⟩

/-- A directory with one file, in which there is one line. -/
def oneLine (readable : Bool) : Node :=
  .dir readable [([0x66], .read, .file ⟨true, [[0x78, 0x0A]], none⟩)]

/-- The search for `x` in a tree. -/
def searchForX (root : Node) : Search :=
  (runOn root).search ⟨"x", false, false, none, none⟩ [[0x77]]

theorem grep_lists_iff_readable :
    ListsAll (searchForX (oneLine true)) (oneLine true)
        (walk (searchForX (oneLine true)) (oneLine true) 200).found ↔
      ∀ hit file, Reaches 0 (oneLine true) hit.path file true →
        ¬ (searchForX (oneLine true)).HitIn file hit :=
  @grep_lists_iff (searchForX (oneLine true)) (oneLine true) 200 200 4096
    (.dir (by decide) fun entry hmem => by
      rw [List.mem_singleton.1 hmem]
      exact .file _) (by decide +kernel)

/-- The line of a file in a directory that cannot be read matches, and there are no matches. -/
theorem unreadable_directory_unnoticed :
    execute (runOn (.dir true [([0x64], .read, oneLine false)])) ⟨"x", false, false, none, none⟩ =
        .succeeded "no matches\n" ∧
      ∃ hit file overlooked,
        Reaches 0 (.dir true [([0x64], .read, oneLine false)]) hit.path file overlooked ∧
          (searchForX (.dir true [([0x64], .read, oneLine false)])).HitIn file hit := by
  refine ⟨by decide +kernel, ⟨[[0x64], [0x66]], 1, "x\n"⟩, _, _,
    .entry List.mem_cons_self (fun _ => by decide +kernel)
      (.entry List.mem_cons_self (fun h => by cases h) (.file _)), ?_, 0, [0x78, 0x0A], rfl, rfl,
    by decide +kernel, by decide +kernel⟩
  exact fun name _ => rfl

end Order

end Grep

end Rupi
