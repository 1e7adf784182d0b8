import Rupi.Lib.Occurrence
import Rupi.Lib.Fallible
import Rupi.Core.Redact
import Rupi.Tools.Contract

/-!
The `edit` tool: an existing file is changed by exact match.

- `countOverlapping`: how often the text to find is met, without overlaps.
- `EditTool.executeInner`, `EditTool.reconcileInner`: the call on a file, and what a
  later look at the file says about it.
- `EditArguments.Kept`: what an applied edit promises; **`edit_kept_iff`**: it is kept
  exactly when no second match overlaps the one replaced and the replacement does not
  spell the text to find anew, `EditArguments.settles`.
- `grownEdit_applied_twice`: `a` replaced by `ab`, twice.
-/

namespace Rupi

open Rewrite Occurrence Fallible

/-! ### Matches -/

/-- `str::matches(..).count()`. -/
def matchCount (needle haystack : List Char) : Nat :=
  swaps ((literalPass needle []).pieces haystack)

/-- `count_overlapping`: the occurrences that do not overlap. -/
def countOverlapping (haystack needle : String) : Nat :=
  if needle = "" then 0 else matchCount needle.toList haystack.toList

/-- `str::replace`. -/
def replaceText (content find replace : String) : String :=
  String.ofList ((literalPass find.toList replace.toList).apply content.toList)

/-- `str::replace` cuts a text at the leftmost matches. -/
lemma leftmost_literalPass {needle : List Char} (hne : needle ≠ []) (mark : List Char) :
    Leftmost needle mark (literalPass needle mark).pieces := by
  have hpieces : (literalPass needle mark).pieces =
      (occurrenceScanner needle mark hne).pieces () 0 := by
    rw [literalPass, dif_neg hne]
    rfl
  have hskip : ∀ skip rest, (occurrenceScanner needle mark hne).pieces () skip.length
      (skip ++ rest) = (occurrenceScanner needle mark hne).pieces () 0 rest := by
    intro skip rest
    induction skip with
    | nil => rfl
    | cons c skip ih => exact ih
  refine ⟨hne, by rw [hpieces]; rfl, fun rest => ?_, fun c rest hpre => ?_⟩
  · obtain ⟨c, tail, rfl⟩ := List.exists_cons_of_ne_nil hne
    have hhit : (c :: tail).isPrefixOf ((c :: tail) ++ rest) = true :=
      List.isPrefixOf_iff_prefix.mpr (List.prefix_append _ _)
    have hrest := hskip tail rest
    rw [hpieces, List.cons_append, Scanner.pieces]
    rw [List.cons_append] at hhit
    simp only [occurrenceScanner, hhit, if_true] at hrest ⊢
    simpa [Hit.pieces, Hit.length, kept] using hrest
  · have hmiss : needle.isPrefixOf (c :: rest) = false := by
      rw [Bool.eq_false_iff, Ne, List.isPrefixOf_iff_prefix]
      exact hpre
    rw [hpieces, Scanner.pieces]
    simp only [occurrenceScanner, hmiss, Bool.false_eq_true, if_false]

/-! ### The arguments of an edit -/

/-- What `execute_inner` reads from a request. -/
structure EditArguments where
  path : String
  find : String
  replace : String
  replaceAll : Bool
  deriving DecidableEq, Repr

def EditArguments.ofRequest (request : ToolRequest) : Except ToolError EditArguments := do
  let path ← argStr request "path"
  let find ← argStr request "find"
  let replace ← argStr request "replace"
  pure ⟨path, find, replace, argBool request "replace_all" false⟩

/-- The file at the resolved path. -/
inductive TargetFile where
  | missing (error : String)
  | unreadable (error : String)
  | text (content : String)
  deriving DecidableEq, Repr

/-- `fs::read_to_string`. -/
def TargetFile.readToString : TargetFile → Except String String
  | missing error => .error error
  | unreadable error => .error error
  | text content => .ok content

/-- What a run meets outside of its request and its file: the resolution of the path,
shown as text; whether cancellation or the deadline is observed at each check; whether
the replacement file can be put in place. -/
structure EditRun where
  writePath : String → Except String String
  cancelledBeforeReading : Bool
  cancelledAfterReading : Bool
  cancelledBeforeWriting : Bool
  writeError : Option String
  cancelledAfterWriting : Bool
  elapsedMs : Nat

/-! ### Executing and reconciling -/

/-- `edit_failure_text`. -/
def editFailureText (original find path : String) : String :=
  let head := String.ofList ((trimChars ((textLines find).headD "").toList).take 40)
  let hint :=
    if original = "" then "the file is empty"
    else
      match (textLines original).findIdx? fun line =>
          trim line == String.ofList ((trimChars head.toList).take 20) with
      | some line =>
        "a similar line exists at line " ++ (line + 1).repr ++
          " — check indentation and whitespace"
      | none => "the exact text is absent — re-read the file before editing"
  "edit: 'find' does not match '" ++ path ++ "' (" ++ hint ++ ")"

/-- The matches are counted and replaced. The result is the outcome, and the content the
file has afterwards. -/
def EditTool.applyEdit (run : EditRun) (args : EditArguments) (resolved original : String) :
    Except ToolError ToolOutcome × String :=
  let hits := countOverlapping original args.find
  if hits = 0 then (.ok (.failed (editFailureText original args.find resolved)), original)
  else if 1 < hits ∧ args.replaceAll = false then
    (.ok (.failed ("edit: 'find' matches " ++ hits.repr ++ " times in '" ++ resolved ++
      "'; it must be unique. Add surrounding context, or set replace_all.")), original)
  else
    let updated := replaceText original args.find args.replace
    if run.cancelledBeforeWriting then
      (.ok (.failed "edit: cancelled before writing"), original)
    else
      match run.writeError with
      -- a failed write takes its temporary file away and leaves the target alone
      | some error => (.error (.afterStart ("edit: " ++ error)), original)
      | none =>
        if run.cancelledAfterWriting then
          (.ok (.unknown ("edit of '" ++ resolved ++ "' completed at the filesystem boundary but the caller was interrupted; inspect before retrying")), updated)
        else
          let verb :=
            if args.replaceAll ∧ 1 < hits then
              "replaced " ++ hits.repr ++ " occurrences in"
            else "edited"
          (.ok (.succeeded (verb ++ " '" ++ resolved ++ "' (" ++ original.utf8ByteSize.repr ++
            " -> " ++ updated.utf8ByteSize.repr ++ " bytes) [in " ++ run.elapsedMs.repr ++
            " ms]")), updated)

/-- `execute_inner`: the outcome, and the file afterwards. -/
def EditTool.executeInner (run : EditRun) (request : ToolRequest) (file : TargetFile) :
    Except ToolError ToolOutcome × TargetFile :=
  match EditArguments.ofRequest request with
  | .error error => (.error error, file)
  | .ok args =>
    if args.find = args.replace then
      (.ok (.failed "edit: 'find' and 'replace' are identical, so nothing would change"), file)
    else if run.cancelledBeforeReading then (.ok (.failed "edit: cancelled before reading"), file)
    else
      match run.writePath args.path with
      | .error error => (.error (.new error), file)
      | .ok resolved =>
        match file.readToString with
        | .error error =>
          (.error (.new ("edit: cannot read '" ++ resolved ++ "': " ++ error)), file)
        | .ok original =>
          if run.cancelledAfterReading then
            (.ok (.failed "edit: cancelled after reading"), file)
          else
            let result := EditTool.applyEdit run args resolved original
            (result.1, .text result.2)

/-- `reconcile_inner`. -/
def EditTool.reconcileInner (writePath : String → Except String String) (request : ToolRequest)
    (file : TargetFile) : Except ToolError ReconciliationStatus := do
  let path ← argStr request "path"
  let find ← argStr request "find"
  let replace ← argStr request "replace"
  match writePath path with
  | .error error => .error (.new error)
  | .ok _ =>
    match file with
    | .missing _ => .ok (.unmodified ("target file '" ++ path ++ "' does not exist"))
    | .unreadable error =>
      .ok (.requiresManualInspection ("cannot read target file '" ++ path ++ "': " ++ error))
    | .text content =>
      let hasReplace := containsText replace.toList content.toList
      let hasFind := containsText find.toList content.toList
      if hasReplace && !hasFind then
        .ok (.committed ("target file '" ++ path ++
          "' contains replacement text and no longer contains original text"))
      else if hasFind && !hasReplace then
        .ok (.unmodified ("target file '" ++ path ++
          "' contains original text and replacement is absent"))
      else
        .ok (.diverged ("target file '" ++ path ++ "' state is ambiguous (contains find: " ++
          toString hasFind ++ ", contains replace: " ++ toString hasReplace ++ ")"))

/-! ### What an applied edit promises -/

/-- The call changed nothing and says so. -/
def EditTool.Refused (file : TargetFile) (result : Except ToolError ToolOutcome × TargetFile) :
    Prop :=
  result.2 = file ∧ (∀ outcome, result.1 = .ok outcome → outcome.state = .failed) ∧
    ∀ error, result.1 = .error error → error.started = false

namespace EditArguments

/-- The promises of an edit that turned `content` into `updated`. -/
structure Kept (request : ToolRequest) (args : EditArguments) (content updated : String) :
    Prop where
  /-- Without `replace_all` one position matches, and the match there is replaced. -/
  once : args.replaceAll = false → ∃ i, StartsAt args.find.toList content.toList i ∧
    (∀ j, StartsAt args.find.toList content.toList j → j = i) ∧
    updated.toList = content.toList.take i ++
      (args.replace.toList ++ content.toList.drop (i + args.find.toList.length))
  /-- A replay of the request is refused. -/
  refused : ∀ run, EditTool.Refused (.text updated)
    (EditTool.executeInner run request (.text updated))
  /-- The debug assertions hold. -/
  hits : countOverlapping content args.find = 1 ∨ args.replaceAll = true
  gone : args.replaceAll = true → matchCount args.find.toList updated.toList = 0
  /-- The file before the edit is not taken for the file after it, nor the other way. -/
  before : ∀ writePath status,
    EditTool.reconcileInner writePath request (.text content) = .ok status →
      status.isCommitted = false
  after : ∀ writePath status,
    EditTool.reconcileInner writePath request (.text updated) = .ok status →
      status.isUnmodified = false

/-- No second match overlaps the only one, and the replacement does not spell the text
to find next to it. With `replace_all`, no replacement spells it with what stands between
the matches. -/
def settles (args : EditArguments) (content : String) : Bool :=
  let find := args.find.toList
  let replace := args.replace.toList
  let width := find.length - 1
  let between := gaps ((literalPass find replace).pieces content.toList)
  if args.replaceAll then
    !respells (containsText find) width replace (between.1.rtake width) between.2
  else
    let behind := (between.2.headD []).take width
    !containsText find (find.tail ++ behind) &&
      matchCount find (between.1.rtake width ++ (replace ++ behind)) != 1

end EditArguments

/-! ### Applied and refused edits -/

section Edit

variable {run : EditRun} {request : ToolRequest} {args : EditArguments}
  {content updated : String}

/-- The matches do not forbid the edit. -/
def EditArguments.Admits (args : EditArguments) (content : String) : Prop :=
  countOverlapping content args.find ≠ 0 ∧
    ¬ (1 < countOverlapping content args.find ∧ args.replaceAll = false)

/-- A call ends before the content is matched, or matches it. -/
lemma executeInner_cases (hargs : EditArguments.ofRequest request = .ok args) :
    (∃ text, EditTool.executeInner run request (.text content) =
      (.ok (.failed text), .text content)) ∨
    (∃ message, EditTool.executeInner run request (.text content) =
      (.error (.new message), .text content)) ∨
    (args.find ≠ args.replace ∧ ∃ resolved,
      EditTool.executeInner run request (.text content) =
        ((EditTool.applyEdit run args resolved content).1,
          .text (EditTool.applyEdit run args resolved content).2)) := by
  simp only [EditTool.executeInner, hargs]
  by_cases hsame : args.find = args.replace
  · exact .inl ⟨_, if_pos hsame⟩
  rw [if_neg hsame]
  by_cases hcancel : run.cancelledBeforeReading = true
  · exact .inl ⟨_, if_pos hcancel⟩
  rw [if_neg hcancel]
  cases run.writePath args.path with
  | error error => exact .inr (.inl ⟨error, rfl⟩)
  | ok resolved =>
    dsimp only [TargetFile.readToString]
    by_cases hread : run.cancelledAfterReading = true
    · exact .inl ⟨_, if_pos hread⟩
    · exact .inr (.inr ⟨hsame, resolved, if_neg hread⟩)

lemma state_of_failed {α : Type} {outcome : ToolOutcome} {text : String} {a b : α}
    (h : ((.ok (.failed text) : Except ToolError ToolOutcome), a) = (.ok outcome, b)) :
    outcome.state ≠ .succeeded := by
  rw [Prod.mk.injEq, Except.ok.injEq] at h
  rw [← h.1]
  exact ToolExecutionState.noConfusion

lemma applyEdit_succeeded {outcome : ToolOutcome} {resolved : String}
    (hrun : EditTool.applyEdit run args resolved content = (.ok outcome, updated))
    (hstate : outcome.state = .succeeded) :
    args.Admits content ∧ updated = replaceText content args.find args.replace := by
  rw [EditTool.applyEdit] at hrun
  dsimp only at hrun
  by_cases hnone : countOverlapping content args.find = 0
  · rw [if_pos hnone] at hrun
    exact absurd hstate (state_of_failed hrun)
  by_cases hmany : 1 < countOverlapping content args.find ∧ args.replaceAll = false
  · rw [if_neg hnone, if_pos hmany] at hrun
    exact absurd hstate (state_of_failed hrun)
  refine ⟨⟨hnone, hmany⟩, ?_⟩
  rw [if_neg hnone, if_neg hmany] at hrun
  by_cases hwrite : run.cancelledBeforeWriting = true
  · rw [if_pos hwrite] at hrun
    exact absurd hstate (state_of_failed hrun)
  rw [if_neg hwrite] at hrun
  cases herror : run.writeError with
  | some error => simp [herror] at hrun
  | none =>
    simp only [herror] at hrun
    split_ifs at hrun <;> exact (congrArg Prod.snd hrun).symm

/-- Matches that forbid an edit end it with a failure. -/
lemma applyEdit_of_not_admits (h : ¬ args.Admits content) (resolved : String) :
    ∃ text, EditTool.applyEdit run args resolved content = (.ok (.failed text), content) := by
  rw [EditTool.applyEdit]
  dsimp only
  by_cases hnone : countOverlapping content args.find = 0
  · exact ⟨_, if_pos hnone⟩
  · have hmany : 1 < countOverlapping content args.find ∧ args.replaceAll = false := by
      rw [EditArguments.Admits, not_and_not_right] at h
      exact h hnone
    rw [if_neg hnone]
    exact ⟨_, if_pos hmany⟩

/-- An edit that succeeds was admitted and replaced the matches. -/
lemma executeInner_succeeded {outcome : ToolOutcome}
    (hargs : EditArguments.ofRequest request = .ok args)
    (hrun : EditTool.executeInner run request (.text content) = (.ok outcome, .text updated))
    (hstate : outcome.state = .succeeded) :
    args.find ≠ args.replace ∧ args.Admits content ∧
      updated = replaceText content args.find args.replace := by
  rcases executeInner_cases hargs with ⟨text, h⟩ | ⟨message, h⟩ | ⟨hdiff, resolved, h⟩
  · rw [h] at hrun
    exact absurd hstate (state_of_failed hrun)
  · simp [h] at hrun
  · rw [h, Prod.mk.injEq, TargetFile.text.injEq] at hrun
    exact ⟨hdiff, applyEdit_succeeded (Prod.ext hrun.1 hrun.2) hstate⟩

/-- A request is refused on a content in every run exactly if its matches forbid it. -/
lemma refused_iff (hargs : EditArguments.ofRequest request = .ok args)
    (hdiff : args.find ≠ args.replace) :
    (∀ run, EditTool.Refused (.text content)
      (EditTool.executeInner run request (.text content))) ↔ ¬ args.Admits content := by
  constructor
  · rintro hrefused ⟨hsome, hone⟩
    -- the run that nothing interrupts applies the edit
    have hrun := hrefused ⟨fun path => .ok path, false, false, false, none, false, 0⟩
    simp only [EditTool.executeInner, hargs, if_neg hdiff, TargetFile.readToString,
      EditTool.applyEdit, if_neg hsome, if_neg hone, Bool.false_eq_true, if_false] at hrun
    have hfailed := hrun.2.1 _ rfl
    simp at hfailed
  · intro hforbidden run
    rcases executeInner_cases hargs with ⟨text, h⟩ | ⟨message, h⟩ | ⟨-, resolved, h⟩
    · rw [h]
      exact ⟨rfl, by simp, by simp⟩
    · rw [h]
      exact ⟨rfl, by simp, by simp [ToolError.new]⟩
    · obtain ⟨text, hfailed⟩ := applyEdit_of_not_admits hforbidden resolved
      rw [h, hfailed]
      exact ⟨rfl, by simp, by simp⟩

/-! ### What the counter and the substring tests see -/

lemma ne_nil_of_admits (h : args.Admits content) : args.find.toList ≠ [] := by
  intro hnil
  have hempty : args.find = "" := String.toList_eq_nil_iff.mp hnil
  exact h.1 (by rw [countOverlapping, if_pos hempty])

/-- The counter counts the matches that are replaced. -/
lemma countOverlapping_eq (hne : args.find.toList ≠ []) (content : String) :
    countOverlapping content args.find =
      swaps ((literalPass args.find.toList args.replace.toList).pieces content.toList) := by
  have hfind : args.find ≠ "" := fun hempty => hne (by rw [hempty]; rfl)
  rw [countOverlapping, if_neg hfind]
  exact (leftmost_literalPass hne []).swaps_congr (leftmost_literalPass hne _) _

lemma toList_replaceText (content find replace : String) :
    (replaceText content find replace).toList =
      output ((literalPass find.toList replace.toList).pieces content.toList) := by
  rw [replaceText, String.toList_ofList, Rewriting.apply]

/-- The content before the edit holds the text to find. -/
lemma find_occurs (h : args.Admits content) : args.find.toList <:+: content.toList := by
  have hne := ne_nil_of_admits h
  by_contra hword
  refine h.1 ?_
  rw [countOverlapping_eq hne]
  exact ((leftmost_literalPass hne _).swaps_eq_zero_iff _).mpr hword

/-- The content after the edit holds the replacement. -/
lemma replace_occurs (h : args.Admits content) :
    args.replace.toList <:+: (replaceText content args.find args.replace).toList := by
  have hne := ne_nil_of_admits h
  obtain ⟨n, hn⟩ := Nat.exists_eq_succ_of_ne_zero h.1
  rw [countOverlapping_eq hne] at hn
  obtain ⟨before, after, -, hcut, -⟩ := (leftmost_literalPass hne _).cut_of_swaps_succ hn
  rw [toList_replaceText, hcut, output_append, output_kept, output_cons]
  exact List.infix_append' _ _ _

/-- Reconciliation tells the two contents apart. -/
lemma reconcile_tells (hargs : EditArguments.ofRequest request = .ok args)
    (h : args.Admits content) (writePath : String → Except String String) :
    (∀ status, EditTool.reconcileInner writePath request (.text content) = .ok status →
      status.isCommitted = false) ∧
    ∀ status, EditTool.reconcileInner writePath request
        (.text (replaceText content args.find args.replace)) = .ok status →
      status.isUnmodified = false := by
  simp only [EditArguments.ofRequest, bind_eq_ok] at hargs
  obtain ⟨path, hpath, find, hfind, replace, hreplace, hargs⟩ := hargs
  obtain rfl := Except.ok.inj hargs
  simp only [EditTool.reconcileInner, hpath, hfind, hreplace, ok_bind]
  cases writePath path with
  | error error => simp
  | ok resolved =>
    have hbefore := containsText_iff.mpr (find_occurs h)
    have hafter := containsText_iff.mpr (replace_occurs h)
    simp only at hbefore hafter
    constructor
    · intro status hstatus
      simp only [hbefore, Bool.not_true, Bool.and_false, Bool.true_and, Bool.false_eq_true,
        if_false] at hstatus
      split_ifs at hstatus <;> obtain rfl := Except.ok.inj hstatus <;> rfl
    · intro status hstatus
      simp only [hafter, Bool.not_true, Bool.and_false, Bool.true_and, Bool.false_eq_true,
        if_false] at hstatus
      split_ifs at hstatus <;> obtain rfl := Except.ok.inj hstatus <;> rfl

/-! ### The condition -/

/-- Without `replace_all` the content divides at its only match. -/
lemma exists_single_match (h : args.Admits content) (hall : args.replaceAll = false) :
    ∃ before after, content.toList = before ++ (args.find.toList ++ after) ∧
      ¬ args.find.toList <:+: before ∧ ¬ args.find.toList <:+: after ∧
      (∀ i < before.length, ¬ StartsAt args.find.toList content.toList i) ∧
      (literalPass args.find.toList args.replace.toList).pieces content.toList =
        kept before ++ .swap args.find.toList args.replace.toList :: kept after := by
  have hne := ne_nil_of_admits h
  have hcutter := leftmost_literalPass hne args.replace.toList
  have hone : swaps ((literalPass args.find.toList args.replace.toList).pieces
      content.toList) = 0 + 1 := by
    have hsome := h.1
    have hfew := h.2
    rw [← countOverlapping_eq hne]
    simp only [hall, and_true, not_lt] at hfew
    omega
  obtain ⟨before, after, hcontent, hcut, hnone, hclear⟩ := hcutter.cut_of_swaps_succ hone
  rw [hcutter.swaps_eq_zero_iff] at hnone
  refine ⟨before, after, hcontent, ?_, hnone, hclear, ?_⟩
  · intro hword
    obtain ⟨i, hstart⟩ := infix_iff_startsAt.mp hword
    have hend := hstart.length_le hne
    have hpos := List.length_pos_of_ne_nil hne
    refine hclear i (by omega) ?_
    rw [hcontent]
    exact (startsAt_append_left _ hend).mpr hstart
  · rw [hcut, hcutter.cut_of_notInfix hnone]

/-- The only match is the only position exactly if no second one overlaps it. -/
lemma unique_start_iff {find text before after : List Char} (hne : find ≠ [])
    (htext : text = before ++ (find ++ after)) (hafter : ¬ find <:+: after)
    (hclear : ∀ i < before.length, ¬ StartsAt find text i) :
    (∀ j, StartsAt find text j → j = before.length) ↔
      containsText find (find.tail ++ after.take (find.length - 1)) = false := by
  obtain ⟨c, tail, rfl⟩ := List.exists_cons_of_ne_nil hne
  have hsecond : ∀ m, StartsAt (c :: tail) text (before.length + (m + 1)) ↔
      StartsAt (c :: tail) (tail ++ after) m := fun m => by
    rw [htext, startsAt_append_right]
    rfl
  rw [Bool.eq_false_iff, Ne, containsText_iff, List.tail_cons]
  constructor
  · intro hunique hword
    obtain ⟨m, hm⟩ := infix_iff_startsAt.mp ((infix_append_take hne tail after).mpr (.inl hword))
    have hj := hunique _ ((hsecond m).mpr hm)
    omega
  · intro hword j hj
    by_contra hother
    have hbehind : ¬ j < before.length := fun hlt => hclear j hlt hj
    obtain ⟨m, rfl⟩ : ∃ m, j = before.length + (m + 1) := ⟨j - before.length - 1, by omega⟩
    rcases (infix_append_take hne tail after).mp
      (infix_iff_startsAt.mpr ⟨m, (hsecond m).mp hj⟩) with hin | hin
    · exact hword hin
    · exact hafter hin

/-- The edit of a single match: its position is the only one, and the replay is refused,
exactly if the edit settles. -/
lemma settles_single_iff (hdiff : args.find ≠ args.replace)
    (hargs : EditArguments.ofRequest request = .ok args) (h : args.Admits content)
    (hall : args.replaceAll = false) :
    args.Kept request content (replaceText content args.find args.replace) ↔
      args.settles content = true := by
  have hne := ne_nil_of_admits h
  obtain ⟨before, after, hcontent, hbefore, hafter, hclear, hcut⟩ := exists_single_match h hall
  have hgaps : gaps ((literalPass args.find.toList args.replace.toList).pieces
      content.toList) = (before, [after]) := by
    have hrest : gaps (kept after : List (Rewrite.Piece Char)) = (after, []) := by
      have hkept := gaps_kept after ([] : List (Rewrite.Piece Char))
      rwa [List.append_nil, gaps, List.append_nil] at hkept
    rw [hcut, gaps_kept, gaps, hrest, List.append_nil]
  have hupdated : (replaceText content args.find args.replace).toList =
      before ++ (args.replace.toList ++ after) := by
    rw [toList_replaceText, hcut, output_append, output_kept, output_cons, output_kept]
    rfl
  have hcount : countOverlapping (replaceText content args.find args.replace) args.find =
      matchCount args.find.toList (before.rtake (args.find.toList.length - 1) ++
        (args.replace.toList ++ after.take (args.find.toList.length - 1))) := by
    have hfind : args.find ≠ "" := fun hempty => hne (by rw [hempty]; rfl)
    rw [countOverlapping, if_neg hfind, hupdated]
    exact (leftmost_literalPass hne []).swaps_window hbefore hafter
  have hsettles : args.settles content = true ↔
      containsText args.find.toList
        (args.find.toList.tail ++ after.take (args.find.toList.length - 1)) = false ∧
      countOverlapping (replaceText content args.find args.replace) args.find ≠ 1 := by
    rw [hcount]
    simp [EditArguments.settles, hall, hgaps]
  have hstart : StartsAt args.find.toList content.toList before.length := by
    rw [hcontent, StartsAt, List.drop_left]
    exact List.prefix_append _ _
  rw [hsettles, ← unique_start_iff hne hcontent hafter hclear]
  constructor
  · intro hkept
    obtain ⟨i, -, hunique, -⟩ := hkept.once hall
    refine ⟨fun j hj => (hunique j hj).trans (hunique _ hstart).symm, fun hagain => ?_⟩
    refine (refused_iff hargs hdiff).mp hkept.refused ⟨?_, ?_⟩ <;> rw [hagain] <;> simp
  · rintro ⟨hunique, hagain⟩
    refine ⟨fun _ => ⟨before.length, hstart, hunique, ?_⟩, ?_, .inl ?_, ?_,
      fun writePath => (reconcile_tells hargs h writePath).1,
      fun writePath => (reconcile_tells hargs h writePath).2⟩
    · rw [hupdated, hcontent]
      simp
    · rw [refused_iff hargs hdiff]
      rintro ⟨hsome, hfew⟩
      simp only [hall, and_true, not_lt] at hfew
      omega
    · have hfew := h.2
      have hsome := h.1
      simp only [hall, and_true, not_lt] at hfew
      omega
    · intro hall'
      simp [hall] at hall'

/-- The edit of every match: the text to find is gone exactly if the edit settles. -/
lemma settles_all_iff (hdiff : args.find ≠ args.replace)
    (hargs : EditArguments.ofRequest request = .ok args) (h : args.Admits content)
    (hall : args.replaceAll = true) :
    args.Kept request content (replaceText content args.find args.replace) ↔
      args.settles content = true := by
  have hne := ne_nil_of_admits h
  have hsettles : args.settles content = true ↔
      ¬ args.find.toList <:+: (replaceText content args.find args.replace).toList := by
    rw [toList_replaceText, (leftmost_literalPass hne _).infix_output_iff
      (fun _ => containsText_iff)]
    simp [EditArguments.settles, hall]
  have hgone : ¬ args.find.toList <:+: (replaceText content args.find args.replace).toList ↔
      matchCount args.find.toList (replaceText content args.find args.replace).toList = 0 :=
    ((leftmost_literalPass hne []).swaps_eq_zero_iff _).symm
  rw [hsettles, hgone]
  constructor
  · exact fun hkept => hkept.gone hall
  · intro hnone
    refine ⟨fun hone => ?_, ?_, .inr hall, fun _ => hnone,
      fun writePath => (reconcile_tells hargs h writePath).1,
      fun writePath => (reconcile_tells hargs h writePath).2⟩
    · simp [hall] at hone
    · rw [refused_iff hargs hdiff]
      rintro ⟨hsome, -⟩
      have hfind : args.find ≠ "" := fun hempty => hne (by rw [hempty]; rfl)
      rw [countOverlapping, if_neg hfind] at hsome
      exact hsome hnone

/-- **An edit that succeeds keeps its promises** exactly if no second match overlaps the
one it replaces and no replacement spells the text to find anew. -/
theorem edit_kept_iff {outcome : ToolOutcome}
    (hargs : EditArguments.ofRequest request = .ok args)
    (hrun : EditTool.executeInner run request (.text content) = (.ok outcome, .text updated))
    (hstate : outcome.state = .succeeded) :
    args.Kept request content updated ↔ args.settles content = true := by
  obtain ⟨hdiff, hadmits, rfl⟩ := executeInner_succeeded hargs hrun hstate
  cases hall : args.replaceAll with
  | false => exact settles_single_iff hdiff hargs hadmits hall
  | true => exact settles_all_iff hdiff hargs hadmits hall

end Edit

/-! ### A replacement that holds the text to find -/

section Grown

/-- Replace `a` by `ab`. -/
def grownRequest : ToolRequest where
  callId := "call-1"
  name := "edit"
  arguments := .object [("find", .string "a"), ("path", .string "f"), ("replace", .string "ab")]

/-- Replace `a` by `c`. -/
def plainRequest : ToolRequest where
  callId := "call-1"
  name := "edit"
  arguments := .object [("find", .string "a"), ("path", .string "f"), ("replace", .string "c")]

/-- A run that nothing interrupts. -/
def quietRun : EditRun := ⟨fun path => .ok path, false, false, false, none, false, 0⟩

/-- A single `a` replaced by `ab` is there to be replaced again: the replay of the
request succeeds. -/
theorem grownEdit_applied_twice :
    ¬ ∀ (run : EditRun) (request : ToolRequest) (args : EditArguments) (content updated : String)
      (outcome : ToolOutcome), EditArguments.ofRequest request = .ok args →
      EditTool.executeInner run request (.text content) = (.ok outcome, .text updated) →
      outcome.state = .succeeded → args.Kept request content updated := by
  intro hkept
  have hrun : EditTool.executeInner quietRun grownRequest (.text "a") =
      (.ok (.succeeded "edited 'f' (1 -> 2 bytes) [in 0 ms]"), .text "ab") := by decide
  have hgrown := hkept _ _ ⟨"f", "a", "ab", false⟩ _ _ _ (by decide) hrun rfl
  exact absurd (hgrown.refused quietRun).1 (by decide)

/-- The edit of `a` into `c` keeps its promises. -/
theorem edit_kept_iff_plain :
    EditArguments.Kept plainRequest ⟨"f", "a", "c", false⟩ "bab" "bcb" :=
  (@edit_kept_iff quietRun _ _ _ _ (.succeeded "edited 'f' (3 -> 3 bytes) [in 0 ms]")
    (by decide) (by decide) rfl).mpr (by decide)

end Grown

end Rupi
