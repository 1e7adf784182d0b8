import Rupi.Core.Text
import Rupi.Runtime.ToolOutcome
import Rupi.Tui.Line

/-!
The lines that one event of a session is rendered to.

- `formatBytes`, `formatDurationMs`, `formatTokens`: how much, how long, how many.
- `DiagnosticFilter.prints`: whether an event earns a line at a level of chattiness.
- `renderEvent`: the lines of an event, wrapped to the width of the surface.
- **`renderEvent_ne_nil`**: an event that is not hidden by an option has a line.
-/

namespace Rupi.Tui

/-- A number in decimal digits. -/
def decimal (n : ℕ) : List Char := n.repr.toList

/-- An integer in decimal digits. -/
def decimalInt (n : ℤ) : List Char := n.repr.toList

/-! ### Amounts -/

/-- A quotient rounded to the nearest integer, ties to the even one. -/
def roundHalfEven (num den : ℕ) : ℕ :=
  let quotient := num / den
  let twice := 2 * (num % den)
  if den < twice ∨ (twice = den ∧ quotient % 2 = 1) then quotient + 1 else quotient

/-- A number as a double, which keeps 53 binary digits. -/
def asDouble (n : ℕ) : ℕ :=
  let spare := n.log2 - 52
  roundHalfEven n (2 ^ spare) * 2 ^ spare

/-- `format_bytes`. -/
def formatBytes (bytes : ℕ) : List Char :=
  if bytes < 1024 then decimal bytes ++ " B".toList
  else
    let value := asDouble bytes
    let (scale, unit) :=
      if value < 1024 ^ 2 then (1024, "KiB".toList)
      else if value < 1024 ^ 3 then (1024 ^ 2, "MiB".toList)
      else (1024 ^ 3, "GiB".toList)
    if 10 * scale ≤ value then decimal (roundHalfEven value scale) ++ ' ' :: unit
    else
      let tenths := roundHalfEven (10 * value) scale
      decimal (tenths / 10) ++ '.' :: (decimal (tenths % 10) ++ ' ' :: unit)

/-- Two digits, a zero before a single one. -/
def twoDigits (n : ℕ) : List Char := (decimal n).leftpad 2 '0'

/-- `format_duration_ms`. -/
def formatDurationMs (ms : ℕ) : List Char :=
  let seconds := ms / 1000
  let minutes := seconds / 60
  if ms < 1000 then decimal ms ++ " ms".toList
  else if seconds < 60 then decimal seconds ++ '.' :: (decimal (ms % 1000 / 100) ++ " s".toList)
  else if minutes < 60 then decimal minutes ++ "m ".toList ++ twoDigits (seconds % 60) ++ ['s']
  else decimal (minutes / 60) ++ "h ".toList ++ twoDigits (minutes % 60) ++ ['m']

/-- `format_tokens`: a comma before each group of three digits behind the first. -/
def formatTokens (tokens : ℕ) : List Char :=
  let digits := decimal tokens
  digits.zipIdx.flatMap fun (c, index) =>
    if 0 < index ∧ (digits.length - index) % 3 = 0 then [',', c] else [c]

/-! ### Options -/

/-- `DiagnosticFilter`. -/
inductive DiagnosticFilter where
  | all
  | state
  | warnAndError
  | none
  deriving DecidableEq, Repr

/-- `TranscriptOptions`, as far as a rendered event depends on them. -/
structure TranscriptOptions where
  width : ℕ
  showReasoning : Bool
  collapseReasoning : Bool
  diagnostics : DiagnosticFilter
  deriving DecidableEq, Repr

/-- `is_streamed`. -/
def isStreamed : AgentEvent → Bool
  | .userMessage _ | .modelRequestStarted _ | .reasoningDelta _ | .assistantDelta _
  | .toolRequested _ | .toolStarted _ | .toolCompleted _ | .toolFailed _ | .toolUnknown _ => true
  | _ => false

/-- `routine_stream`. -/
def routineStream : AgentEvent → Bool
  | .toolFailed _ | .toolUnknown _ => false
  | .toolCompleted done => done.state = .succeeded
  | _ => true

namespace DiagnosticFilter

/-- `allows`. -/
def allows (filter : DiagnosticFilter) (level : DiagnosticLevel) : Bool :=
  match filter with
  | all => true
  | state | warnAndError => level = .warn || level = .error
  | none => false

/-- `shows`. -/
def shows (filter : DiagnosticFilter) : AgentEvent → Bool
  | .diagnostic level _ => filter.allows level
  | event =>
      match filter with
      | all => true
      | none | warnAndError => false
      | state =>
          match event with
          | .sessionEnded _ | .contextReduced _ | .modelRetry _ | .modelFailover _
          | .modelEpochStarted _ | .contextCompactionCompleted _ | .contextCompactionEpoch _
          | .contextSummary => true
          | _ => false

/-- `prints`. -/
def prints (filter : DiagnosticFilter) (event : AgentEvent) : Bool :=
  if isStreamed event then
    match filter with
    | none => false
    | all | state => true
    | warnAndError => !routineStream event
  else filter.shows event

end DiagnosticFilter

/-! ### Pieces of lines -/

/-- `SEPARATOR`. -/
def separator : List Char := " · ".toList

/-- `label`. -/
def label (name : List Char) : RenderLine :=
  RenderLine.empty.push ('[' :: (name ++ "] ".toList)) .muted

/-- `fact`. -/
def fact (role : Role) (text : List Char) (line : RenderLine) : RenderLine :=
  (if 1 < line.segments.length then line.push separator .muted else line).push text role

/-- A fact that is only there with its value. -/
def factOf {α : Type} (role : Role) (text : α → List Char) (value : Option α) (line : RenderLine) :
    RenderLine :=
  match value with
  | some value => fact role (text value) line
  | none => line

/-- A fact that is only there under a condition. -/
def factIf (condition : Bool) (role : Role) (text : List Char) (line : RenderLine) : RenderLine :=
  if condition then fact role text line else line

/-- `reasoning_role`. -/
def reasoningRole : ReasoningProvenance → Role
  | .native => .reasoningNative
  | .providerSummary => .reasoningProviderSummary
  | .declared => .reasoningDeclared
  | .reconstructed => .reasoningReconstructed

/-- `ReasoningProvenance::label`. -/
def provenanceLabel : ReasoningProvenance → List Char
  | .native => "reasoning".toList
  | .providerSummary => "provider summary".toList
  | .declared => "declared rationale".toList
  | .reconstructed => "reconstructed rationale".toList

/-- `ReasoningProvenance::as_str`. -/
def provenanceText : ReasoningProvenance → List Char
  | .native => "native".toList
  | .providerSummary => "provider_summary".toList
  | .declared => "declared".toList
  | .reconstructed => "reconstructed".toList

/-- `reasoning_label`. -/
def reasoningLabel (provenance : ReasoningProvenance) : List Char :=
  '[' :: (provenanceLabel provenance ++ "] ".toList)

/-- `ModelFailureKind::as_str`. -/
def failureText : ModelFailureKind → List Char
  | .transport => "transport".toList
  | .timeout => "timeout".toList
  | .rateLimited => "rate_limited".toList
  | .providerUnavailable => "provider_unavailable".toList
  | .authentication => "authentication".toList
  | .protocol => "protocol".toList
  | .contextOverflow => "context_overflow".toList
  | .semantic => "semantic".toList
  | .cancelled => "cancelled".toList

/-- `ContextLevel::as_str`. -/
def levelText : ContextLevel → List Char
  | .l0Payload => "L0 payload reduction".toList
  | .l1Ordinary => "L1 ordinary compaction".toList
  | .l2Phase => "L2 phase compaction".toList
  | .l3Checkpoint => "L3 checkpoint/reset".toList

/-- A capability gap, as it is displayed. -/
def gapText : CapabilityGap → List Char
  | .text => "text input".toList
  | .images => "image input".toList
  | .tools => "tool calling".toList
  | .contextWindow required available =>
      "context window ".toList ++ decimal available ++ " < required ".toList ++ decimal required

/-- `epoch_reason`. -/
def epochReason : EpochReason → List Char
  | .initial => "initial".toList
  | .manualSwitch => "manual switch".toList
  | .automaticFailover => "automatic failover".toList
  | .manualSwitchBack => "manual switch back".toList

/-- `reduction_reason`. -/
def reductionReason : ReductionReason → List Char
  | .oversizedToolOutput limit => "tool output over ".toList ++ formatBytes limit
  | .recentTargetExceeded target =>
      "recent window over ".toList ++ formatTokens target ++ " tok".toList
  | .externalContextTooLarge limit => "external context over ".toList ++ formatBytes limit
  | .userRequested => "user requested".toList

/-- Texts joined by a separator. -/
def joinTexts (between : List Char) (texts : List (List Char)) : List Char :=
  between.intercalate texts

/-- `capability_facts`. -/
def capabilityFacts (capabilities : ModelCapabilities) (line : RenderLine) : RenderLine :=
  let inputs := (if capabilities.text then ["text".toList] else []) ++
    (if capabilities.images then ["images".toList] else []) ++
    (if capabilities.tools then ["tools".toList] else [])
  let line := fact .metaFact ("ctx ".toList ++ formatTokens capabilities.contextWindow) line
  let line := fact .metaFact (joinTexts ['+'] inputs) line
  match capabilities.exposedReasoning with
  | .none => line
  | .native => fact .reasoningNative "reasoning: native".toList line
  | .providerSummary => fact .reasoningProviderSummary "reasoning: provider summary".toList line
  | .declared => fact .reasoningDeclared "reasoning: declared".toList line

/-- `escape_control`: the control characters of ASCII are spelled out. -/
def escapeControl (text : List Char) : List Char :=
  text.flatMap fun c =>
    if c = '\n' then "\\n".toList
    else if c = '\r' then "\\r".toList
    else if c = '\t' then "\\t".toList
    else if c.toNat < 0x20 ∨ c.toNat = 0x7f then
      "\\u\x7b".toList ++ Nat.toDigits 16 c.toNat ++ ['\x7d']
    else [c]

/-- `is_quoted`: the same quote, in bytes, at both ends. -/
def isQuoted (token : List Char) : Bool :=
  match token with
  | first :: _ :: _ => (first = '"' || first = '\'') && token.getLast? = some first
  | _ => false

/-- `strip_quotes`. -/
def stripQuotes (token : List Char) : List Char := if isQuoted token then token.tail.dropLast else token

/-- `is_path_shape`: a separator anywhere is enough, so one in front is. -/
def isPathShape (token : List Char) : Bool :=
  let isQuote : Char → Bool := fun c => c = '"' || c = '\''
  let trimmed := stripQuotes ((token.dropWhile isQuote).rdropWhile isQuote)
  !token.isEmpty && (trimmed == ['.'] || trimmed == ['.', '.'] || trimmed == ['~'] ||
    trimmed.contains '/' || trimmed.contains '\\')

/-- `argument_text`. -/
def argumentText : Value → List Char
  | .string text => text.toList
  | value => value.print

/-- `MAX_ARGUMENT_COLUMNS`. -/
def maxArgumentColumns : ℕ := 60

/-- `display_argument`. -/
def displayArgument (text : List Char) : List Char := truncate (escapeControl text) maxArgumentColumns

/-- `push_arguments`. -/
def pushArguments (arguments : Value) (line : RenderLine) : RenderLine :=
  match arguments with
  | .object fields =>
      fields.foldl (fun line (key, value) =>
        let text := displayArgument (argumentText value)
        let role := match value with
          | .string _ => if isPathShape text then Role.path else .argument
          | _ => .argument
        ((line.push [' '] .muted).push (key.toList ++ ['=']) .metaFact).push text role) line
  | other => (line.push [' '] .muted).push (displayArgument (argumentText other)) .argument

/-- `tool_request_line`. -/
def toolRequestLine (name : List Char) (arguments : Value) (readOnly : Bool) : RenderLine :=
  let line := pushArguments arguments ((label "tool".toList).push name .operation)
  if readOnly then fact .metaFact "read-only".toList line
  else fact .stateUnknown "mutating".toList line

/-- `wrap_lines`. -/
def wrapLines (lines : List RenderLine) (options : TranscriptOptions) : List RenderLine :=
  if options.width = 0 then lines
  else
    let decoration := if minColumn ≤ options.width then NarrowDecoration.keep else .strip
    lines.flatMap fun line =>
      if line.width ≤ options.width then [line] else line.wrapped options.width decoration

lemma wrapLines_ne_nil {lines : List RenderLine} (h : lines ≠ []) (options : TranscriptOptions) :
    wrapLines lines options ≠ [] := by
  obtain ⟨line, rest, rfl⟩ := List.exists_cons_of_ne_nil h
  by_cases hwidth : options.width = 0
  · rw [wrapLines, if_pos hwidth]
    exact h
  · rw [wrapLines, if_neg hwidth]
    dsimp only
    rw [List.flatMap_cons]
    refine List.append_ne_nil_of_left_ne_nil ?_ _
    by_cases hfits : line.width ≤ options.width
    · rw [if_pos hfits]
      exact List.cons_ne_nil _ _
    · rw [if_neg hfits]
      exact wrapped_ne_nil _ _ _

/-! ### Events -/

/-- The label, the text and the role of a diagnostic of a level. -/
def levelLabel : DiagnosticLevel → List Char × Role
  | .info => ("info".toList, .info)
  | .warn => ("warn".toList, .warning)
  | .error => ("error".toList, .error)

/-- The lines of `render_event` before they are wrapped. -/
def eventLines (event : AgentEvent) (options : TranscriptOptions) : List RenderLine :=
  match event with
  | .sessionStarted e =>
      let line := (label "session".toList).push e.model.asKey.toList .operation
      let line := capabilityFacts e.capabilities (fact .path e.workingDir.toList line)
      [factIf e.resumed .metaFact "resumed".toList line]
  | .userMessage e =>
      let line := (RenderLine.empty.push "> ".toList .prompt).push e.text.toList .userText
      [factIf (0 < e.attachments) .metaFact (decimal e.attachments ++ " attachment(s)".toList) line]
  | .modelRequestStarted e =>
      let line := fact .metaFact ("epoch ".toList ++ decimal e.epoch) (label "request".toList)
      let line := (line.push separator .muted).push e.model.asKey.toList .operation
      let line := fact .metaFact (decimal e.messageCount ++ " msg".toList) line
      let line := fact .metaFact ('~' :: (formatTokens e.contextTokensEst ++ " tok est".toList)) line
      [fact .metaFact (decimal e.toolsExposed ++ " tools".toList) line]
  | .reasoningDelta e =>
      if options.showReasoning then
        let line := RenderLine.empty.push (reasoningLabel e.provenance) .muted
        let body := if options.collapseReasoning then
          "collapsed (".toList ++ decimal e.text.length ++ " chars, chunk ".toList ++
            decimal e.chunkIndex ++ [')']
        else e.text.toList
        [line.push body (reasoningRole e.provenance)]
      else []
  | .assistantDelta e => [RenderLine.ofText e.text.toList .assistant]
  | .modelRequestCompleted e =>
      let line := (label "model".toList).push
        ((e.finishReason.map String.toList).getD "no finish reason".toList) .metaFact
      let line := factOf .metaFact (fun n => "in ".toList ++ decimal n) e.inputTokens line
      let line := factOf .metaFact (fun n => "out ".toList ++ decimal n) e.outputTokens line
      let line := fact .metaFact (formatDurationMs e.durationMs) line
      let line := factIf (0 < e.toolCalls) .metaFact
        (decimal e.toolCalls ++ " tool call(s)".toList) line
      let line := factOf .metaFact (fun provenance => "reasoning: ".toList ++
        provenanceText provenance) e.reasoningProvenance line
      [factIf (e.reasoningProvenance = some .reconstructed) .reasoningReconstructed
        "inference, not emitted thought".toList line]
  | .modelRetry e =>
      let line := (label "retry".toList).push
        (decimal e.attempt ++ " of ".toList ++ decimal e.maxAttempts) .rare
      let line := (line.push separator .muted).push (failureText e.kind) .warning
      let line := factOf .metaFact (fun after => "in ".toList ++ formatDurationMs after)
        e.retryAfterMs line
      [factIf e.willFailover .rare "next: backup model".toList line]
  | .modelFailover e =>
      let line := (label "failover".toList).push
        (e.source.asKey.toList ++ " → ".toList ++ e.target.asKey.toList) .rare
      let line := (line.push separator .muted).push (failureText e.kind) .warning
      let line := factIf (!e.gaps.isEmpty) .stateUnknown
        (joinTexts ", ".toList (e.gaps.map gapText)) line
      [factIf e.compacted .metaFact "context rebudgeted".toList line]
  | .modelEpochStarted e =>
      let line := fact .metaFact (decimal e.epoch) (label "epoch".toList)
      let line := (line.push separator .muted).push e.model.asKey.toList .operation
      [capabilityFacts e.capabilities (fact .metaFact (epochReason e.reason) line)]
  | .toolRequested e => [toolRequestLine e.name.toList e.arguments e.readOnly]
  | .toolStarted e => [(label "running".toList).push e.name.toList .operation]
  | .toolCompleted e =>
      let line := ((label "tool ok".toList).push e.name.toList .operation).push separator .muted
      let line := fact .metaFact (formatDurationMs e.durationMs)
        (line.push e.state.tagText.toList .stateOk)
      let line := factOf .metaFact (fun status => "exit ".toList ++ decimalInt status) e.status line
      let line := fact .metaFact (formatBytes e.visibleBytes ++ " visible".toList) line
      [if e.reduced then
        factOf .path (fun blob => blob.recoveryRef.toList) e.blob
          (fact .warning "reduced".toList line)
      else line]
  | .toolFailed e =>
      let line := ((label "tool failed".toList).push e.name.toList .operation).push separator .muted
      let line := fact .metaFact (formatDurationMs e.durationMs) (line.push e.message.toList .error)
      [factOf .metaFact (fun status => "exit ".toList ++ decimalInt status) e.status line]
  | .toolUnknown e =>
      let name := if e.mutating then "needs check".toList else "unknown".toList
      let line := ((label name).push e.name.toList .operation).push separator .muted
      [factIf e.mutating .rare "may have changed state; not replayed".toList
        (line.push e.why.toList .stateUnknown)]
  | .externalContextRetrieved e =>
      let line := (label "external".toList).push e.source.resourceId.toList .path
      let line := fact .metaFact e.source.provider.toList line
      let line := fact .metaFact e.source.provenance.toList line
      let line := factOf .metaFact String.toList e.citation line
      let line := ["source_url", "source_document", "page"].foldl (fun line key =>
        factOf .metaFact String.toList (e.metadata.lookup key) line) line
      let line := fact .metaFact (formatBytes e.bytes) line
      [fact .metaFact (if e.inline then "inline".toList else "reference".toList) line]
  | .contextReduced e =>
      let line := fact .metaFact (reductionReason e.reason) (label "reduced".toList)
      let line := fact .metaFact
        (formatBytes e.originalBytes ++ " → ".toList ++ formatBytes e.visibleBytes) line
      [match e.recoveryRef with
        | some reference => fact .path ("recover ".toList ++ reference.toList) line
        | none => fact .stateUnknown "not recoverable".toList line]
  | .contextSummary =>
      [fact .muted "introduced by compaction".toList
        (RenderLine.empty.push "summary".toList .metaFact)]
  | .contextCompactionStarted e =>
      let line := ((label "compact".toList).push separator .muted).push (levelText e.level) .metaFact
      [fact .muted e.reason.toList line]
  | .contextCompactionCompleted e =>
      let line := ((label "compact".toList).push separator .muted).push (levelText e.level) .metaFact
      let line := fact .metaFact ("retained ".toList ++ decimal e.retainedMessages ++
        " removed ".toList ++ decimal e.removedMessages) line
      [fact .metaFact ("context epoch ".toList ++ decimal e.contextEpoch) line]
  | .contextCompactionEpoch e =>
      let line := fact .metaFact ("context epoch ".toList ++ decimal e.contextEpoch)
        (label "compact".toList)
      let line := fact .metaFact ("replaced ".toList ++ decimal e.replacesFrom ++ "..".toList ++
        decimal e.replacesThrough) line
      let summary := ((e.summary.map BlobRef.recoveryRef).getD "in context").toList
      [fact .muted "canonical trace intact".toList
        (fact .path ("summary ".toList ++ summary) line)]
  | .checkpointCreated e =>
      let line := fact .metaFact e.checkpointId.toList (label "checkpoint".toList)
      let line := fact .metaFact (decimal e.summarizedEvents ++ " events".toList) line
      [fact .path e.path.toList line]
  | .turnCompleted status durationMs =>
      let (text, role) := match status with
        | .completed => ("completed".toList, Role.stateOk)
        | .cancelled => ("cancelled".toList, .muted)
        | .budgetExhausted => ("budget exhausted".toList, .stateFailed)
        | .failed kind => (failureText kind, .stateFailed)
      [fact .metaFact (formatDurationMs durationMs) ((label "turn".toList).push text role)]
  | .diagnostic level message =>
      if options.diagnostics.allows level then
        [(label (levelLabel level).1).push message.toList (levelLabel level).2]
      else []
  | .sessionEnded reason =>
      let line := label "session end".toList
      [match reason with
        | .userExit => line.push "user exit".toList .muted
        | .restart => line.push "restart".toList .muted
        | .fatal message =>
            ((line.push "fatal".toList .error).push separator .muted).push message.toList .error
        | .interrupted message =>
            ((line.push "interrupted".toList .warning).push separator .muted).push message.toList
              .warning]

/-- `render_event`. -/
def renderEvent (event : AgentEvent) (options : TranscriptOptions) : List RenderLine :=
  wrapLines (eventLines event options) options

/-- An event that no option hides. -/
def Visible (options : TranscriptOptions) : AgentEvent → Prop
  | .reasoningDelta _ => options.showReasoning = true
  | .diagnostic level _ => options.diagnostics.allows level = true
  | _ => True

/-- **An event that is not hidden has a line.** -/
theorem renderEvent_ne_nil {event : AgentEvent} {options : TranscriptOptions}
    (h : Visible options event) : renderEvent event options ≠ [] := by
  refine wrapLines_ne_nil ?_ options
  cases event with
  | reasoningDelta e =>
    have hshown : options.showReasoning = true := h
    rw [eventLines, if_pos hshown]
    exact List.cons_ne_nil _ _
  | diagnostic level message =>
    have hallowed : options.diagnostics.allows level = true := h
    rw [eventLines, if_pos hallowed]
    exact List.cons_ne_nil _ _
  | _ => exact List.cons_ne_nil _ _

end Rupi.Tui
