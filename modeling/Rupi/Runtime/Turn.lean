import Rupi.Runtime.Batch

/-!
One user turn.

- `ActiveTurn.exposedTools`, `ActiveTurn.activeModel`: what the active model is shown.
- `ActiveTurn.sendRequest`: one request, streamed.
- `ActiveTurn.recover`: what the failover policy decides, and a takeover.
- `ActiveTurn.attempt`: one model request, with retries and at most one takeover.
- `ActiveTurn.recoverPriorContext`: history in front of the turn is summarized once more.
- `ActiveTurn.observeProgress`: the progress boundary.
- `ActiveTurn.rounds`, `ActiveTurn.runTurn`: the loop over requests and tool calls, and the turn
  around it.
-/

namespace Rupi

open Attempt

/-! ### Failures -/

/-- `TurnFailure`; `outOfFuel` stands for a loop that the model gave up. -/
inductive TurnFailure where
  | cancelled
  | providerOverflow (failure : RequestFailure)
  | outputTruncated (failure : RequestFailure) (actual requested : ℕ) (surfaceOutput : Bool)
  | fatal (failure : RequestFailure)
  | sink (error : TurnError)
  | outOfFuel

namespace TurnFailure

/-- `TurnFailure::from`, of an error of the loop. -/
def ofTurn : TurnError → TurnFailure
  | .sink message => sink (.sink message)
  | .refused message => fatal (.new .protocol .preRequest message)

/-- `TurnFailure::from`, of a request that is not sent. -/
def ofRequest : RequestError → TurnFailure
  | .unavailable reason => fatal (.new .semantic .preRequest reason)
  | .aborted _ => fatal (.new .contextOverflow .preRequest "context refused the request")
  | .turn error => ofTurn error

end TurnFailure

namespace CompletionUsage

/-- `stopped_at_output_limit`. -/
def stoppedAtOutputLimit (usage : CompletionUsage) : Bool :=
  usage.finishReason = some "length" || usage.finishReason = some "max_tokens"

/-- `completion_failure`. -/
def failure (usage : CompletionUsage) (produced committed : Bool) : Option RequestFailure :=
  if usage.stoppedAtOutputLimit then
    let stopped := RequestFailure.new .semantic .normalizing
      "provider stopped at its output limit before completing the response"
    some { stopped.withPartialOutput committed with detail := usage.finishReason }
  else if usage.certain then none
  else
    let kind : ModelFailureKind := if produced then .semantic else .protocol
    some ((RequestFailure.new kind .streaming
      "the response stream ended without a definitive completion signal").withPartialOutput
        committed)

end CompletionUsage

/-- The kind of a failure, as it is displayed. -/
def ModelFailureKind.display : ModelFailureKind → String
  | transport => "transport"
  | timeout => "timeout"
  | rateLimited => "rate_limited"
  | providerUnavailable => "provider_unavailable"
  | authentication => "authentication"
  | protocol => "protocol"
  | contextOverflow => "context_overflow"
  | semantic => "semantic"
  | cancelled => "cancelled"

/-- `RequestReplaySafety::as_str`. -/
def RequestReplaySafety.display : RequestReplaySafety → String
  | safe => "safe"
  | ambiguousPostBoundary => "ambiguous_post_boundary"
  | committedOutput => "committed_output"

/-- `requires_safe_boundary`. -/
def ContextLevel.requiresSafeBoundary (level : ContextLevel) : Bool :=
  level matches .l1Ordinary | .l2Phase | .l3Checkpoint

/-- `Response`. -/
structure Response where
  epoch : ℕ
  text : Option String
  content : List ContentBlock
  calls : List ToolCallBlock
  rejectedCalls : List (ToolCallId × String)
  completion : ModelRequestCompleted

namespace ActiveTurn

variable (around : Surroundings) (turnId : TurnId)

/-! ### The active model -/

/-- `progress_tool_is_exposed`. -/
def progressToolIsExposed (t : ActiveTurn) (registry : ToolRegistry) (name : String) : Bool :=
  if t.boundaryActive then
    match registry.metadataFor name with
    | some metadata => !metadata.readOnly &&
        (around.progressToolNames.isEmpty || around.progressToolNames.contains name)
    | none => false
  else true

/-- `exposed_tools_for`. -/
def exposedTools (t : ActiveTurn) (registry : ToolRegistry) (capabilities : ModelCapabilities) :
    List ToolSpec :=
  if !t.toolsEnabled || !capabilities.tools then []
  else
    let mayApproveMutations := t.approvalAvailable || around.autoApprovesMutating
    registry.specs.filter fun spec =>
      t.progressToolIsExposed around registry spec.name &&
        (mayApproveMutations || registry.isReadOnly spec.name)

/-- An attached model as `assemble_request_for` sees it. -/
def backupFor (t : ActiveTurn) (registry : ToolRegistry) (attached : AttachedModel) : Backup where
  contextWindow := attached.capabilities.contextWindow
  maxOutputTokens := attached.capabilities.maxOutputTokens
  tools := t.exposedTools around registry attached.capabilities
  system := around.system

/-- `provider`: the backup where it is the active model, or else the primary. -/
def provider (t : ActiveTurn) : AttachedModel :=
  match around.backup with
  | some backup => if backup.model = t.loop.activeModel then backup else around.primary
  | none => around.primary

/-- The active model, with what it is shown. -/
def activeModel (t : ActiveTurn) (registry : ToolRegistry) : Backup :=
  t.backupFor around registry (t.provider around)

/-- `effective_progress_tools`. -/
def effectiveProgressTools (t : ActiveTurn) (registry : ToolRegistry) : List String :=
  (t.activeModel around registry).tools.map (·.name)

/-- What `build_request` asks beside the loop, at this look. -/
def requestRules (t : ActiveTurn) (registry : ToolRegistry) : RequestRules where
  provider := t.activeModel around registry
  policy := around.policy t.looks
  warning := around.warning t.looks
  boundaryBlocked := t.boundaryActive && t.toolsEnabled &&
    (t.effectiveProgressTools around registry).isEmpty
  summarizes := around.summarizes
  autoCheckpoint := around.autoCheckpoint
  synthesizeCapsule := around.synthesizeCapsule
  sinceLastCompactionMs := around.sinceLastCompactionMs t.looks

/-- `build_request`, with the model that the request goes to. -/
def buildRequest : Attempt ActiveTurn TurnFailure (Backup × BudgetedRequest) := do
  let registry ← ask around.registry
  let t ← get
  let rules := t.requestRules around registry
  let (historyStart, request) ← (onLoop
    (TurnLoop.buildRequest around.env rules turnId t.historyStart)).mapError TurnFailure.ofRequest
  modify fun t => { t with historyStart := historyStart, looks := t.looks + 1 }
  pure (rules.provider, request)

/-! ### One request -/

/-- A count of the trace. -/
def count (n : ℕ) (error : String) : Attempt ActiveTurn TurnFailure ℕ :=
  ofExcept ((asU32 n error).mapError .ofTurn)

/-- The request goes out, and the response comes in. A response over a limit sets the token. -/
def sendRequest (provider : Backup) (request : BudgetedRequest) :
    Attempt ActiveTurn TurnFailure (Collector × Streamed) := do
  let messages ← count request.request.messages.length
    "model message count exceeds durable limit"
  let tools ← count request.request.tools.length "tool-spec count exceeds durable limit"
  let t ← get
  let _ ← emit around (some turnId) (.modelRequestStarted
    ⟨t.loop.epochIndex, t.loop.activeModel, messages, estimateTokens request.request, tools⟩) none
  let stream ← ask around.stream
  act (.asked provider request)
  let streamed := stream t.loop.activeModel request
  let t ← get
  let collector := (Collector.new t.loop).collect around.env turnId streamed.irreversible
    streamed.arrivals
  modify fun t =>
    { t with
      loop := collector.loop
      cancelled := t.cancelled || collector.error.isSome }
  pure (collector, streamed)

/-- The end of a response: its usage, or its failure with the usage if there is one. -/
def outcome (collector : Collector) (streamed : Streamed) :
    Except (RequestFailure × Option CompletionUsage) CompletionUsage :=
  let ended : Except RequestFailure CompletionUsage :=
    match collector.error with
    | some error => .error error
    | none => streamed.outcome
  match ended with
  | .ok usage =>
      match usage.failure (collector.text ≠ "") collector.committed with
      | some failure => .error (failure, some usage)
      | none => .ok usage
  | .error failure =>
      .error (failure.withPartialOutput (failure.partialOutputEmitted || collector.committed), none)

/-- The end of a request, as it is traced. -/
def completed (t : ActiveTurn) (collector : Collector) (streamed : Streamed) (toolCalls : ℕ)
    (finishReason : Option String) (usage : Option CompletionUsage) : ModelRequestCompleted where
  epoch := t.loop.epochIndex
  model := t.loop.activeModel
  finishReason := finishReason
  inputTokens := usage.bind (·.inputTokens)
  uncachedInputTokens := usage.bind (·.uncachedInputTokens)
  logicalPromptTokens := usage.bind (·.logicalPromptTokens)
  cacheReadTokens := usage.bind (·.cacheReadTokens)
  cacheWriteTokens := usage.bind (·.cacheWriteTokens)
  outputTokens := usage.bind (·.outputTokens)
  providerTotalTokens := usage.bind (·.providerTotalTokens)
  durationMs := streamed.durationMs
  toolCalls := toolCalls
  reasoningProvenance := collector.provenance
  firstDeltaMs := collector.firstDeltaMs

/-- A response that is complete. Its line is written when it is recorded, as nothing is drawn in
between. -/
def respond (collector : Collector) (streamed : Streamed) (usage : CompletionUsage) :
    Attempt ActiveTurn TurnFailure Response := do
  let toolCalls ← count collector.calls.length "tool-call count exceeds durable limit"
  let t ← get
  let implied := if usage.certain then
    some (if collector.calls.isEmpty then "stop" else "tool_calls") else none
  pure
    { epoch := t.loop.epochIndex
      text := if collector.text = "" then none else some collector.text
      content := collector.content
      calls := collector.calls
      rejectedCalls := collector.rejectedCalls
      completion :=
        t.completed collector streamed toolCalls (usage.finishReason.or implied) (some usage) }

/-- A response that failed is closed, with its calls. -/
def closeFailed (collector : Collector) (streamed : Streamed) (failure : RequestFailure)
    (usage : Option CompletionUsage) : Attempt ActiveTurn TurnFailure Unit := do
  let toolCalls ← count collector.calls.length "tool-call count exceeds durable limit"
  let t ← get
  let line ← emit around (some turnId) (.modelRequestCompleted
    (t.completed collector streamed toolCalls (usage.bind (·.finishReason)) usage)) none
  (recordUnexecutedCalls around turnId line collector.calls
    "model response did not complete; tool was not executed"
    (usage.all (!·.stoppedAtOutputLimit))).mapError .ofTurn
  diagnose around turnId .warn ("model request failed (" ++ failure.kind.display ++
    "; replay safety " ++ failure.replaySafety.display ++ "): " ++ failure.message)

/-! ### Recovery -/

/-- `Action`. -/
inductive Action where
  | retry | takeover | stop

/-- `rebudget`. -/
def rebudget (backup : Backup) : Attempt ActiveTurn TurnError ℕ := do
  let target := overflowRecoveryTarget backup.contextWindow
  let t ← get
  let (dropped, historyStart) ← onLoop (TurnLoop.attempted fun loop =>
    loop.evictOldest (around.env.toBackup backup) turnId target t.historyStart false)
  modify fun t => { t with historyStart := historyStart }
  let t ← get
  if target < backup.estimate t.loop.messages false then
    fail (.sink ("cannot safely rebudget the complete backup request below its context target of "
      ++ target.repr ++ " tokens"))
  else pure dropped

/-- History is dropped for a backup whose window is too small; how much it was. -/
def makeRoom (backup : AttachedModel) (gaps : List CapabilityGap) :
    Attempt ActiveTurn TurnError ℕ := do
  let registry ← ask around.registry
  let t ← get
  if gaps.any (·.isWindow) then rebudget around turnId (t.backupFor around registry backup)
  else pure 0

/-- The index of the next epoch. -/
def nextEpoch : Attempt ActiveTurn TurnError ℕ := do
  let t ← get
  if t.loop.epochIndex = u32Max then fail (.sink "model epoch space is exhausted")
  else pure (t.loop.epochIndex + 1)

/-- The active model changes, in a new epoch. -/
def takeOver (backup : AttachedModel) (kind : ModelFailureKind) (gaps : List CapabilityGap) :
    Attempt ActiveTurn TurnError Unit := do
  let dropped ← makeRoom around turnId backup gaps
  let index ← nextEpoch
  let t ← get
  let _ ← emit around (some turnId) (.modelFailover
    ⟨t.loop.activeModel, backup.model, kind, gaps, 0 < dropped⟩) none
  let _ ← emit around (some turnId) (.modelEpochStarted
    ⟨index, backup.model, .automaticFailover, backup.capabilities⟩) none
  modify fun t =>
    { t with loop := { t.loop with epochIndex := index, activeModel := backup.model } }

/-- The line about a takeover that does not happen. -/
def refuseFailover (target : ModelRef) (why : String) : Attempt ActiveTurn TurnError Action := do
  diagnose around turnId .error ("failover to " ++ target.asKey ++ " refused: " ++ why)
  pure .stop

/-- `recover`. -/
def recover (failure : RequestFailure) : Attempt ActiveTurn TurnError Action := do
  let cancelled ← look around
  if cancelled || failure.kind = .cancelled then pure .stop
  else
    match around.failover.decide failure with
    | .retry attempt maxAttempts => do
        let _ ← emit around (some turnId) (.modelRetry ⟨attempt + 1, maxAttempts, failure.kind,
          failure.retryAfterMs, around.backup.isSome && maxAttempts ≤ attempt + 1⟩) none
        pure .retry
    | .failover target gaps =>
        match around.backup with
        | none => pure .stop
        | some backup => do
            let t ← get
            if backup.model ≠ target then
              refuseFailover around turnId target "it is not the attached backup"
            else if t.loop.activeModel = target then
              refuseFailover around turnId target "it is the active model"
            else do
              takeOver around turnId backup failure.kind gaps
              pure .takeover
    | .refused target gaps =>
        refuseFailover around turnId target ("the backup cannot do this work (" ++
          ", ".intercalate (gaps.map CapabilityGap.display) ++ ")")
    | .abort => pure .stop

/-- What an output limit cut off below the ceiling of its request. -/
def truncation (request : BudgetedRequest) (usage : Option CompletionUsage) : Option (ℕ × ℕ) := do
  let usage ← usage
  let requested ← request.maxOutputTokens
  let actual ← usage.outputTokens
  if usage.stoppedAtOutputLimit && actual < requested then some (actual, requested) else none

/-- The end of a request that failed: an error of the attempt, or the action that is left. -/
def afterFailure (request : BudgetedRequest) (collector : Collector) (failure : RequestFailure)
    (usage : Option CompletionUsage) : Attempt ActiveTurn TurnFailure Action := do
  let cancelled ← look around
  if cancelled then fail .cancelled
  else
    match truncation request usage with
    | some (actual, requested) =>
        fail (.outputTruncated failure actual requested collector.surfaceOutput)
    | none =>
        if failure.kind = .contextOverflow then
          fail (if failure.partialOutputEmitted then .fatal failure else .providerOverflow failure)
        else do
          let t ← get
          if around.maxRequests ≤ t.requests then fail (.fatal failure)
          else (recover around turnId failure).mapError .ofTurn

/-- `attempt`, with the attempts on the active model so far. The budget for requests is the measure
of the loop. -/
def attemptFrom : ℕ → ℕ → Attempt ActiveTurn TurnFailure Response
  | 0, _ => fail .outOfFuel
  | fuel + 1, attempts => do
      let (provider, request) ← buildRequest around turnId
      modify fun t => { t with requests := t.requests + 1 }
      let (collector, streamed) ← sendRequest around turnId provider request
      match outcome collector streamed with
      | .ok usage => respond collector streamed usage
      | .error (failure, usage) => do
          let failure := { failure with attempts := attempts + 1 }
          closeFailed around turnId collector streamed failure usage
          let action ← afterFailure around turnId request collector failure usage
          match action with
          | .retry => do
              -- the wait before a retry
              let cancelled ← look around
              if cancelled then fail .cancelled else attemptFrom fuel (attempts + 1)
          | .takeover => attemptFrom fuel 0
          | .stop => fail (.fatal failure)

/-- `attempt`. -/
def attempt : Attempt ActiveTurn TurnFailure Response := do
  let t ← get
  attemptFrom around turnId (around.maxRequests - t.requests + 1) 0

/-! ### Recovery of the context -/

/-- `turn_has_structural_compaction`. -/
def hasStructuralCompaction (t : ActiveTurn) : Bool :=
  t.loop.envelopes.any fun envelope =>
    envelope.eventMeta.turnId = some turnId &&
      match envelope.event with
      | .contextCompactionCompleted completed => completed.level.requiresSafeBoundary
      | _ => false

/-- `truncate_utf8_to_bytes`. -/
def truncateUtf8 (text : String) (maxBytes : ℕ) : String :=
  String.ofList (Payload.takeBytes maxBytes text.toList)

/-- The first summary that fits, each step about half as long as the one before. -/
def acceptSummary (fits : String → Bool) (source : String) : ℕ → ℕ → Option String
  | 0, _ => none
  | left + 1, bytes =>
      let summary := truncateUtf8 source bytes
      if fits summary then some summary
      else if bytes = 0 then none
      else
        let next := (truncateUtf8 source (bytes / 2)).utf8ByteSize
        acceptSummary fits source left (if next = bytes then bytes - 1 else next)

/-- `recover_prior_context`. -/
def recoverPriorContext : Attempt ActiveTurn TurnError Bool := do
  let registry ← ask around.registry
  let t ← get
  let stop := min t.historyStart t.loop.messages.length
  let floor := min t.loop.checkpointFloor stop
  let active := t.activeModel around registry
  let target := overflowRecoveryTarget active.contextWindow
  let tokens (messages : List Message) : ℕ := active.estimate messages false
  if stop ≤ floor then do
    diagnose around turnId .warn ("model response needs recovery, but current-turn content " ++
      "alone cannot be compacted safely")
    pure false
  else if around.maxRequests ≤ t.requests then do
    diagnose around turnId .warn
      "model response needs recovery, but the request budget cannot pay for a reissue"
    pure false
  else if t.hasStructuralCompaction turnId && tokens t.loop.messages ≤ target then do
    diagnose around turnId .info
      "existing context compaction already bounded the request; retrying once"
    pure true
  else
    let source := around.env.summarize ((t.loop.messages.take stop).drop floor)
    let fits (summary : String) : Bool :=
      tokens (TurnLoop.splice t.loop.messages floor stop [.user summary]) ≤ target
    match acceptSummary fits source 65 source.utf8ByteSize with
    | none => do
        diagnose around turnId .warn ("no bounded compacted request fits the active context " ++
          "window; recovery is unavailable")
        pure false
    | some summary => do
        diagnose around turnId .info
          "compacting prior history for one bounded model-request recovery"
        let replaced ← onLoop (TurnLoop.attempted fun loop =>
          loop.compactPrefix around.env turnId stop summary)
        if replaced = 0 then pure false
        else do
          modify fun t => { t with historyStart := t.loop.checkpointFloor + 1 }
          pure true

/-! ### The progress boundary -/

/-- The tools that count as progress, as the model is told. -/
def progressTools : String :=
  if around.progressToolNames.isEmpty then "a permitted mutating tool"
  else ", ".intercalate around.progressToolNames

/-- `append_progress_retry_instruction`. -/
def appendProgressRetryInstruction : Attempt ActiveTurn TurnError Unit :=
  say around turnId ("Runtime progress boundary remains unsatisfied: your previous response did " ++
    "not make a successful progress-tool call. Call one of " ++ progressTools around ++
    " now; do not claim completion until the requested change has been attempted.")

/-- `append_progress_instruction`. -/
def appendProgressInstruction : Attempt ActiveTurn TurnError Unit :=
  say around turnId ("Runtime progress boundary: this implementation turn has spent the " ++
    "configured inspection budget without calling a progress tool. In your next response, call " ++
    "one of " ++ progressTools around ++ " to make the requested change. Do not spend another " ++
    "request reading, probing, or planning; the turn remains incomplete until the change is " ++
    "attempted.")

/-- The boundary becomes active: the tools it leaves, or the reason why it cannot be met. -/
def activateBoundary : Attempt ActiveTurn TurnError (Option String) := do
  modify fun t => { t with boundaryActive := true }
  let registry ← ask around.registry
  let t ← get
  let available := t.effectiveProgressTools around registry
  if available.isEmpty then
    let reason := "progress boundary cannot be satisfied: configured progress tools are " ++
      "unavailable under the current model, tool, or approval policy"
    do
      diagnose around turnId .error reason
      pure (some reason)
  else do
    appendProgressInstruction around turnId
    diagnose around turnId .info ("progress boundary active after " ++ t.withoutProgress.repr ++
      " model request(s) without a configured progress tool; next request exposes " ++
      ", ".intercalate available)
    pure none

/-- `observe_progress`. -/
def observeProgress (progressed : Bool) : Attempt ActiveTurn TurnError (Option String) :=
  match around.progressRequestLimit with
  | none => pure none
  | some limit => do
      let t ← get
      if progressed then do
        modify fun t =>
          { t with withoutProgress := 0, boundaryActive := false, boundaryUsed := true }
        pure none
      else if t.boundaryUsed then pure none
      else do
        modify fun t => { t with withoutProgress := t.withoutProgress + 1 }
        let t ← get
        if limit ≤ t.withoutProgress && !t.boundaryActive then activateBoundary around turnId
        else pure none

/-! ### The turn -/

/-- `record_response`: the id of the line of the response. -/
def recordResponse (response : Response) (includeMessage : Bool) :
    Attempt ActiveTurn TurnError EventId := do
  let shown := if includeMessage then response.text.getD "" else ""
  modify fun t =>
    { t with report :=
      { t.report with
        epoch := response.epoch
        requests := t.requests
        text := t.report.text ++ shown } }
  let t ← get
  let assistant := around.env.fresh t.loop.issued
  let event : AgentEvent := .modelRequestCompleted response.completion
  let blocks := (if includeMessage then response.content else []) ++
    response.calls.map ContentBlock.toolCall
  if blocks.isEmpty then do
    modify fun t => { t with loop := t.loop.emitWithoutMessage around.env turnId event none }
    pure assistant
  else do
    record around turnId event ⟨.assistant, blocks⟩ none
    pure assistant

/-- How a turn ends for its caller. -/
inductive TurnEnd where
  | report
  | unavailable (failure : RequestFailure)

/-- `finish`. -/
def finish (status : TurnStatus) : Attempt ActiveTurn TurnError TurnEnd := do
  let durationMs ← ask around.elapsedMs
  modify fun t => { t with report := { t.report with status := status, durationMs := durationMs } }
  let _ ← emit around (some turnId) (.turnCompleted status durationMs) none
  pure .report

/-- `finish_failure`. -/
def finishFailure (failure : RequestFailure) : Attempt ActiveTurn TurnError TurnEnd := do
  modify fun t => { t with report := { t.report with requests := t.requests } }
  let _ ← finish around turnId (.failed failure.kind)
  pure (.unavailable failure)

/-- The end of a cancelled request. -/
def finishCancelled : Attempt ActiveTurn TurnError TurnEnd := do
  modify fun t => { t with report := { t.report with requests := t.requests } }
  finish around turnId .cancelled

/-- The end of a turn that spent its requests. -/
def finishExhausted (message : String) : Attempt ActiveTurn TurnError TurnEnd := do
  modify fun t => { t with report := { t.report with budgetExhausted := true } }
  diagnose around turnId .warn message
  finish around turnId .budgetExhausted

/-- The errors of a turn; `outOfFuel` stands for a loop that the model gave up. -/
inductive RunError where
  | turn (error : TurnError)
  | outOfFuel

/-- What the turn does about a request that did not lead to a response: it ends, or asks again. -/
structure Rounds where
  limit : ℕ
  overflowRecoveryUsed : Bool
  truncationRecoveryUsed : Bool

/-- An attempt, whose failure does not end the turn yet. -/
def tryAttempt : Attempt ActiveTurn RunError (Except TurnFailure Response) := fun t =>
  let (t, result) := attempt around turnId t
  (t, .ok result)

/-- How the loop goes on. -/
inductive Next where
  | ended (how : TurnEnd)
  | again (state : Rounds)

/-- The turn ends, with a line about why nothing was recovered. -/
def giveUp (failure : RequestFailure) (why : String) : Attempt ActiveTurn TurnError Next := do
  diagnose around turnId .warn why
  .ended <$> finishFailure around turnId failure

/-- The `ProviderOverflow` arm of `run_turn`. -/
def onOverflow (state : Rounds) (failure : RequestFailure) : Attempt ActiveTurn TurnError Next :=
  if state.overflowRecoveryUsed then
    giveUp around turnId failure ("provider rejected the compacted request for context " ++
      "overflow; automatic recovery already used for this turn")
  else do
    let recovered ← recoverPriorContext around turnId
    if recovered then pure (.again { state with overflowRecoveryUsed := true })
    else .ended <$> finishFailure around turnId failure

/-- The `OutputTruncated` arm of `run_turn`. -/
def onTruncation (state : Rounds) (failure : RequestFailure) (actual requested : ℕ)
    (surfaceOutput : Bool) : Attempt ActiveTurn TurnError Next :=
  if surfaceOutput then
    giveUp around turnId failure ("output-limit recovery was skipped because partial assistant " ++
      "output was already streamed to the surface")
  else if state.truncationRecoveryUsed then
    giveUp around turnId failure ("output-limit recovery was already used for this turn; " ++
      "leaving the incomplete response failed")
  else do
    let recovered ← recoverPriorContext around turnId
    if recovered then do
      diagnose around turnId .info ("output-limit response used " ++ actual.repr ++ " of " ++
        requested.repr ++ " requested tokens; prior context compacted and one same-model retry " ++
        "is allowed")
      pure (.again { state with truncationRecoveryUsed := true, limit := around.maxRequests })
    else .ended <$> finishFailure around turnId failure

/-- The error arms of `run_turn`. -/
def onFailure (state : Rounds) : TurnFailure → Attempt ActiveTurn RunError Next
  | .cancelled => (.ended <$> finishCancelled around turnId).mapError .turn
  | .providerOverflow failure => (onOverflow around turnId state failure).mapError .turn
  | .outputTruncated failure actual requested surfaceOutput =>
      (onTruncation around turnId state failure actual requested surfaceOutput).mapError .turn
  | .fatal failure => (.ended <$> finishFailure around turnId failure).mapError .turn
  | .sink error => fail (.turn error)
  | .outOfFuel => fail .outOfFuel

/-- The calls of a response are counted for the report. -/
def countCalls (calls : List ToolCallBlock) (error : String) :
    Attempt ActiveTurn TurnError Unit := do
  let toolCalls ← ofExcept (asU32 calls.length error)
  let t ← get
  let total ← ofExcept (asU32 (t.report.toolCalls + toolCalls)
    "turn tool-call count is exhausted")
  modify fun t => { t with report := { t.report with toolCalls := total } }

/-- What the turn does about a response: it ends, or goes on. -/
def onResponse (response : Response) : Attempt ActiveTurn TurnError (Option TurnEnd) := do
  let t ← get
  let rejected := t.boundaryActive && response.calls.isEmpty
  let assistant ← recordResponse around turnId response (!rejected)
  if response.calls.isEmpty then
    if rejected then do
      appendProgressRetryInstruction around turnId
      diagnose around turnId .warn ("progress boundary rejected a text-only completion; a " ++
        "configured progress tool must succeed before the turn can complete")
      pure none
    else some <$> finish around turnId .completed
  else if t.toolsEnabled then do
    countCalls response.calls "tool-call count exceeds durable limit"
    let progressed ← executeCalls around turnId assistant response.rejectedCalls response.calls
    let blocked ← observeProgress around turnId progressed
    match blocked with
    | some reason => some <$> finishFailure around turnId (.new .semantic .preRequest reason)
    | none => pure none
  else do
    recordUnexecutedCalls around turnId assistant response.calls
      "finalization mode does not execute tools" true
    some <$> finishExhausted around turnId
      "finalization received a tool request; no tool was executed"

/-- The loop of `run_turn`: the end of the turn, if it did not run into its limit. -/
def rounds : ℕ → Rounds → Attempt ActiveTurn RunError (Option TurnEnd)
  | 0, _ => fail .outOfFuel
  | fuel + 1, state => do
      let t ← get
      if state.limit ≤ t.requests then pure none
      else do
        let cancelled ← look around
        if cancelled then some <$> (finish around turnId .cancelled).mapError .turn
        else do
          let available ← ask around.mutatingApprovalAvailable
          modify fun t => { t with
            approvalAvailable := around.interactiveToolApproval && available }
          let result ← tryAttempt around turnId
          match result with
          | .ok response => do
              let ended ← (onResponse around turnId response).mapError RunError.turn
              match ended with
              | some ended => pure (some ended)
              | none => rounds fuel state
          | .error failure => do
              let next ← onFailure around turnId state failure
              match next with
              | .ended how => pure (some how)
              | .again state => rounds fuel state

/-- The text of the last request. -/
def finalizationText : String :=
  "The model-request safety budget is exhausted for this turn. This is a bounded finalization " ++
    "request: do not request or imply any tool execution. Summarize what is complete, identify " ++
    "unfinished files or verification, and state the safest next continuation step. Treat the " ++
    "task as incomplete."

/-- The last request, without tools. -/
def finalize : Attempt ActiveTurn RunError TurnEnd := do
  (say around turnId finalizationText).mapError .turn
  let t ← get
  modify fun t => { t with toolsEnabled := false }
  let result ← tryAttempt around turnId
  modify fun t' => { t' with toolsEnabled := t.toolsEnabled }
  match result with
  | .ok response => (do
      let assistant ← recordResponse around turnId response true
      if response.calls.isEmpty then
        finishExhausted around turnId ("request budget exhausted; finalization answer is " ++
          "incomplete and the session can be resumed")
      else do
        countCalls response.calls "finalization tool-call count exceeds durable limit"
        recordUnexecutedCalls around turnId assistant response.calls
          "request-budget finalization does not execute tools" true
        finishExhausted around turnId ("request budget exhausted; finalization requested tools " ++
          "and none were executed, so the session can be resumed")).mapError .turn
  | .error .cancelled => (finishCancelled around turnId).mapError .turn
  | .error (.providerOverflow failure) | .error (.fatal failure)
  | .error (.outputTruncated failure _ _ _) => (finishFailure around turnId failure).mapError .turn
  | .error (.sink error) => fail (.turn error)
  | .error .outOfFuel => fail .outOfFuel

/-- The end of `run_turn` behind its loop. -/
def conclude : Attempt ActiveTurn RunError TurnEnd := do
  let t ← get
  if t.boundaryActive then
    (finishExhausted around turnId ("request budget exhausted while the required progress " ++
      "boundary remained unsatisfied; the session can be resumed")).mapError .turn
  else if 1 < around.maxRequests && t.requests < around.maxRequests then do
    let cancelled ← look around
    if cancelled then (finishCancelled around turnId).mapError .turn
    else finalize around turnId
  else
    (finishExhausted around turnId ("request budget exhausted after " ++ around.maxRequests.repr ++
      " model requests without a final answer; the session can be resumed")).mapError .turn

/-- The start of `run_turn`. The token is that of this turn. -/
def begin (available : Bool) (t : ActiveTurn) : ActiveTurn :=
  { t with
    requests := 0
    historyStart := t.loop.messages.length
    withoutProgress := 0
    boundaryActive := false
    boundaryUsed := false
    approvalAvailable := around.interactiveToolApproval && available
    report := ⟨.completed, "", t.loop.epochIndex, 0, 0, 0, false⟩
    cancelled := false
    acts := [] }

/-- `run_turn_with_external_context`, from the external context on: each item with its text. -/
def runTurn (input : String) (externalContext : List (ExternalContextRetrieved × String)) :
    Attempt ActiveTurn RunError TurnEnd := do
  let available ← ask around.mutatingApprovalAvailable
  modify (begin around available)
  (each (fun item => record around turnId (.externalContextRetrieved item.1) (.user item.2) none)
    externalContext).mapError RunError.turn
  (say around turnId input).mapError RunError.turn
  let normalLimit := if 1 < around.maxRequests then around.maxRequests - 1 else around.maxRequests
  let ended ← rounds around turnId (around.maxRequests + 1) ⟨normalLimit, false, false⟩
  match ended with
  | some ended => pure ended
  | none => conclude around turnId

end ActiveTurn

end Rupi
