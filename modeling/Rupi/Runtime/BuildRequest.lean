import Rupi.Core.ContextPolicy
import Rupi.Lib.Contracts
import Rupi.Runtime.Eviction

/-!
The request that a turn dispatches.

- `RequestBudget.isUnusable`: the window leaves no useful output.
- `TurnLoop.relieve`: what the context policy asks for.
- `TurnLoop.fitRequest`: the last eviction, and the output ceiling that is left.
- `TurnLoop.buildRequest`: both, in front of a request to the model.
-/

namespace Rupi

open Attempt Fallible

/-- `u64::saturating_add`. -/
def saturatingAdd (a b : ℕ) : ℕ := min (a + b) (2 ^ 64 - 1)

/-- `u64::saturating_mul`. -/
def saturatingMul (a b : ℕ) : ℕ := min (a * b) (2 ^ 64 - 1)

/-- `MINIMUM_USEFUL_OUTPUT_TOKENS`. -/
def minimumUsefulOutputTokens : ℕ := 256

namespace RequestBudget

variable (budget : RequestBudget)

/-- What is kept free beside the prompt. -/
def headroom : ℕ := if budget.desiredOutputTokens.isSome then budget.safetyReserveTokens else 0

/-- The output is cut below what is useful. -/
def starved : Bool :=
  match budget.desiredOutputTokens, budget.effectiveOutputTokens with
  | some desired, some effective => effective < desired && effective < minimumUsefulOutputTokens
  | _, _ => false

/-- `is_unusable`. -/
def isUnusable : Bool :=
  if budget.desiredOutputTokens = some 0 then true
  else decide (budget.contextWindow < saturatingAdd budget.promptTokensEst budget.headroom) ||
    budget.starved

/-- What the prompt has to come down to. -/
def promptTarget : ℕ :=
  match budget.desiredOutputTokens with
  | some desired =>
      budget.contextWindow - budget.safetyReserveTokens - min desired minimumUsefulOutputTokens
  | none => budget.contextWindow

end RequestBudget

/-- A request with the output ceiling that goes on the wire. -/
structure BudgetedRequest where
  request : ModelRequest
  maxOutputTokens : Option ℕ

/-- `TurnError`, as far as a request can end in it. -/
inductive RequestError where
  | unavailable (reason : String)
  | aborted (kind : ModelFailureKind)
  | turn (error : TurnError)
  deriving DecidableEq, Repr

/-- What `build_request` asks beside the loop. -/
structure RequestRules where
  provider : Backup
  /-- `evaluate`, which sees more of the loop than the counts. -/
  policy : TurnLoop → ContextState → ContextAction
  /-- `configuration_warning`, where it was not reported yet. -/
  warning : TurnLoop → ContextState → Option String
  /-- The progress boundary is active and leaves no tool. -/
  boundaryBlocked : Bool
  /-- Summaries are the compaction strategy, or there is a summarizer. -/
  summarizes : Bool
  autoCheckpoint : Bool
  synthesizeCapsule : TurnLoop → ContextState → String → ContextCapsule
  sinceLastCompactionMs : ℕ

/-- `ContextLevel::as_str`. -/
def ContextLevel.text : ContextLevel → String
  | .l0Payload => "L0 payload reduction"
  | .l1Ordinary => "L1 ordinary compaction"
  | .l2Phase => "L2 phase compaction"
  | .l3Checkpoint => "L3 checkpoint/reset"

/-- The `Debug` text of a reason. -/
def ReductionReason.debug : ReductionReason → String
  | .oversizedToolOutput limit => "OversizedToolOutput \x7b limit_bytes: " ++ limit.repr ++ " \x7d"
  | .recentTargetExceeded target =>
      "RecentTargetExceeded \x7b target_tokens: " ++ target.repr ++ " \x7d"
  | .externalContextTooLarge limit =>
      "ExternalContextTooLarge \x7b limit_bytes: " ++ limit.repr ++ " \x7d"
  | .userRequested => "UserRequested"

namespace TurnLoop

variable (env : Env) (rules : RequestRules) (turnId : TurnId)

/-- `diagnostic`. -/
def note (loop : TurnLoop) (turnId : Option TurnId) (level : DiagnosticLevel) (message : String) :
    TurnLoop := (loop.emit env turnId (.diagnostic level message) none).1

/-- An operation on the window. One that fails has emitted nothing. -/
def attempted {α : Type} (op : TurnLoop → Except TurnError (TurnLoop × α)) :
    Attempt TurnLoop TurnError α := fun loop =>
  match op loop with
  | .ok (loop, result) => (loop, .ok result)
  | .error error => (loop.normalizeMessageSeqs, .error error)

/-- The state that the policy is asked about. -/
def contextState (loop : TurnLoop) (turnHistoryStart : ℕ) : ContextState where
  window := rules.provider.contextWindow
  estimatedTokens := requestContextTokens (rules.provider.assembleRequest loop.messages)
  measuredTokens := none
  recentTokens :=
    env.estimateMessages (loop.messages.drop (min turnHistoryStart loop.messages.length))
  atSafeBoundary := true
  sinceLastCompactionMs := rules.sinceLastCompactionMs
  overflowObserved := false

/-- Completed cycles of the turn are summarized, or else history is evicted. -/
def summarizeOrEvict (turnHistoryStart target : ℕ) (reason : String) (idle : TurnLoop → TurnLoop) :
    Attempt TurnLoop TurnError ℕ := do
  let (compacted, turnHistoryStart) ← attempted fun loop =>
    loop.compactCompletedTurnCycles env turnId turnHistoryStart target reason
  if compacted = 0 then do
    let (evicted, turnHistoryStart) ← attempted fun loop =>
      loop.evictOldest env turnId target turnHistoryStart false
    modify fun loop => if evicted = 0 then idle loop else loop
    pure turnHistoryStart
  else pure turnHistoryStart

/-- History in front of the turn is summarized, where summaries are in use or the level asks for
them. -/
def compactInFront (turnHistoryStart : ℕ) (level : ContextLevel) (reason : String) :
    Attempt TurnLoop TurnError (ℕ × ℕ) :=
  if 0 < turnHistoryStart ∧ (level = .l2Phase ∨ rules.summarizes = true) then
    attempted fun loop => loop.compactTurnPrefix env turnId turnHistoryStart level reason
  else pure (0, turnHistoryStart)

/-- `ContextAction::Compact`. -/
def compactFor (turnHistoryStart : ℕ) (level : ContextLevel) (reason : String) (target : ℕ) :
    Attempt TurnLoop TurnError ℕ := do
  let (compacted, turnHistoryStart) ←
    compactInFront env rules turnId turnHistoryStart level reason
  if compacted = 0 then
    summarizeOrEvict env turnId turnHistoryStart target reason fun loop =>
      loop.note env none .warn ("context suggests " ++ level.text ++ " compaction: " ++ reason)
  else pure turnHistoryStart

/-- `ContextAction::SuggestCheckpoint`. -/
def checkpointFor (turnHistoryStart : ℕ) (state : ContextState) (reason : String) :
    Attempt TurnLoop TurnError ℕ := do
  let suggest (loop : TurnLoop) : TurnLoop :=
    loop.note env (some turnId) .warn ("context suggests checkpoint: " ++ reason)
  if rules.autoCheckpoint = true ∧ 0 < turnHistoryStart then do
    let (created, turnHistoryStart) ← fun loop => loop.checkpointTurnPrefix env turnId
      (rules.synthesizeCapsule loop state reason) turnHistoryStart
    match created with
    | some created => modify (·.note env (some turnId) .info ("runtime created checkpoint " ++
        created.checkpointId ++ " under context pressure: " ++ reason))
    | none => modify suggest
    pure turnHistoryStart
  else do
    modify suggest
    pure turnHistoryStart

/-- `ContextAction::ReducePayload`. -/
def reduceFor (turnHistoryStart : ℕ) (reason : ReductionReason) : Attempt TurnLoop TurnError ℕ := do
  let loop ← get
  let target := match reason with
    | .recentTargetExceeded target => target
    | _ => saturatingMul (env.estimateMessages loop.messages) 3 / 4
  summarizeOrEvict env turnId turnHistoryStart target ("payload reduction: " ++ reason.debug)
    fun loop => loop.note env (some turnId) .info ("context requested payload reduction, but no " ++
      "completed history boundary is available yet")

/-- A request that is not sent, and the diagnostic about it. -/
def refuseRequest {α : Type} (turnId : Option TurnId) (message : String) (error : RequestError) :
    Attempt TurnLoop RequestError α := do
  modify (·.note env turnId .error message)
  fail error

/-- The action of the policy is taken. -/
def relieve (turnHistoryStart : ℕ) (state : ContextState) :
    ContextAction → Attempt TurnLoop RequestError ℕ
  | .refuse reason =>
      refuseRequest env none ("context refused: " ++ reason) (.aborted .contextOverflow)
  | .compact level reason target =>
      (compactFor env rules turnId turnHistoryStart level reason target).mapError .turn
  | .suggestCheckpoint reason =>
      (checkpointFor env rules turnId turnHistoryStart state reason).mapError .turn
  | .reducePayload reason => (reduceFor env turnId turnHistoryStart reason).mapError .turn
  | .warn _ _ | .keep => pure turnHistoryStart

/-- The warning about the configuration, if there is one. -/
def warned (loop : TurnLoop) (state : ContextState) : TurnLoop :=
  match rules.warning loop state with
  | some message => loop.note env (some turnId) .warn message
  | none => loop

/-- The part of `build_request` in front of the last eviction. -/
def relieved (turnHistoryStart : ℕ) : Attempt TurnLoop RequestError ℕ := do
  let loop ← get
  let state := loop.contextState env rules turnHistoryStart
  modify (·.warned env rules turnId state)
  relieve env rules turnId turnHistoryStart state (rules.policy loop state)

/-- The budget of the request that shows the messages of a loop. -/
def budget (provider : Backup) (loop : TurnLoop) : RequestBudget :=
  .forRequest (provider.assembleRequest loop.messages)

/-- What is said of an output that was cut to the window. -/
def noteReduced (loop : TurnLoop) (budget : RequestBudget) : TurnLoop :=
  if budget.desiredOutputTokens ≠ budget.effectiveOutputTokens then
    loop.note env (some turnId) .warn ("output budget reduced from " ++
      (budget.desiredOutputTokens.getD 0).repr ++ " to " ++
      (budget.effectiveOutputTokens.getD 0).repr ++ " tokens to fit the active " ++
      budget.contextWindow.repr ++ "-token context window (prompt estimate " ++
      budget.promptTokensEst.repr ++ ", safety reserve " ++ budget.safetyReserveTokens.repr ++ ")")
  else loop

/-- The last eviction, for a prompt that leaves no useful output. -/
def evictForPrompt (turnHistoryStart : ℕ) : Attempt TurnLoop TurnError ℕ := do
  let loop ← get
  let budget := loop.budget rules.provider
  if budget.isUnusable then do
    let (_, turnHistoryStart) ← attempted fun loop =>
      loop.evictOldest env turnId budget.promptTarget turnHistoryStart true
    pure turnHistoryStart
  else pure turnHistoryStart

/-- The end of `build_request`. -/
def fitRequest (turnHistoryStart : ℕ) : Attempt TurnLoop RequestError (ℕ × BudgetedRequest) := do
  let turnHistoryStart ← (evictForPrompt env rules turnId turnHistoryStart).mapError .turn
  let loop ← get
  let budget := loop.budget rules.provider
  if budget.isUnusable then
    refuseRequest env (some turnId) ("context cannot reserve a useful output budget: prompt " ++
        "estimate " ++ budget.promptTokensEst.repr ++ ", desired output " ++
        (budget.desiredOutputTokens.getD 0).repr ++ ", available output " ++
        (budget.effectiveOutputTokens.getD 0).repr ++ " after " ++
        budget.safetyReserveTokens.repr ++ "-token safety reserve in a " ++
        budget.contextWindow.repr ++ "-token window")
      (.aborted .contextOverflow)
  else do
    modify (·.noteReduced env turnId budget)
    pure (turnHistoryStart,
      ⟨rules.provider.assembleRequest loop.messages, budget.effectiveOutputTokens⟩)

/-- The text about progress tools that are gone. -/
def progressUnavailable : String :=
  "progress boundary cannot be satisfied: configured progress tools became unavailable under " ++
    "the current model, tool, or approval policy"

/-- `build_request`: the start of the turn's own history, and the request. Estimates are those of
the provider that gets it. -/
def buildRequest (turnHistoryStart : ℕ) : Attempt TurnLoop RequestError (ℕ × BudgetedRequest) :=
  if rules.boundaryBlocked then
    refuseRequest env (some turnId) progressUnavailable (.unavailable progressUnavailable)
  else if rules.provider.maxOutputTokens = some 0 then
    refuseRequest env (some turnId)
      "context cannot reserve a useful output budget: configured output ceiling is zero"
      (.aborted .contextOverflow)
  else do
    let turnHistoryStart ← relieved (env.toBackup rules.provider) rules turnId turnHistoryStart
    fitRequest (env.toBackup rules.provider) rules turnId turnHistoryStart

end TurnLoop

end Rupi
