import Rupi.Lib.Contracts
import Rupi.Runtime.BuildRequest
import Rupi.Runtime.Collector
import Rupi.Runtime.Failover
import Rupi.Tools.Registry

/-!
A turn, and the tool calls of one response.

- `Surroundings`: what a turn meets: models, tools, approvals, and the token that cancels it.
- `ActiveTurn`: the loop in a turn, and what the turn did to its surroundings.
- `ActiveTurn.look`: the token; once it was set it stays set.
- `ActiveTurn.recordUnexecutedCalls`, `ActiveTurn.executeCalls`: the calls of a response are closed,
  in order.
-/

namespace Rupi

open Attempt

/-! ### Around a turn -/

/-- `CompletionUsage`; `certain` says that the end of the response was seen. -/
structure CompletionUsage where
  inputTokens : Option ℕ
  uncachedInputTokens : Option ℕ
  logicalPromptTokens : Option ℕ
  cacheReadTokens : Option ℕ
  cacheWriteTokens : Option ℕ
  outputTokens : Option ℕ
  providerTotalTokens : Option ℕ
  finishReason : Option String
  certain : Bool

/-- What a provider makes of a request: the events it streams, whether output on the surface can
not be taken back, how it ended and how long it took. -/
structure Streamed where
  arrivals : List Arrival
  irreversible : Bool
  outcome : Except RequestFailure CompletionUsage
  durationMs : ℕ

/-- `ModelProvider`, as it is attached. -/
structure AttachedModel where
  model : ModelRef
  capabilities : ModelCapabilities

/-- The configuration of a turn loop, and what a turn meets at each of its looks: the token, the
surface, the registry of tools and their runs, the providers and the context policy. -/
structure Surroundings where
  env : Env
  primary : AttachedModel
  backup : Option AttachedModel
  failover : FailoverPolicy
  maxRequests : ℕ
  system : Option String
  summarizes : Bool
  autoCheckpoint : Bool
  interactiveToolApproval : Bool
  /-- `auto_approves_mutating`. -/
  autoApprovesMutating : Bool
  progressRequestLimit : Option ℕ
  progressToolNames : List String
  synthesizeCapsule : TurnLoop → ContextState → String → ContextCapsule
  cancelled : ℕ → Bool
  mutatingApprovalAvailable : ℕ → Bool
  approve : ℕ → ToolMetadata → Value → Approval
  registry : ℕ → ToolRegistry
  /-- The token or the deadline interrupts a tool. -/
  interrupted : ℕ → Bool
  stream : ℕ → ModelRef → BudgetedRequest → Streamed
  elapsedMs : ℕ → ℕ
  policy : ℕ → TurnLoop → ContextState → ContextAction
  warning : ℕ → TurnLoop → ContextState → Option String
  sinceLastCompactionMs : ℕ → ℕ

/-- What a turn does to its surroundings. -/
inductive Act where
  | looked (cancelled : Bool)
  | asked (provider : Backup) (request : BudgetedRequest)
  | dispatched (call : ToolCallBlock) (steps : List DispatchStep)

/-- `TurnReport`. -/
structure TurnReport where
  status : TurnStatus
  text : String
  epoch : ℕ
  toolCalls : ℕ
  requests : ℕ
  durationMs : ℕ
  budgetExhausted : Bool

/-- A loop in a turn. -/
structure ActiveTurn where
  loop : TurnLoop
  requests : ℕ
  /-- The start of the turn's own history. -/
  historyStart : ℕ
  withoutProgress : ℕ
  boundaryActive : Bool
  boundaryUsed : Bool
  toolsEnabled : Bool
  approvalAvailable : Bool
  report : TurnReport
  /-- The token was seen set. -/
  cancelled : Bool
  /-- How many looks there were. -/
  looks : ℕ
  acts : List Act

namespace ToolRegistry

/-- `metadata_for`. -/
def metadataFor (registry : ToolRegistry) (name : String) : Option ToolMetadata :=
  (registry.lookupTool name).map (·.metadata)

/-- `specs`, in the order of the map. -/
def specs (registry : ToolRegistry) : List ToolSpec :=
  registry.allowedNames.filterMap fun name => (registry.lookupTool name).map fun tool =>
    ⟨tool.metadata.name, tool.metadata.description, tool.schema⟩

/-- A tool that is not known is taken to change something. -/
def isReadOnly (registry : ToolRegistry) (name : String) : Bool :=
  (registry.metadataFor name).any (·.readOnly)

end ToolRegistry

/-- `emit_with_sink_parent`, without a message. -/
def TurnLoop.emitWithoutMessage (env : Env) (loop : TurnLoop) (turnId : TurnId) (event : AgentEvent)
    (parent : Option EventId) : TurnLoop :=
  let envelope := loop.newEnvelope env (some turnId) event parent
  loop.sent (loop.trace.emitWithoutMessage envelope) (loop.trace.stamp envelope)

namespace ActiveTurn

variable (around : Surroundings) (turnId : TurnId) {ε α : Type}

/-! ### Single effects -/

/-- Something of the surroundings, as it is at this look. -/
def ask (view : ℕ → α) : Attempt ActiveTurn ε α :=
  fun t => ({ t with looks := t.looks + 1 }, .ok (view t.looks))

def act (a : Act) : Attempt ActiveTurn ε Unit := modify fun t => { t with acts := t.acts ++ [a] }

/-- The turn behind a look at the token. -/
def looked (t : ActiveTurn) : ActiveTurn :=
  let cancelled := t.cancelled || around.cancelled t.looks
  { t with cancelled := cancelled, looks := t.looks + 1, acts := t.acts ++ [.looked cancelled] }

/-- `cancel.is_cancelled()`. -/
def look : Attempt ActiveTurn ε Bool := fun t => (t.looked around, .ok (t.looked around).cancelled)

/-- An operation of the loop. -/
def onLoop (m : Attempt TurnLoop ε α) : Attempt ActiveTurn ε α := fun t =>
  let (loop, result) := m t.loop
  ({ t with loop := loop }, result)

/-- The turn behind an event. -/
def emitted (turn : Option TurnId) (event : AgentEvent) (parent : Option EventId) (t : ActiveTurn) :
    ActiveTurn := { t with loop := (t.loop.emit around.env turn event parent).1 }

/-- `emit_with_parent`, with the id of the event. -/
def emit (turn : Option TurnId) (event : AgentEvent) (parent : Option EventId) :
    Attempt ActiveTurn ε EventId := fun t =>
  (emitted around turn event parent t, .ok (around.env.fresh t.loop.issued))

/-- `diagnostic`. -/
def diagnose (level : DiagnosticLevel) (message : String) : Attempt ActiveTurn ε Unit := do
  let _ ← emit around (some turnId) (.diagnostic level message) none
  pure ()

/-- An event with its message, which joins the window. -/
def record (event : AgentEvent) (message : Message) (parent : Option EventId) :
    Attempt ActiveTurn TurnError Unit := fun t =>
  match t.loop.recordMessage around.env turnId event message parent with
  | .ok loop => ({ t with loop := loop }, .ok ())
  | .error error => (t, .error error)

/-- A message of the runtime to the model. -/
def say (text : String) : Attempt ActiveTurn TurnError Unit :=
  record around turnId (.userMessage ⟨text, 0⟩) (.user text) none

/-! ### Calls that are not executed -/

/-- The request of a call, as it is traced. -/
def requestOf (readOnly : Bool) (call : ToolCallBlock) : ToolRequested :=
  ⟨call.id, call.name, call.arguments, readOnly⟩

/-- One call of `record_unexecuted_calls`. -/
def recordUnexecutedCall (assistant : EventId) (reason : String) (joins : Bool)
    (call : ToolCallBlock) : Attempt ActiveTurn TurnError Unit := do
  let registry ← ask around.registry
  let requested ← emit around (some turnId)
    (.toolRequested (requestOf (registry.isReadOnly call.name) call)) (some assistant)
  let failed : AgentEvent := .toolFailed ⟨call.id, call.name, reason, 0, none⟩
  let result : ToolResultBlock := ⟨call.id, call.name, .failed, reason, true, false⟩
  if joins then record around turnId failed ⟨.tool, [.toolResult result]⟩ (some requested)
  else modify fun t =>
    { t with loop := t.loop.emitWithoutMessage around.env turnId failed (some requested) }

/-- `record_unexecuted_calls`: `joins` says that the results join the window. -/
def recordUnexecutedCalls (assistant : EventId) (calls : List ToolCallBlock) (reason : String)
    (joins : Bool) : Attempt ActiveTurn TurnError Unit :=
  each (recordUnexecutedCall around turnId assistant reason joins) calls

/-! ### Calls that are executed -/

/-- The answer that the gate of a call is fixed to. -/
def approval (t : ActiveTurn) (asked : ToolMetadata → Value → Approval)
    (metadata : Option ToolMetadata) (arguments : Value) : Approval :=
  match metadata.filter (!·.readOnly) with
  | none => .allow
  | some metadata =>
      if around.autoApprovesMutating then .allow
      else if t.approvalAvailable then asked metadata arguments
      else .deny ("approval is required for this mutating tool, but this surface cannot ask; " ++
        "nothing was changed")

/-- `record_tool_outcome`, and the message joins the window. -/
def recordOutcome (call : ToolCallBlock) (executed : Executed) (durationMs : ℕ) (readOnly : Bool)
    (parent : EventId) : Attempt ActiveTurn TurnError Unit := do
  let recorded := recordToolOutcome call executed durationMs readOnly around.env.putPayload
  match recorded.reduction with
  | some reduction => do
      let _ ← emit around (some turnId) (.contextReduced reduction) none
      record around turnId recorded.event recorded.message (some parent)
  | none => record around turnId recorded.event recorded.message (some parent)

/-- The line of a tool that starts, if it did; the id of the last line of the call. -/
def traceStart (call : ToolCallBlock) (steps : List DispatchStep) (requested : EventId) :
    Attempt ActiveTurn ε EventId := fun t =>
  if .startReported ∈ steps then
    let started : AgentEvent := .toolStarted ⟨call.id, call.name⟩
    let loop := t.loop.traceEvent around.env turnId started (some requested)
    ({ t with loop := loop }, .ok (around.env.fresh t.loop.issued))
  else (t, .ok requested)

/-- `call_makes_progress`. -/
def callMakesProgress (registry : ToolRegistry) (call : ToolCallBlock) : Bool :=
  match registry.metadataFor call.name with
  | some metadata => !metadata.readOnly &&
      (around.progressToolNames.isEmpty || around.progressToolNames.contains call.name)
  | none => false

/-- The reason of a call that the decoder rejected. -/
def rejection (reason : String) : String :=
  "The tool call was not run because its model-generated request was invalid: " ++ reason ++
    ". Send a corrected tool call with complete JSON object arguments."

/-- `execute_observed_with_gate`: the report of the call and the id of its last line. -/
def dispatchCall (call : ToolCallBlock) (answer : Approval) (requested : EventId) :
    Attempt ActiveTurn TurnError (ExecutedCall × EventId) := do
  let cancelledBefore ← look around
  let interrupted ← ask around.interrupted
  let cancelledAfter ← ask around.cancelled
  let registry ← ask around.registry
  let (result, steps) := registry.dispatch
    ⟨cancelledBefore, fun _ _ => answer, .ok (), interrupted, cancelledBefore || cancelledAfter⟩
    ⟨call.id, call.name, call.arguments⟩
  act (.dispatched call steps)
  let last ← traceStart around turnId call steps requested
  modify fun t => { t with cancelled := t.cancelled || cancelledAfter }
  let executed ← ofExcept (result.mapError .sink)
  pure (executed, last)

/-- One call of `execute_calls`: whether it made progress. -/
def executeCall (assistant : EventId) (rejected : List (ToolCallId × String))
    (call : ToolCallBlock) : Attempt ActiveTurn TurnError Bool := do
  let registry ← ask around.registry
  let readOnly := registry.isReadOnly call.name
  let requested ←
    emit around (some turnId) (.toolRequested (requestOf readOnly call)) (some assistant)
  match rejected.lookup call.id with
  | some reason => do
      let refused := ExecutedCall.refused ⟨call.id, call.name, call.arguments⟩ (rejection reason)
      recordOutcome around turnId call refused.toExecuted 0 readOnly requested
      pure false
  | none => do
      let asked ← ask around.approve
      let t ← get
      let answer := approval around t asked (registry.metadataFor call.name) call.arguments
      let (executed, last) ← dispatchCall around turnId call answer requested
      let durationMs ← ask around.elapsedMs
      let executed := settleUnstarted executed
      recordOutcome around turnId call executed.toExecuted durationMs readOnly last
      let registry ← ask around.registry
      pure (callMakesProgress around registry call && executed.state = .succeeded)

/-- `execute_calls`: whether a call made progress. A batch that is cancelled is closed. -/
def executeCalls (assistant : EventId) (rejected : List (ToolCallId × String)) :
    List ToolCallBlock → Attempt ActiveTurn TurnError Bool
  | [] => pure false
  | call :: calls => do
      let cancelled ← look around
      if cancelled then do
        recordUnexecutedCalls around turnId assistant (call :: calls)
          "not executed: the turn was cancelled" true
        pure false
      else do
        let progressed ← executeCall around turnId assistant rejected call
        let later ← executeCalls assistant rejected calls
        pure (progressed || later)

end ActiveTurn

end Rupi
