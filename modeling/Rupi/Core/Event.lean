import Rupi.Core.Message

/-!
Typed runtime events, the envelope they travel in, and the trace line that
carries an envelope.

The event stream is the canonical record; the session log is its projection.
Order within a session is `EventMeta.seq`, assigned by the journal.
-/

namespace Rupi

structure ModelRef where
  provider : String
  model : String
  deriving DecidableEq, Repr, Inhabited

/-- `provider/model`, the form a model reference has on a line. -/
def ModelRef.asKey (model : ModelRef) : String := model.provider ++ "/" ++ model.model

/-- Model-reasoning exposure a capability record claims. -/
inductive ReasoningExposure where
  | none | native | providerSummary | declared
  deriving DecidableEq, Repr

structure ModelCapabilities where
  text : Bool
  images : Bool
  tools : Bool
  exposedReasoning : ReasoningExposure
  contextWindow : Nat
  maxOutputTokens : Option Nat
  deriving DecidableEq, Repr

/-- Why a model epoch began. -/
inductive EpochReason where
  | initial | manualSwitch | automaticFailover | manualSwitchBack
  deriving DecidableEq, Repr

/-- Depth of a context reduction. -/
inductive ContextLevel where
  | l0Payload | l1Ordinary | l2Phase | l3Checkpoint
  deriving DecidableEq, Repr

/-- Why context was reduced. -/
inductive ReductionReason where
  | oversizedToolOutput (limitBytes : Nat)
  | recentTargetExceeded (targetTokens : Nat)
  | externalContextTooLarge (limitBytes : Nat)
  | userRequested
  deriving DecidableEq, Repr

/-- Classes of model failure. -/
inductive ModelFailureKind where
  | transport | timeout | rateLimited | providerUnavailable | authentication | protocol
  | contextOverflow | semantic | cancelled
  deriving DecidableEq, Repr

inductive TurnStatus where
  | completed | cancelled | budgetExhausted
  | failed (kind : ModelFailureKind)
  deriving DecidableEq, Repr

inductive DiagnosticLevel where
  | info | warn | error
  deriving DecidableEq, Repr

inductive SessionEndReason where
  | userExit | restart
  | fatal (message : String)
  | interrupted (message : String)
  deriving DecidableEq, Repr

/-- Whether a blob's stored bytes are compressed. -/
inductive BlobCompression where
  | none | deflate
  deriving DecidableEq, Repr

structure BlobRef where
  hash : String
  size : Nat
  contentType : Option String
  compression : BlobCompression
  deriving DecidableEq, Repr

structure ExternalContextSource where
  provider : String
  resourceId : String
  provenance : String
  deriving DecidableEq, Repr

/-! ### Event payloads -/

structure SessionStarted where
  workingDir : String
  model : ModelRef
  capabilities : ModelCapabilities
  resumed : Bool
  deriving DecidableEq, Repr

structure UserMessage where
  text : String
  attachments : Nat
  deriving DecidableEq, Repr

structure ModelRequestStarted where
  epoch : Nat
  model : ModelRef
  messageCount : Nat
  contextTokensEst : Nat
  toolsExposed : Nat
  deriving DecidableEq, Repr

structure ReasoningDelta where
  text : String
  provenance : ReasoningProvenance
  chunkIndex : Nat
  deriving DecidableEq, Repr

structure AssistantDelta where
  text : String
  chunkIndex : Nat
  deriving DecidableEq, Repr

structure ModelRequestCompleted where
  epoch : Nat
  model : ModelRef
  finishReason : Option String
  inputTokens : Option Nat
  uncachedInputTokens : Option Nat
  logicalPromptTokens : Option Nat
  cacheReadTokens : Option Nat
  cacheWriteTokens : Option Nat
  outputTokens : Option Nat
  providerTotalTokens : Option Nat
  durationMs : Nat
  toolCalls : Nat
  reasoningProvenance : Option ReasoningProvenance
  firstDeltaMs : Option Nat
  deriving DecidableEq, Repr

structure ModelRetry where
  attempt : Nat
  maxAttempts : Nat
  kind : ModelFailureKind
  retryAfterMs : Option Nat
  willFailover : Bool
  deriving DecidableEq, Repr

/-- What a model lacks for a session. -/
inductive CapabilityGap where
  | text | images | tools
  | contextWindow (required available : Nat)
  deriving DecidableEq, Repr

structure ModelFailover where
  source : ModelRef
  target : ModelRef
  kind : ModelFailureKind
  gaps : List CapabilityGap
  compacted : Bool
  deriving DecidableEq, Repr

structure ModelEpochStarted where
  epoch : Nat
  model : ModelRef
  reason : EpochReason
  capabilities : ModelCapabilities
  deriving DecidableEq, Repr

structure ToolRequested where
  callId : ToolCallId
  name : String
  arguments : Value
  readOnly : Bool
  deriving DecidableEq, Repr

structure ToolStarted where
  callId : ToolCallId
  name : String
  deriving DecidableEq, Repr

structure ToolCompleted where
  callId : ToolCallId
  name : String
  state : ToolExecutionState
  durationMs : Nat
  status : Option Int
  reduced : Bool
  blob : Option BlobRef
  visibleBytes : Nat
  deriving DecidableEq, Repr

structure ToolFailed where
  callId : ToolCallId
  name : String
  message : String
  durationMs : Nat
  status : Option Int
  deriving DecidableEq, Repr

structure ToolUnknown where
  callId : ToolCallId
  name : String
  why : String
  mutating : Bool
  deriving DecidableEq, Repr

structure ExternalContextRetrieved where
  source : ExternalContextSource
  citation : Option String
  bytes : Nat
  inline : Bool
  metadata : List (String × String)
  deriving DecidableEq, Repr

structure ContextReduced where
  reason : ReductionReason
  originalBytes : Nat
  visibleBytes : Nat
  removedMessages : Nat
  retainedMessages : Nat
  blob : Option BlobRef
  recoveryRef : Option String
  toolCallId : Option ToolCallId
  deriving DecidableEq, Repr

structure ContextCompactionStarted where
  level : ContextLevel
  reason : String
  deriving DecidableEq, Repr

structure ContextCompactionCompleted where
  level : ContextLevel
  removedMessages : Nat
  retainedMessages : Nat
  contextEpoch : Nat
  deriving DecidableEq, Repr

/-- One structural compaction, as a journal fact: what the epoch replaced, in
sequence coordinates. -/
structure ContextCompactionEpoch where
  contextEpoch : Nat
  replacesFrom : EventSeq
  replacesThrough : EventSeq
  summary : Option BlobRef
  deriving DecidableEq, Repr

structure CheckpointCreated where
  checkpointId : CheckpointId
  capsuleVersion : Nat
  summarizedEvents : Nat
  path : String
  contextEpoch : Nat
  deriving DecidableEq, Repr

/-- The events the trace, the session log and their validators know. -/
inductive AgentEvent where
  | sessionStarted (event : SessionStarted)
  | userMessage (event : UserMessage)
  | modelRequestStarted (event : ModelRequestStarted)
  | reasoningDelta (event : ReasoningDelta)
  | assistantDelta (event : AssistantDelta)
  | modelRequestCompleted (event : ModelRequestCompleted)
  | modelRetry (event : ModelRetry)
  | modelFailover (event : ModelFailover)
  | modelEpochStarted (event : ModelEpochStarted)
  | toolRequested (event : ToolRequested)
  | toolStarted (event : ToolStarted)
  | toolCompleted (event : ToolCompleted)
  | toolFailed (event : ToolFailed)
  | toolUnknown (event : ToolUnknown)
  | externalContextRetrieved (event : ExternalContextRetrieved)
  | contextReduced (event : ContextReduced)
  | contextCompactionStarted (event : ContextCompactionStarted)
  | contextCompactionCompleted (event : ContextCompactionCompleted)
  | contextSummary
  | contextCompactionEpoch (event : ContextCompactionEpoch)
  | checkpointCreated (event : CheckpointCreated)
  | turnCompleted (status : TurnStatus) (durationMs : Nat)
  | diagnostic (level : DiagnosticLevel) (message : String)
  | sessionEnded (reason : SessionEndReason)
  deriving DecidableEq, Repr

/-! ### Envelopes and trace lines -/

structure EventMeta where
  eventId : EventId
  sessionId : SessionId
  turnId : Option TurnId
  seq : Option EventSeq
  timestampMs : Nat
  modelEpoch : Option Nat
  model : Option ModelRef
  toolCallId : Option ToolCallId
  parentEventId : Option EventId
  traceId : TraceId
  spanId : SpanId
  deriving DecidableEq, Repr

structure EventEnvelope where
  v : Nat
  eventMeta : EventMeta
  event : AgentEvent
  deriving DecidableEq, Repr

/-- One field of a line whose value went to blob storage. -/
structure ExternalizedField where
  field : String
  reference : String
  bytes : Nat
  inline : Nat
  deriving DecidableEq, Repr

structure TraceEntry where
  envelope : EventEnvelope
  redactions : Nat
  rawPayload : Bool
  rawRef : Option String
  externalized : List ExternalizedField
  deriving DecidableEq, Repr

/-- Opt-in capture of raw provider payloads. -/
inductive RawPayloadCapture where
  | disabled | enabled
  deriving DecidableEq, Repr

def RawPayloadCapture.isEnabled : RawPayloadCapture → Bool
  | .enabled => true
  | .disabled => false

end Rupi
