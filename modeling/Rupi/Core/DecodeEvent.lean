import Rupi.Core.Decode

/-!
Reading an event, its envelope and a trace line back from JSON.

- `AgentEvent.ofValue`, `EventMeta.ofValue`, `TraceEntry.ofValue`: the readers.
- `ModelRef.parsed_iff`: the references that survive the `provider/model` form.
- `TraceEntry.modelRefs`: the references of a line.
- **`TraceEntry.ofValue_toValue_iff`**: a line reads back as it was written exactly
  when its references survive and its metadata is in map order.
-/

namespace Rupi

open Value

/-! ### Parts of an event -/

def ModelRef.ofValue (value : Value) : Option ModelRef := value.asText.bind ModelRef.parse

def ReasoningProvenance.ofValue : Value → Option ReasoningProvenance
  | string "native" => some native
  | string "provider_summary" => some providerSummary
  | string "declared" => some declared
  | string "reconstructed" => some reconstructed
  | _ => none

def ToolExecutionState.ofValue : Value → Option ToolExecutionState
  | string "requested" => some requested
  | string "started" => some started
  | string "succeeded" => some succeeded
  | string "failed" => some failed
  | string "unknown" => some unknown
  | _ => none

def ReasoningExposure.ofValue : Value → Option ReasoningExposure
  | string "none" => some none
  | string "native" => some native
  | string "provider_summary" => some providerSummary
  | string "declared" => some declared
  | _ => Option.none

def ModelCapabilities.ofValue (value : Value) : Option ModelCapabilities := do
  return {
    text := ← required asBool value "text"
    images := ← required asBool value "images"
    tools := ← required asBool value "tools"
    exposedReasoning := ← required ReasoningExposure.ofValue value "exposed_reasoning"
    contextWindow := ← required asNat value "context_window"
    maxOutputTokens := ← optionally asNat value "max_output_tokens" }

def EpochReason.ofValue : Value → Option EpochReason
  | string "initial" => some initial
  | string "manual_switch" => some manualSwitch
  | string "automatic_failover" => some automaticFailover
  | string "manual_switch_back" => some manualSwitchBack
  | _ => none

def ContextLevel.ofValue : Value → Option ContextLevel
  | string "l0_payload" => some l0Payload
  | string "l1_ordinary" => some l1Ordinary
  | string "l2_phase" => some l2Phase
  | string "l3_checkpoint" => some l3Checkpoint
  | _ => none

def ReductionReason.ofValue : Value → Option ReductionReason
  | string "user_requested" => some userRequested
  | object [("oversized_tool_output", content)] =>
    (required asNat content "limit_bytes").map oversizedToolOutput
  | object [("recent_target_exceeded", content)] =>
    (required asNat content "target_tokens").map recentTargetExceeded
  | object [("external_context_too_large", content)] =>
    (required asNat content "limit_bytes").map externalContextTooLarge
  | _ => none

def ModelFailureKind.ofValue : Value → Option ModelFailureKind
  | string "transport" => some transport
  | string "timeout" => some timeout
  | string "rate_limited" => some rateLimited
  | string "provider_unavailable" => some providerUnavailable
  | string "authentication" => some authentication
  | string "protocol" => some protocol
  | string "context_overflow" => some contextOverflow
  | string "semantic" => some semantic
  | string "cancelled" => some cancelled
  | _ => none

def TurnStatus.ofValue : Value → Option TurnStatus
  | string "completed" => some completed
  | string "cancelled" => some cancelled
  | string "budget_exhausted" => some budgetExhausted
  | object [("failed", content)] => (required ModelFailureKind.ofValue content "kind").map failed
  | _ => none

def DiagnosticLevel.ofValue : Value → Option DiagnosticLevel
  | string "info" => some info
  | string "warn" => some warn
  | string "error" => some error
  | _ => none

def SessionEndReason.ofValue : Value → Option SessionEndReason
  | string "user_exit" => some userExit
  | string "restart" => some restart
  | object [("fatal", content)] => (required asText content "message").map fatal
  | object [("interrupted", content)] => (required asText content "message").map interrupted
  | _ => none

def CapabilityGap.ofValue (value : Value) : Option CapabilityGap := do
  match ← required asText value "kind" with
  | "text" => return text
  | "images" => return images
  | "tools" => return tools
  | "context_window" =>
    return contextWindow (← required asNat value "required") (← required asNat value "available")
  | _ => none

def BlobCompression.ofValue : Value → Option BlobCompression
  | string "none" => some none
  | string "deflate" => some deflate
  | _ => Option.none

def BlobRef.ofValue (value : Value) : Option BlobRef := do
  return {
    hash := ← required asText value "hash"
    size := ← required asNat value "size"
    contentType := ← optionally asText value "content_type"
    compression := ← defaulted BlobCompression.ofValue .none value "compression" }

def ExternalContextSource.ofValue (value : Value) : Option ExternalContextSource := do
  return {
    provider := ← required asText value "provider"
    resourceId := ← required asText value "resource_id"
    provenance := ← required asText value "provenance" }

/-- A map of strings. -/
def readMetadata : Value → Option (List (String × String))
  | object fields => fields.mapM fun field => field.2.asText.map fun text => (field.1, text)
  | _ => none

/-! ### Events -/

def SessionStarted.ofValue (value : Value) : Option SessionStarted := do
  return {
    workingDir := ← required asText value "working_dir"
    model := ← required ModelRef.ofValue value "model"
    capabilities := ← required ModelCapabilities.ofValue value "capabilities"
    resumed := ← defaulted asBool false value "resumed" }

def UserMessage.ofValue (value : Value) : Option UserMessage := do
  return {
    text := ← required asText value "text"
    attachments := ← defaulted asNat 0 value "attachments" }

def ModelRequestStarted.ofValue (value : Value) : Option ModelRequestStarted := do
  return {
    epoch := ← required asNat value "epoch"
    model := ← required ModelRef.ofValue value "model"
    messageCount := ← required asNat value "message_count"
    contextTokensEst := ← required asNat value "context_tokens_est"
    toolsExposed := ← required asNat value "tools_exposed" }

def ReasoningDelta.ofValue (value : Value) : Option ReasoningDelta := do
  return {
    text := ← required asText value "text"
    provenance := ← required ReasoningProvenance.ofValue value "provenance"
    chunkIndex := ← required asNat value "chunk_index" }

def AssistantDelta.ofValue (value : Value) : Option AssistantDelta := do
  return {
    text := ← required asText value "text"
    chunkIndex := ← required asNat value "chunk_index" }

def ModelRequestCompleted.ofValue (value : Value) : Option ModelRequestCompleted := do
  return {
    epoch := ← required asNat value "epoch"
    model := ← required ModelRef.ofValue value "model"
    finishReason := ← optionally asText value "finish_reason"
    inputTokens := ← optionally asNat value "input_tokens"
    uncachedInputTokens := ← optionally asNat value "uncached_input_tokens"
    logicalPromptTokens := ← optionally asNat value "logical_prompt_tokens"
    cacheReadTokens := ← optionally asNat value "cache_read_tokens"
    cacheWriteTokens := ← optionally asNat value "cache_write_tokens"
    outputTokens := ← optionally asNat value "output_tokens"
    providerTotalTokens := ← optionally asNat value "provider_total_tokens"
    durationMs := ← required asNat value "duration_ms"
    toolCalls := ← required asNat value "tool_calls"
    reasoningProvenance := ← optionally ReasoningProvenance.ofValue value "reasoning_provenance"
    firstDeltaMs := ← optionally asNat value "first_delta_ms" }

def ModelRetry.ofValue (value : Value) : Option ModelRetry := do
  return {
    attempt := ← required asNat value "attempt"
    maxAttempts := ← required asNat value "max_attempts"
    kind := ← required ModelFailureKind.ofValue value "kind"
    retryAfterMs := ← optionally asNat value "retry_after_ms"
    willFailover := ← defaulted asBool false value "will_failover" }

def ModelFailover.ofValue (value : Value) : Option ModelFailover := do
  return {
    source := ← required ModelRef.ofValue value "from"
    target := ← required ModelRef.ofValue value "to"
    kind := ← required ModelFailureKind.ofValue value "kind"
    gaps := ← defaulted (eachItem CapabilityGap.ofValue) [] value "gaps"
    compacted := ← defaulted asBool false value "compacted" }

def ModelEpochStarted.ofValue (value : Value) : Option ModelEpochStarted := do
  return {
    epoch := ← required asNat value "epoch"
    model := ← required ModelRef.ofValue value "model"
    reason := ← required EpochReason.ofValue value "reason"
    capabilities := ← required ModelCapabilities.ofValue value "capabilities" }

def ToolRequested.ofValue (value : Value) : Option ToolRequested := do
  return {
    callId := ← required asText value "call_id"
    name := ← required asText value "name"
    arguments := ← value.get "arguments"
    readOnly := ← defaulted asBool false value "read_only" }

def ToolStarted.ofValue (value : Value) : Option ToolStarted := do
  return {
    callId := ← required asText value "call_id"
    name := ← required asText value "name" }

def ToolCompleted.ofValue (value : Value) : Option ToolCompleted := do
  return {
    callId := ← required asText value "call_id"
    name := ← required asText value "name"
    state := ← required ToolExecutionState.ofValue value "state"
    durationMs := ← required asNat value "duration_ms"
    status := ← optionally asInt value "status"
    reduced := ← defaulted asBool false value "reduced"
    blob := ← optionally BlobRef.ofValue value "blob"
    visibleBytes := ← required asNat value "visible_bytes" }

def ToolFailed.ofValue (value : Value) : Option ToolFailed := do
  return {
    callId := ← required asText value "call_id"
    name := ← required asText value "name"
    message := ← required asText value "message"
    durationMs := ← required asNat value "duration_ms"
    status := ← optionally asInt value "status" }

def ToolUnknown.ofValue (value : Value) : Option ToolUnknown := do
  return {
    callId := ← required asText value "call_id"
    name := ← required asText value "name"
    why := ← required asText value "why"
    mutating := ← required asBool value "mutating" }

def ExternalContextRetrieved.ofValue (value : Value) : Option ExternalContextRetrieved := do
  return {
    source := ← required ExternalContextSource.ofValue value "source"
    citation := ← optionally asText value "citation"
    bytes := ← required asNat value "bytes"
    inline := ← required asBool value "inline"
    metadata := ← defaulted readMetadata [] value "metadata" }

def ContextReduced.ofValue (value : Value) : Option ContextReduced := do
  return {
    reason := ← required ReductionReason.ofValue value "reason"
    originalBytes := ← required asNat value "original_bytes"
    visibleBytes := ← required asNat value "visible_bytes"
    removedMessages := ← defaulted asNat 0 value "removed_messages"
    retainedMessages := ← defaulted asNat 0 value "retained_messages"
    blob := ← optionally BlobRef.ofValue value "blob"
    recoveryRef := ← optionally asText value "recovery_ref"
    toolCallId := ← optionally asText value "tool_call_id" }

def ContextCompactionStarted.ofValue (value : Value) : Option ContextCompactionStarted := do
  return {
    level := ← required ContextLevel.ofValue value "level"
    reason := ← required asText value "reason" }

def ContextCompactionCompleted.ofValue (value : Value) : Option ContextCompactionCompleted := do
  return {
    level := ← required ContextLevel.ofValue value "level"
    removedMessages := ← required asNat value "removed_messages"
    retainedMessages := ← required asNat value "retained_messages"
    contextEpoch := ← required asNat value "context_epoch" }

def ContextCompactionEpoch.ofValue (value : Value) : Option ContextCompactionEpoch := do
  return {
    contextEpoch := ← required asNat value "context_epoch"
    replacesFrom := ← required asNat value "replaces_from"
    replacesThrough := ← required asNat value "replaces_through"
    summary := ← optionally BlobRef.ofValue value "summary" }

def CheckpointCreated.ofValue (value : Value) : Option CheckpointCreated := do
  return {
    checkpointId := ← required asText value "checkpoint_id"
    capsuleVersion := ← required asNat value "capsule_version"
    summarizedEvents := ← required asNat value "summarized_events"
    path := ← required asText value "path"
    contextEpoch := ← defaulted asNat 0 value "context_epoch" }

/-- The event of a line with a given `type`. -/
def AgentEvent.ofTag : String → Value → Option AgentEvent
  | "session_started", value => (SessionStarted.ofValue value).map sessionStarted
  | "user_message", value => (UserMessage.ofValue value).map userMessage
  | "model_request_started", value => (ModelRequestStarted.ofValue value).map modelRequestStarted
  | "reasoning_delta", value => (ReasoningDelta.ofValue value).map reasoningDelta
  | "assistant_delta", value => (AssistantDelta.ofValue value).map assistantDelta
  | "model_request_completed", value =>
    (ModelRequestCompleted.ofValue value).map modelRequestCompleted
  | "model_retry", value => (ModelRetry.ofValue value).map modelRetry
  | "model_failover", value => (ModelFailover.ofValue value).map modelFailover
  | "model_epoch_started", value => (ModelEpochStarted.ofValue value).map modelEpochStarted
  | "tool_requested", value => (ToolRequested.ofValue value).map toolRequested
  | "tool_started", value => (ToolStarted.ofValue value).map toolStarted
  | "tool_completed", value => (ToolCompleted.ofValue value).map toolCompleted
  | "tool_failed", value => (ToolFailed.ofValue value).map toolFailed
  | "tool_unknown", value => (ToolUnknown.ofValue value).map toolUnknown
  | "external_context_retrieved", value =>
    (ExternalContextRetrieved.ofValue value).map externalContextRetrieved
  | "context_reduced", value => (ContextReduced.ofValue value).map contextReduced
  | "context_compaction_started", value =>
    (ContextCompactionStarted.ofValue value).map contextCompactionStarted
  | "context_compaction_completed", value =>
    (ContextCompactionCompleted.ofValue value).map contextCompactionCompleted
  | "context_summary", _ => some contextSummary
  | "context_compaction_epoch", value =>
    (ContextCompactionEpoch.ofValue value).map contextCompactionEpoch
  | "checkpoint_created", value => (CheckpointCreated.ofValue value).map checkpointCreated
  | "turn_completed", value => do
    return turnCompleted (← required TurnStatus.ofValue value "status")
      (← required asNat value "duration_ms")
  | "diagnostic", value => do
    return diagnostic (← required DiagnosticLevel.ofValue value "level")
      (← required asText value "message")
  | "session_ended", value =>
    (required SessionEndReason.ofValue value "reason").map sessionEnded
  | _, _ => none

/-- The event of a line. -/
def AgentEvent.ofValue (value : Value) : Option AgentEvent := do
  AgentEvent.ofTag (← required asText value "type") value

def EventMeta.ofValue (value : Value) : Option EventMeta := do
  return {
    eventId := ← required asText value "event_id"
    sessionId := ← required asText value "session_id"
    turnId := ← optionally asText value "turn_id"
    seq := ← optionally asNat value "seq"
    timestampMs := ← required asNat value "timestamp_ms"
    modelEpoch := ← optionally asNat value "model_epoch"
    model := ← optionally ModelRef.ofValue value "model"
    toolCallId := ← optionally asText value "tool_call_id"
    parentEventId := ← optionally asText value "parent_event_id"
    traceId := ← required asText value "trace_id"
    spanId := ← required asText value "span_id" }

def ExternalizedField.ofValue (value : Value) : Option ExternalizedField := do
  return {
    field := ← required asText value "field"
    reference := ← required asText value "reference"
    bytes := ← required asNat value "bytes"
    inline := ← required asNat value "inline" }

/-- A trace line. The envelope and the event are read from the line itself. -/
def TraceEntry.ofValue (value : Value) : Option TraceEntry := do
  return {
    envelope := {
      v := ← required asNat value "v"
      eventMeta := ← required EventMeta.ofValue value "meta"
      event := ← AgentEvent.ofValue value }
    redactions := ← defaulted asNat 0 value "redactions"
    rawPayload := ← defaulted asBool false value "raw_payload"
    rawRef := ← optionally asText value "raw_ref"
    externalized := ← defaulted (eachItem ExternalizedField.ofValue) [] value "externalized" }

/-! ### Round trips of the parts -/

lemma ReasoningProvenance.reads : Reads toValue ofValue := fun p => by cases p <;> rfl
lemma ToolExecutionState.reads : Reads toValue ofValue := fun s => by cases s <;> rfl
lemma ReasoningExposure.reads : Reads toValue ofValue := fun e => by cases e <;> rfl
lemma EpochReason.reads : Reads toValue ofValue := fun r => by cases r <;> rfl
lemma ContextLevel.reads : Reads toValue ofValue := fun l => by cases l <;> rfl
lemma ReductionReason.reads : Reads toValue ofValue := fun r => by cases r <;> rfl
lemma ModelFailureKind.reads : Reads toValue ofValue := fun k => by cases k <;> rfl
lemma DiagnosticLevel.reads : Reads toValue ofValue := fun l => by cases l <;> rfl
lemma SessionEndReason.reads : Reads toValue ofValue := fun r => by cases r <;> rfl
lemma BlobCompression.reads : Reads toValue ofValue := fun c => by cases c <;> rfl

lemma TurnStatus.reads : Reads toValue ofValue := by
  intro status
  cases status with
  | failed kind =>
    have hkind := ModelFailureKind.reads kind
    simp [toValue, variant, ofObject, ofFields, insertField, ofValue, required, Value.get, hkind]
  | _ => rfl

lemma ModelCapabilities.reads : Reads toValue ofValue := by
  intro capabilities
  have hexposed := ReasoningExposure.reads capabilities.exposedReasoning
  simp [toValue, ofValue, required, optionally, hexposed]

lemma CapabilityGap.reads : Reads toValue ofValue := by
  intro gap
  cases gap <;> simp [toValue, ofValue, required]

lemma BlobRef.reads : Reads toValue ofValue := by
  intro blob
  obtain ⟨hash, size, contentType, compression⟩ := blob
  cases compression <;>
    simp [toValue, ofValue, required, optionally, defaulted, readDefault, BlobCompression.toValue,
      BlobCompression.ofValue]

lemma ExternalContextSource.reads : Reads toValue ofValue := by
  intro source
  simp [toValue, ofValue, required]

lemma ExternalizedField.reads : Reads toValue ofValue := by
  intro field
  simp [toValue, ofValue, required]

@[simp] lemma readOptional_blob (blob : Option BlobRef) :
    readOptional BlobRef.ofValue (optional BlobRef.toValue blob) = some blob :=
  readOptional_optional (fun blob _ => BlobRef.reads blob) (by simp [BlobRef.toValue, ofObject])

@[simp] lemma readOptional_nullableBlob (blob : Option BlobRef) :
    readOptional BlobRef.ofValue (some (nullable BlobRef.toValue blob)) = some blob :=
  readOptional_nullable (fun blob _ => BlobRef.reads blob) (by simp [BlobRef.toValue, ofObject])

@[simp] lemma readOptional_provenance (provenance : Option ReasoningProvenance) :
    readOptional ReasoningProvenance.ofValue (optional ReasoningProvenance.toValue provenance) =
      some provenance :=
  readOptional_optional (fun p _ => ReasoningProvenance.reads p)
    (fun p => by cases p <;> simp [ReasoningProvenance.toValue])

/-! ### Metadata in map order -/

/-- Keys in the order of a map, none twice. -/
def InMapOrder (fields : List (String × α)) : Prop := fields.Pairwise fun a b => a.1 < b.1

instance (fields : List (String × α)) : Decidable (InMapOrder fields) :=
  inferInstanceAs (Decidable (List.Pairwise _ _))

/-- Different keys are in one order or the other. -/
lemma key_lt_of_not_lt {a b : String} (hne : a ≠ b) (hlt : ¬b < a) : a < b := by
  by_contra hnot
  exact hne (String.le_antisymm (String.not_lt.mp hlt) (String.not_lt.mp hnot))

lemma mem_insertField {key : String} {value : Value} {fields : List (String × Value)}
    {field : String × Value} (h : field ∈ insertField key value fields) :
    field.1 = key ∨ field ∈ fields := by
  induction fields with
  | nil =>
    rw [insertField, List.mem_singleton] at h
    exact Or.inl (congrArg Prod.fst h)
  | cons head fields ih =>
    rw [insertField] at h
    split_ifs at h with hsame hlt
    · rcases List.mem_cons.mp h with rfl | h
      · exact Or.inl rfl
      · exact Or.inr (List.mem_cons_of_mem _ h)
    · rcases List.mem_cons.mp h with rfl | h
      · exact Or.inl rfl
      · exact Or.inr h
    · rcases List.mem_cons.mp h with rfl | h
      · exact Or.inr List.mem_cons_self
      · exact (ih h).imp_right (List.mem_cons_of_mem _)

lemma inMapOrder_insertField {key : String} {value : Value} {fields : List (String × Value)}
    (h : InMapOrder fields) : InMapOrder (insertField key value fields) := by
  induction fields with
  | nil => simp [insertField, InMapOrder]
  | cons head fields ih =>
    obtain ⟨hhead, htail⟩ := List.pairwise_cons.mp h
    rw [insertField]
    split_ifs with hsame hlt
    · exact List.pairwise_cons.mpr ⟨fun b hb => hsame ▸ hhead b hb, htail⟩
    · refine List.pairwise_cons.mpr ⟨fun b hb => ?_, h⟩
      rcases List.mem_cons.mp hb with rfl | hb
      · exact hlt
      · exact String.lt_trans hlt (hhead b hb)
    · refine List.pairwise_cons.mpr ⟨fun b hb => ?_, ih htail⟩
      rcases mem_insertField hb with hkey | hb
      · rw [hkey]
        exact key_lt_of_not_lt hsame hlt
      · exact hhead b hb

/-- The fields of an object are in map order. -/
lemma inMapOrder_ofFields (fields : List (String × Option Value)) :
    InMapOrder (ofFields fields) := by
  induction fields with
  | nil => exact List.Pairwise.nil
  | cons field fields ih =>
    obtain ⟨key, value | value⟩ := field
    · exact ih
    · exact inMapOrder_insertField ih

/-- Fields that are in map order are the fields of their object. -/
lemma ofFields_eq_self {fields : List (String × Value)} (h : InMapOrder fields) :
    ofFields (fields.map fun field => (field.1, some field.2)) = fields := by
  induction fields with
  | nil => rfl
  | cons field fields ih =>
    obtain ⟨hhead, htail⟩ := List.pairwise_cons.mp h
    rw [List.map_cons, ofFields, ih htail]
    cases fields with
    | nil => rfl
    | cons next fields =>
      have hlt := hhead next List.mem_cons_self
      have hne : next.1 ≠ field.1 := fun heq => String.lt_irrefl _ (heq ▸ hlt)
      rw [insertField, if_neg hne, if_pos hlt]

lemma readMetadata_text (metadata : List (String × String)) :
    readMetadata (object (metadata.map fun entry => (entry.1, string entry.2))) = some metadata :=
  mapM_map_of_mem fun _ _ => rfl

/-- Metadata keeps the order of the fields it was read from. -/
lemma inMapOrder_of_readMetadata {fields : List (String × Value)}
    {metadata : List (String × String)} (h : readMetadata (object fields) = some metadata)
    (horder : InMapOrder fields) : InMapOrder metadata := by
  have hkeys : fields.map Prod.fst = metadata.map Prod.fst := by
    rw [readMetadata] at h
    clear horder
    induction fields generalizing metadata with
    | nil =>
      obtain rfl := Option.some.inj h
      rfl
    | cons field fields ih =>
      rw [List.mapM_cons] at h
      obtain ⟨entry, hentry, h⟩ := Option.bind_eq_some_iff.mp h
      obtain ⟨rest, hrest, h⟩ := Option.bind_eq_some_iff.mp h
      obtain rfl := Option.some.inj h
      obtain ⟨text, -, rfl⟩ := Option.map_eq_some_iff.mp hentry
      rw [List.map_cons, List.map_cons, ih hrest]
  have hpairs : (fields.map Prod.fst).Pairwise (· < ·) := List.pairwise_map.mpr horder
  rw [hkeys] at hpairs
  exact List.pairwise_map.mp hpairs

/-- Metadata reads back as it was written exactly when it is in map order. -/
lemma readDefault_metadata (metadata : List (String × String)) :
    readDefault readMetadata [] (metadataValue metadata) = some metadata ↔
      InMapOrder metadata := by
  rw [metadataValue]
  cases metadata with
  | nil => simp [readDefault, InMapOrder]
  | cons entry metadata =>
    rw [if_neg (by simp), readDefault_some, ofObject]
    constructor
    · intro hread
      exact inMapOrder_of_readMetadata hread (inMapOrder_ofFields _)
    · intro horder
      have htexts : InMapOrder ((entry :: metadata).map fun entry => (entry.1, string entry.2)) :=
        List.pairwise_map.mpr horder
      have hfields := ofFields_eq_self htexts
      rw [List.map_map] at hfields
      have htext := readMetadata_text (entry :: metadata)
      rwa [← hfields] at htext

/-! ### Model references -/

namespace ModelRef

/-- The halves of a key. -/
lemma parse_asKey_of_notMem {model : ModelRef} (h : '/' ∉ model.provider.toList) :
    parse model.asKey =
      if (trimChars model.provider.toList).isEmpty || (trimChars model.model.toList).isEmpty then none
      else some ⟨String.ofList (trimChars model.provider.toList),
        String.ofList (trimChars model.model.toList)⟩ := by
  have hkey : model.asKey.toList = model.provider.toList ++ '/' :: model.model.toList := by
    simp [asKey, String.toList_append]
  have hall : ∀ c ∈ model.provider.toList, (decide (c ≠ '/')) = true := by
    intro c hc
    exact decide_eq_true fun heq => h (heq ▸ hc)
  have htake : model.asKey.toList.takeWhile (· ≠ '/') = model.provider.toList := by
    rw [hkey, List.takeWhile_append_of_pos hall]
    simp
  have hdrop : model.asKey.toList.dropWhile (· ≠ '/') = '/' :: model.model.toList := by
    rw [hkey, List.dropWhile_append_of_pos hall]
    simp
  simp only [parse, htake, hdrop]

/-- What a line gave back is trimmed, and its provider has no separator. -/
lemma isTrimmed_of_parse {key : String} {model : ModelRef} (h : parse key = some model) :
    '/' ∉ model.provider.toList ∧ IsTrimmed model.provider ∧ IsTrimmed model.model := by
  rw [parse] at h
  cases hrest : key.toList.dropWhile (· ≠ '/') with
  | nil => simp only [hrest, reduceCtorEq] at h
  | cons slash rest =>
    simp only [hrest] at h
    split_ifs at h with hempty
    obtain rfl := Option.some.inj h
    obtain ⟨hprovider, hmodel⟩ : (trimChars (key.toList.takeWhile (· ≠ '/'))).isEmpty = false ∧
        (trimChars rest).isEmpty = false := by simpa using hempty
    refine ⟨fun hmem => ?_, isTrimmed_ofList hprovider, isTrimmed_ofList hmodel⟩
    rw [String.toList_ofList] at hmem
    have hslash := List.mem_takeWhile_imp (trimChars_subset hmem)
    simp at hslash

/-- **The references that survive the `provider/model` form**: both halves trimmed and
not empty, and no separator in the provider. -/
theorem parsed_iff (model : ModelRef) :
    model.Parsed ↔
      '/' ∉ model.provider.toList ∧ IsTrimmed model.provider ∧ IsTrimmed model.model := by
  constructor
  · exact isTrimmed_of_parse
  · rintro ⟨hslash, ⟨hprovider, hprovider'⟩, hmodel, hmodel'⟩
    have hnil : ∀ text : String, text ≠ "" → text.toList.isEmpty = false := by
      intro text htext
      rw [List.isEmpty_eq_false_iff]
      exact fun h => htext (String.toList_inj.mp h)
    rw [Parsed, parse_asKey_of_notMem hslash, hprovider, hmodel, hnil _ hprovider', hnil _ hmodel']
    simp

/-- What a line gave back survives another line. -/
lemma parsed_of_parse {key : String} {model : ModelRef} (h : parse key = some model) :
    model.Parsed :=
  (parsed_iff model).mpr (isTrimmed_of_parse h)

instance (model : ModelRef) : Decidable model.Parsed :=
  inferInstanceAs (Decidable (parse model.asKey = some model))

end ModelRef

lemma ModelRef.ofValue_toValue (model : ModelRef) :
    ModelRef.ofValue model.toValue = some model ↔ model.Parsed := Iff.rfl

lemma ModelRef.parsed_of_ofValue {value : Value} {model : ModelRef}
    (h : ModelRef.ofValue value = some model) : model.Parsed := by
  obtain ⟨key, -, hparse⟩ := Option.bind_eq_some_iff.mp h
  exact parsed_of_parse hparse

lemma ModelRef.parsed_of_required {value : Value} {key : String} {model : ModelRef}
    (h : required ModelRef.ofValue value key = some model) : model.Parsed := by
  obtain ⟨field, -, hfield⟩ := Option.bind_eq_some_iff.mp h
  exact parsed_of_ofValue hfield

/-! ### Round trip of an event -/

namespace AgentEvent

/-- The model references of an event. -/
def modelRefs : AgentEvent → List ModelRef
  | sessionStarted e => [e.model]
  | modelRequestStarted e => [e.model]
  | modelRequestCompleted e => [e.model]
  | modelFailover e => [e.source, e.target]
  | modelEpochStarted e => [e.model]
  | _ => []

/-- The metadata of an event. -/
def metadata : AgentEvent → List (String × String)
  | externalContextRetrieved e => e.metadata
  | _ => []

/-- A line with a `type` is read the way the type says. -/
lemma carries_type {value : Value} {type : String} {rest : List (String × Option Value)}
    (h : value.Carries (("type", some (tag type)) :: rest)) :
    ofValue value = ofTag type value ∧ value.Carries rest := by
  obtain ⟨htype, hrest⟩ := (carries_cons _ _ _ _).mp h
  refine ⟨?_, hrest⟩
  rw [ofValue, required, htype]
  rfl

/-- A line that carries the fields of an event reads back as the event. -/
theorem ofValue_of_carries {event : AgentEvent} {value : Value}
    (hcarries : value.Carries event.fields) (hrefs : ∀ model ∈ event.modelRefs, model.Parsed)
    (horder : InMapOrder event.metadata) : ofValue value = some event := by
  cases event with
  | sessionStarted e =>
    obtain ⟨htag, hfields⟩ := carries_type hcarries
    have hmodel := (ModelRef.ofValue_toValue e.model).mpr (hrefs _ (by simp [modelRefs]))
    have hcapabilities := ModelCapabilities.reads e.capabilities
    simp only [carries_cons] at hfields
    rw [htag, ofTag]
    simp [SessionStarted.ofValue, required, defaulted, hfields, hmodel, hcapabilities]
  | userMessage e =>
    obtain ⟨htag, hfields⟩ := carries_type hcarries
    simp only [carries_cons] at hfields
    rw [htag, ofTag]
    simp [UserMessage.ofValue, required, defaulted, hfields]
  | modelRequestStarted e =>
    obtain ⟨htag, hfields⟩ := carries_type hcarries
    have hmodel := (ModelRef.ofValue_toValue e.model).mpr (hrefs _ (by simp [modelRefs]))
    simp only [carries_cons] at hfields
    rw [htag, ofTag]
    simp [ModelRequestStarted.ofValue, required, hfields, hmodel]
  | reasoningDelta e =>
    obtain ⟨htag, hfields⟩ := carries_type hcarries
    have hprovenance := ReasoningProvenance.reads e.provenance
    simp only [carries_cons] at hfields
    rw [htag, ofTag]
    simp [ReasoningDelta.ofValue, required, hfields, hprovenance]
  | assistantDelta e =>
    obtain ⟨htag, hfields⟩ := carries_type hcarries
    simp only [carries_cons] at hfields
    rw [htag, ofTag]
    simp [AssistantDelta.ofValue, required, hfields]
  | modelRequestCompleted e =>
    obtain ⟨htag, hfields⟩ := carries_type hcarries
    have hmodel := (ModelRef.ofValue_toValue e.model).mpr (hrefs _ (by simp [modelRefs]))
    simp only [carries_cons] at hfields
    rw [htag, ofTag]
    simp [ModelRequestCompleted.ofValue, required, optionally, hfields, hmodel]
  | modelRetry e =>
    obtain ⟨htag, hfields⟩ := carries_type hcarries
    have hkind := ModelFailureKind.reads e.kind
    simp only [carries_cons] at hfields
    rw [htag, ofTag]
    simp [ModelRetry.ofValue, required, optionally, defaulted, hfields, hkind]
  | modelFailover e =>
    obtain ⟨htag, hfields⟩ := carries_type hcarries
    have hsource := (ModelRef.ofValue_toValue e.source).mpr (hrefs _ (by simp [modelRefs]))
    have htarget := (ModelRef.ofValue_toValue e.target).mpr (hrefs _ (by simp [modelRefs]))
    have hkind := ModelFailureKind.reads e.kind
    have hgaps := CapabilityGap.reads.eachItem e.gaps
    simp only [carries_cons] at hfields
    rw [htag, ofTag]
    simp [ModelFailover.ofValue, required, defaulted, hfields, hsource, htarget,
      hkind, hgaps]
  | modelEpochStarted e =>
    obtain ⟨htag, hfields⟩ := carries_type hcarries
    have hmodel := (ModelRef.ofValue_toValue e.model).mpr (hrefs _ (by simp [modelRefs]))
    have hreason := EpochReason.reads e.reason
    have hcapabilities := ModelCapabilities.reads e.capabilities
    simp only [carries_cons] at hfields
    rw [htag, ofTag]
    simp [ModelEpochStarted.ofValue, required, hfields, hmodel, hreason,
      hcapabilities]
  | toolRequested e =>
    obtain ⟨htag, hfields⟩ := carries_type hcarries
    simp only [carries_cons] at hfields
    rw [htag, ofTag]
    simp [ToolRequested.ofValue, required, defaulted, hfields]
  | toolStarted e =>
    obtain ⟨htag, hfields⟩ := carries_type hcarries
    simp only [carries_cons] at hfields
    rw [htag, ofTag]
    simp [ToolStarted.ofValue, required, hfields]
  | toolCompleted e =>
    obtain ⟨htag, hfields⟩ := carries_type hcarries
    have hstate := ToolExecutionState.reads e.state
    simp only [carries_cons] at hfields
    rw [htag, ofTag]
    simp [ToolCompleted.ofValue, required, optionally, defaulted, hfields, hstate]
  | toolFailed e =>
    obtain ⟨htag, hfields⟩ := carries_type hcarries
    simp only [carries_cons] at hfields
    rw [htag, ofTag]
    simp [ToolFailed.ofValue, required, optionally, hfields]
  | toolUnknown e =>
    obtain ⟨htag, hfields⟩ := carries_type hcarries
    simp only [carries_cons] at hfields
    rw [htag, ofTag]
    simp [ToolUnknown.ofValue, required, hfields]
  | externalContextRetrieved e =>
    obtain ⟨htag, hfields⟩ := carries_type hcarries
    have hsource := ExternalContextSource.reads e.source
    have hmetadata := (readDefault_metadata e.metadata).mpr horder
    simp only [carries_cons] at hfields
    rw [htag, ofTag]
    simp [ExternalContextRetrieved.ofValue, required, optionally, defaulted, hfields, hsource,
      hmetadata]
  | contextReduced e =>
    obtain ⟨htag, hfields⟩ := carries_type hcarries
    have hreason := ReductionReason.reads e.reason
    simp only [carries_cons] at hfields
    rw [htag, ofTag]
    simp [ContextReduced.ofValue, required, optionally, defaulted, hfields, hreason]
  | contextCompactionStarted e =>
    obtain ⟨htag, hfields⟩ := carries_type hcarries
    have hlevel := ContextLevel.reads e.level
    simp only [carries_cons] at hfields
    rw [htag, ofTag]
    simp [ContextCompactionStarted.ofValue, required, hfields, hlevel]
  | contextCompactionCompleted e =>
    obtain ⟨htag, hfields⟩ := carries_type hcarries
    have hlevel := ContextLevel.reads e.level
    simp only [carries_cons] at hfields
    rw [htag, ofTag]
    simp [ContextCompactionCompleted.ofValue, required, hfields, hlevel]
  | contextSummary =>
    obtain ⟨htag, -⟩ := carries_type hcarries
    rw [htag, ofTag]
  | contextCompactionEpoch e =>
    obtain ⟨htag, hfields⟩ := carries_type hcarries
    simp only [carries_cons] at hfields
    rw [htag, ofTag]
    simp [ContextCompactionEpoch.ofValue, required, optionally, hfields]
  | checkpointCreated e =>
    obtain ⟨htag, hfields⟩ := carries_type hcarries
    simp only [carries_cons] at hfields
    rw [htag, ofTag]
    simp [CheckpointCreated.ofValue, required, defaulted, hfields]
  | turnCompleted status durationMs =>
    obtain ⟨htag, hfields⟩ := carries_type hcarries
    have hstatus := TurnStatus.reads status
    simp only [carries_cons] at hfields
    rw [htag, ofTag]
    simp [required, hfields, hstatus]
  | diagnostic level message =>
    obtain ⟨htag, hfields⟩ := carries_type hcarries
    have hlevel := DiagnosticLevel.reads level
    simp only [carries_cons] at hfields
    rw [htag, ofTag]
    simp [required, hfields, hlevel]
  | sessionEnded reason =>
    obtain ⟨htag, hfields⟩ := carries_type hcarries
    have hreason := SessionEndReason.reads reason
    simp only [carries_cons] at hfields
    rw [htag, ofTag]
    simp [required, hfields, hreason]

end AgentEvent

/-! ### What was read survives another line -/

lemma SessionStarted.parsed_of_ofValue {value : Value} {e : SessionStarted}
    (h : SessionStarted.ofValue value = some e) : e.model.Parsed := by
  simp only [SessionStarted.ofValue, Option.bind_eq_bind, Option.bind_eq_some_iff] at h
  obtain ⟨_, -, model, hmodel, _, -, _, -, h⟩ := h
  obtain rfl := Option.some.inj h
  exact ModelRef.parsed_of_required hmodel

lemma ModelRequestStarted.parsed_of_ofValue {value : Value} {e : ModelRequestStarted}
    (h : ModelRequestStarted.ofValue value = some e) : e.model.Parsed := by
  simp only [ModelRequestStarted.ofValue, Option.bind_eq_bind, Option.bind_eq_some_iff] at h
  obtain ⟨_, -, model, hmodel, _, -, _, -, _, -, h⟩ := h
  obtain rfl := Option.some.inj h
  exact ModelRef.parsed_of_required hmodel

lemma ModelRequestCompleted.parsed_of_ofValue {value : Value} {e : ModelRequestCompleted}
    (h : ModelRequestCompleted.ofValue value = some e) : e.model.Parsed := by
  obtain ⟨_, -, h⟩ := Option.bind_eq_some_iff.mp h
  obtain ⟨model, hmodel, h⟩ := Option.bind_eq_some_iff.mp h
  iterate 12 obtain ⟨_, -, h⟩ := Option.bind_eq_some_iff.mp h
  obtain rfl := Option.some.inj h
  exact ModelRef.parsed_of_required hmodel

lemma ModelFailover.parsed_of_ofValue {value : Value} {e : ModelFailover}
    (h : ModelFailover.ofValue value = some e) : e.source.Parsed ∧ e.target.Parsed := by
  simp only [ModelFailover.ofValue, Option.bind_eq_bind, Option.bind_eq_some_iff] at h
  obtain ⟨source, hsource, target, htarget, _, -, _, -, _, -, h⟩ := h
  obtain rfl := Option.some.inj h
  exact ⟨ModelRef.parsed_of_required hsource, ModelRef.parsed_of_required htarget⟩

lemma ModelEpochStarted.parsed_of_ofValue {value : Value} {e : ModelEpochStarted}
    (h : ModelEpochStarted.ofValue value = some e) : e.model.Parsed := by
  simp only [ModelEpochStarted.ofValue, Option.bind_eq_bind, Option.bind_eq_some_iff] at h
  obtain ⟨_, -, model, hmodel, _, -, _, -, h⟩ := h
  obtain rfl := Option.some.inj h
  exact ModelRef.parsed_of_required hmodel

namespace AgentEvent

/-- The references of an event that was read survive another line. -/
lemma parsed_of_ofTag {type : String} {value : Value} {event : AgentEvent}
    (h : ofTag type value = some event) : ∀ model ∈ event.modelRefs, model.Parsed := by
  unfold ofTag at h
  split at h
  case h_1 =>
    obtain ⟨e, he, rfl⟩ := Option.map_eq_some_iff.mp h
    simpa [modelRefs] using SessionStarted.parsed_of_ofValue he
  case h_3 =>
    obtain ⟨e, he, rfl⟩ := Option.map_eq_some_iff.mp h
    simpa [modelRefs] using ModelRequestStarted.parsed_of_ofValue he
  case h_6 =>
    obtain ⟨e, he, rfl⟩ := Option.map_eq_some_iff.mp h
    simpa [modelRefs] using ModelRequestCompleted.parsed_of_ofValue he
  case h_8 =>
    obtain ⟨e, he, rfl⟩ := Option.map_eq_some_iff.mp h
    simpa [modelRefs] using ModelFailover.parsed_of_ofValue he
  case h_9 =>
    obtain ⟨e, he, rfl⟩ := Option.map_eq_some_iff.mp h
    simpa [modelRefs] using ModelEpochStarted.parsed_of_ofValue he
  case h_19 =>
    obtain rfl := Option.some.inj h
    simp [modelRefs]
  case h_22 =>
    simp only [Option.bind_eq_bind, Option.bind_eq_some_iff] at h
    obtain ⟨_, -, _, -, h⟩ := h
    obtain rfl := Option.some.inj h
    simp [modelRefs]
  case h_23 =>
    simp only [Option.bind_eq_bind, Option.bind_eq_some_iff] at h
    obtain ⟨_, -, _, -, h⟩ := h
    obtain rfl := Option.some.inj h
    simp [modelRefs]
  case h_25 => simp at h
  all_goals
    obtain ⟨e, -, rfl⟩ := Option.map_eq_some_iff.mp h
    simp [modelRefs]

lemma parsed_of_ofValue {value : Value} {event : AgentEvent} (h : ofValue value = some event) :
    ∀ model ∈ event.modelRefs, model.Parsed := by
  obtain ⟨type, -, htag⟩ := Option.bind_eq_some_iff.mp h
  exact parsed_of_ofTag htag

/-- An event that reads back from its own fields has metadata in map order. -/
lemma inMapOrder_of_ofValue {event : AgentEvent} {value : Value}
    (hcarries : value.Carries event.fields) (h : ofValue value = some event) :
    InMapOrder event.metadata := by
  cases event with
  | externalContextRetrieved e =>
    obtain ⟨htag, hfields⟩ := carries_type hcarries
    obtain ⟨e, he, heq⟩ := Option.map_eq_some_iff.mp (htag.symm.trans h)
    obtain rfl := AgentEvent.externalContextRetrieved.inj heq
    simp only [ExternalContextRetrieved.ofValue, Option.bind_eq_bind, Option.bind_eq_some_iff] at he
    obtain ⟨_, -, _, -, _, -, _, -, metadata, hmetadata, he⟩ := he
    obtain rfl := Option.some.inj he
    refine (readDefault_metadata metadata).mp ?_
    simp only [carries_cons] at hfields
    rw [defaulted, hfields.2.2.2.2.1] at hmetadata
    exact hmetadata
  | _ => exact List.Pairwise.nil

end AgentEvent

/-! ### Round trip of a line -/

lemma readOptional_model_iff (model : Option ModelRef) :
    readOptional ModelRef.ofValue (optional ModelRef.toValue model) = some model ↔
      ∀ m ∈ model, m.Parsed := by
  constructor
  · intro h m hm
    obtain rfl := Option.mem_def.mp hm
    obtain ⟨read, hread, heq⟩ := Option.map_eq_some_iff.mp h
    obtain rfl := Option.some.inj heq
    exact hread
  · intro h
    exact readOptional_optional (fun m hm => h m hm) (by simp [ModelRef.toValue])

/-- The envelope of a line reads back exactly when its model reference survives. -/
lemma EventMeta.ofValue_toValue_iff (m : EventMeta) :
    EventMeta.ofValue m.toValue = some m ↔ ∀ model ∈ m.model, model.Parsed := by
  rw [← readOptional_model_iff]
  constructor
  · intro h
    simp only [ofValue, Option.bind_eq_bind, Option.bind_eq_some_iff] at h
    obtain ⟨_, -, _, -, _, -, _, -, _, -, _, -, model, hmodel, _, -, _, -, _, -, _, -, h⟩ := h
    have hsame : model = m.model := congrArg EventMeta.model (Option.some.inj h)
    rw [hsame] at hmodel
    simpa [toValue, optionally] using hmodel
  · intro h
    simp [toValue, ofValue, required, optionally, h]

namespace TraceEntry

/-- The model references of a line. -/
def modelRefs (entry : TraceEntry) : List ModelRef :=
  entry.envelope.eventMeta.model.toList ++ entry.envelope.event.modelRefs

/-- The fields of a line. -/
def fields (entry : TraceEntry) : List (String × Option Value) :=
  [("meta", some entry.envelope.eventMeta.toValue), ("v", some (ofNat entry.envelope.v))] ++
    entry.envelope.event.fields ++
    [("redactions", countValue entry.redactions),
      ("raw_payload", if entry.rawPayload then some (bool true) else none),
      ("raw_ref", optional string entry.rawRef),
      ("externalized",
        if entry.externalized.isEmpty then none
        else some (externalizedValue entry.externalized))]

lemma toValue_eq (entry : TraceEntry) : entry.toValue = ofObject entry.fields := rfl

/-- The envelope, the event and the bookkeeping of a line have different keys. -/
lemma nodup_keys (entry : TraceEntry) : (entry.fields.map Prod.fst).Nodup := by
  rw [fields, List.map_append, List.map_append]
  cases entry.envelope.event <;> simp [AgentEvent.fields]

lemma carries (entry : TraceEntry) : entry.toValue.Carries entry.fields :=
  carries_ofObject entry.nodup_keys

lemma readDefault_externalized (fields : List ExternalizedField) :
    readDefault (eachItem ExternalizedField.ofValue) []
      (if fields.isEmpty then none else some (externalizedValue fields)) = some fields := by
  cases fields with
  | nil => rfl
  | cons field fields => exact ExternalizedField.reads.eachItem (field :: fields)

/-- A line that carries the fields of an entry reads back as the entry. -/
theorem ofValue_of_carries {value : Value} {entry : TraceEntry}
    (hcarries : value.Carries entry.fields) (hrefs : ∀ model ∈ entry.modelRefs, model.Parsed)
    (horder : InMapOrder entry.envelope.event.metadata) : ofValue value = some entry := by
  obtain ⟨hrest, hback⟩ := (carries_append _ _ _).mp hcarries
  obtain ⟨hfront, hevent⟩ := (carries_append _ _ _).mp hrest
  simp only [carries_cons] at hfront hback
  have hread := AgentEvent.ofValue_of_carries hevent
    (fun model hmodel => hrefs model (List.mem_append_right _ hmodel)) horder
  have hmeta := (EventMeta.ofValue_toValue_iff entry.envelope.eventMeta).mpr
    fun model hmodel => hrefs model (List.mem_append_left _ (Option.mem_toList.mpr hmodel))
  have hredactions : defaulted asNat 0 value "redactions" = some entry.redactions := by
    rw [defaulted, hback.1, readDefault_count]
  have hflag : defaulted asBool false value "raw_payload" = some entry.rawPayload := by
    rw [defaulted, hback.2.1, readDefault_flag]
  have hexternalized : defaulted (eachItem ExternalizedField.ofValue) [] value
      "externalized" = some entry.externalized := by
    rw [defaulted, hback.2.2.2.1, readDefault_externalized]
  simp [ofValue, required, optionally, hfront, hback.2.2.1, hread, hmeta, hredactions, hflag,
    hexternalized]

/-- **A trace line reads back as it was written** exactly when its model references
survive and its metadata is in map order. -/
theorem ofValue_toValue_iff (entry : TraceEntry) :
    ofValue entry.toValue = some entry ↔
      (∀ model ∈ entry.modelRefs, model.Parsed) ∧ InMapOrder entry.envelope.event.metadata := by
  constructor
  · intro h
    obtain ⟨hrest, -⟩ := (carries_append _ _ _).mp entry.carries
    obtain ⟨hfront, hevent⟩ := (carries_append _ _ _).mp hrest
    simp only [carries_cons] at hfront
    simp only [ofValue, Option.bind_eq_bind, Option.bind_eq_some_iff] at h
    obtain ⟨_, -, eventMeta, hmeta, event, hread, _, -, _, -, _, -, _, -, h⟩ := h
    have hsame := Option.some.inj h
    have hmetaEq : eventMeta = entry.envelope.eventMeta := congrArg (·.envelope.eventMeta) hsame
    have heventEq : event = entry.envelope.event := congrArg (·.envelope.event) hsame
    rw [required, hfront.1, Option.bind_some, hmetaEq,
      EventMeta.ofValue_toValue_iff] at hmeta
    rw [heventEq] at hread
    refine ⟨fun model hmodel => ?_, AgentEvent.inMapOrder_of_ofValue hevent hread⟩
    rcases List.mem_append.mp hmodel with hmodel | hmodel
    · exact hmeta model (Option.mem_toList.mp hmodel)
    · exact AgentEvent.parsed_of_ofValue hread model hmodel
  · rintro ⟨hrefs, horder⟩
    exact ofValue_of_carries entry.carries hrefs horder

end TraceEntry

end Rupi
