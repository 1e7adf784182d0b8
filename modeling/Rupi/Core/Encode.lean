import Rupi.Core.Session

/-!
The durable form of an event: its JSON tree and the bytes of one line.

- `TraceEntry.toValue`: the tree `serde_json::to_value` builds for a trace line,
  with the envelope and the event flattened into it.
- `compactLine`: the compact text of a tree; `newline_notMem_compactLine` is why
  one entry is one line.
- `lineSeq_toValue`: a line carries the sequence number of its entry.
-/

namespace Rupi

namespace Value

/-- An object from the fields that are present. -/
def ofObject (fields : List (String × Option Value)) : Value := object (ofFields fields)

def ofNat (n : Nat) : Value := int n

/-- A field that is written only when it has a value. -/
def optional (encode : α → Value) (value : Option α) : Option Value := value.map encode

/-- A field that is written as `null` when it has no value. -/
def nullable (encode : α → Value) (value : Option α) : Value := (value.map encode).getD null

/-- A unit variant of an enumeration. -/
abbrev tag (name : String) : Value := string name

/-- A variant with content, externally tagged. -/
def variant (name : String) (fields : List (String × Option Value)) : Value :=
  ofObject [(name, some (ofObject fields))]

end Value

open Value

/-! ### Parts of an event -/

def ModelRef.toValue (model : ModelRef) : Value := string model.asKey

def ReasoningProvenance.toValue : ReasoningProvenance → Value
  | .native => tag "native"
  | .providerSummary => tag "provider_summary"
  | .declared => tag "declared"
  | .reconstructed => tag "reconstructed"

def ToolExecutionState.toValue : ToolExecutionState → Value
  | .requested => tag "requested"
  | .started => tag "started"
  | .succeeded => tag "succeeded"
  | .failed => tag "failed"
  | .unknown => tag "unknown"

def ReasoningExposure.toValue : ReasoningExposure → Value
  | .none => tag "none"
  | .native => tag "native"
  | .providerSummary => tag "provider_summary"
  | .declared => tag "declared"

def ModelCapabilities.toValue (capabilities : ModelCapabilities) : Value :=
  ofObject
    [("text", some (bool capabilities.text)), ("images", some (bool capabilities.images)),
      ("tools", some (bool capabilities.tools)),
      ("exposed_reasoning", some capabilities.exposedReasoning.toValue),
      ("context_window", some (ofNat capabilities.contextWindow)),
      ("max_output_tokens", optional ofNat capabilities.maxOutputTokens)]

def EpochReason.toValue : EpochReason → Value
  | .initial => tag "initial"
  | .manualSwitch => tag "manual_switch"
  | .automaticFailover => tag "automatic_failover"
  | .manualSwitchBack => tag "manual_switch_back"

def ContextLevel.toValue : ContextLevel → Value
  | .l0Payload => tag "l0_payload"
  | .l1Ordinary => tag "l1_ordinary"
  | .l2Phase => tag "l2_phase"
  | .l3Checkpoint => tag "l3_checkpoint"

def ReductionReason.toValue : ReductionReason → Value
  | .oversizedToolOutput n => variant "oversized_tool_output" [("limit_bytes", some (ofNat n))]
  | .recentTargetExceeded n => variant "recent_target_exceeded" [("target_tokens", some (ofNat n))]
  | .externalContextTooLarge n =>
    variant "external_context_too_large" [("limit_bytes", some (ofNat n))]
  | .userRequested => tag "user_requested"

def ModelFailureKind.toValue : ModelFailureKind → Value
  | .transport => tag "transport"
  | .timeout => tag "timeout"
  | .rateLimited => tag "rate_limited"
  | .providerUnavailable => tag "provider_unavailable"
  | .authentication => tag "authentication"
  | .protocol => tag "protocol"
  | .contextOverflow => tag "context_overflow"
  | .semantic => tag "semantic"
  | .cancelled => tag "cancelled"

def TurnStatus.toValue : TurnStatus → Value
  | .completed => tag "completed"
  | .cancelled => tag "cancelled"
  | .budgetExhausted => tag "budget_exhausted"
  | .failed kind => variant "failed" [("kind", some kind.toValue)]

def DiagnosticLevel.toValue : DiagnosticLevel → Value
  | .info => tag "info"
  | .warn => tag "warn"
  | .error => tag "error"

def SessionEndReason.toValue : SessionEndReason → Value
  | .userExit => tag "user_exit"
  | .restart => tag "restart"
  | .fatal message => variant "fatal" [("message", some (string message))]
  | .interrupted message => variant "interrupted" [("message", some (string message))]

def CapabilityGap.toValue : CapabilityGap → Value
  | .text => ofObject [("kind", some (tag "text"))]
  | .images => ofObject [("kind", some (tag "images"))]
  | .tools => ofObject [("kind", some (tag "tools"))]
  | .contextWindow required available =>
    ofObject
      [("kind", some (tag "context_window")), ("required", some (ofNat required)),
        ("available", some (ofNat available))]

def BlobCompression.toValue : BlobCompression → Value
  | .none => tag "none"
  | .deflate => tag "deflate"

def BlobRef.toValue (blob : BlobRef) : Value :=
  ofObject
    [("hash", some (string blob.hash)), ("size", some (ofNat blob.size)),
      ("content_type", optional string blob.contentType),
      ("compression",
        if blob.compression = .none then none else some blob.compression.toValue)]

def ExternalContextSource.toValue (source : ExternalContextSource) : Value :=
  ofObject
    [("provider", some (string source.provider)),
      ("resource_id", some (string source.resourceId)),
      ("provenance", some (string source.provenance))]

/-- A map of strings, left out when it is empty. -/
def metadataValue (metadata : List (String × String)) : Option Value :=
  if metadata.isEmpty then none
  else some (ofObject (metadata.map fun entry => (entry.1, some (string entry.2))))

/-- A counter that is left out when it is zero. -/
def countValue (n : Nat) : Option Value := if n = 0 then none else some (ofNat n)

/-! ### Events -/

/-- The fields an event adds to its line, its `type` first. -/
def AgentEvent.fields : AgentEvent → List (String × Option Value)
  | .sessionStarted e =>
    [("type", some (tag "session_started")), ("working_dir", some (string e.workingDir)),
      ("model", some e.model.toValue), ("capabilities", some e.capabilities.toValue),
      ("resumed", some (bool e.resumed))]
  | .userMessage e =>
    [("type", some (tag "user_message")), ("text", some (string e.text)),
      ("attachments", some (ofNat e.attachments))]
  | .modelRequestStarted e =>
    [("type", some (tag "model_request_started")), ("epoch", some (ofNat e.epoch)),
      ("model", some e.model.toValue), ("message_count", some (ofNat e.messageCount)),
      ("context_tokens_est", some (ofNat e.contextTokensEst)),
      ("tools_exposed", some (ofNat e.toolsExposed))]
  | .reasoningDelta e =>
    [("type", some (tag "reasoning_delta")), ("text", some (string e.text)),
      ("provenance", some e.provenance.toValue), ("chunk_index", some (ofNat e.chunkIndex))]
  | .assistantDelta e =>
    [("type", some (tag "assistant_delta")), ("text", some (string e.text)),
      ("chunk_index", some (ofNat e.chunkIndex))]
  | .modelRequestCompleted e =>
    [("type", some (tag "model_request_completed")), ("epoch", some (ofNat e.epoch)),
      ("model", some e.model.toValue), ("finish_reason", optional string e.finishReason),
      ("input_tokens", optional ofNat e.inputTokens),
      ("uncached_input_tokens", optional ofNat e.uncachedInputTokens),
      ("logical_prompt_tokens", optional ofNat e.logicalPromptTokens),
      ("cache_read_tokens", optional ofNat e.cacheReadTokens),
      ("cache_write_tokens", optional ofNat e.cacheWriteTokens),
      ("output_tokens", optional ofNat e.outputTokens),
      ("provider_total_tokens", optional ofNat e.providerTotalTokens),
      ("duration_ms", some (ofNat e.durationMs)), ("tool_calls", some (ofNat e.toolCalls)),
      ("reasoning_provenance", optional ReasoningProvenance.toValue e.reasoningProvenance),
      ("first_delta_ms", optional ofNat e.firstDeltaMs)]
  | .modelRetry e =>
    [("type", some (tag "model_retry")), ("attempt", some (ofNat e.attempt)),
      ("max_attempts", some (ofNat e.maxAttempts)), ("kind", some e.kind.toValue),
      ("retry_after_ms", optional ofNat e.retryAfterMs),
      ("will_failover", some (bool e.willFailover))]
  | .modelFailover e =>
    [("type", some (tag "model_failover")), ("from", some e.source.toValue),
      ("to", some e.target.toValue), ("kind", some e.kind.toValue),
      ("gaps", some (array (e.gaps.map CapabilityGap.toValue))),
      ("compacted", some (bool e.compacted))]
  | .modelEpochStarted e =>
    [("type", some (tag "model_epoch_started")), ("epoch", some (ofNat e.epoch)),
      ("model", some e.model.toValue), ("reason", some e.reason.toValue),
      ("capabilities", some e.capabilities.toValue)]
  | .toolRequested e =>
    [("type", some (tag "tool_requested")), ("call_id", some (string e.callId)),
      ("name", some (string e.name)), ("arguments", some e.arguments),
      ("read_only", some (bool e.readOnly))]
  | .toolStarted e =>
    [("type", some (tag "tool_started")), ("call_id", some (string e.callId)),
      ("name", some (string e.name))]
  | .toolCompleted e =>
    [("type", some (tag "tool_completed")), ("call_id", some (string e.callId)),
      ("name", some (string e.name)), ("state", some e.state.toValue),
      ("duration_ms", some (ofNat e.durationMs)), ("status", optional int e.status),
      ("reduced", some (bool e.reduced)), ("blob", optional BlobRef.toValue e.blob),
      ("visible_bytes", some (ofNat e.visibleBytes))]
  | .toolFailed e =>
    [("type", some (tag "tool_failed")), ("call_id", some (string e.callId)),
      ("name", some (string e.name)), ("message", some (string e.message)),
      ("duration_ms", some (ofNat e.durationMs)), ("status", optional int e.status)]
  | .toolUnknown e =>
    [("type", some (tag "tool_unknown")), ("call_id", some (string e.callId)),
      ("name", some (string e.name)), ("why", some (string e.why)),
      ("mutating", some (bool e.mutating))]
  | .externalContextRetrieved e =>
    [("type", some (tag "external_context_retrieved")), ("source", some e.source.toValue),
      ("citation", some (nullable string e.citation)), ("bytes", some (ofNat e.bytes)),
      ("inline", some (bool e.inline)), ("metadata", metadataValue e.metadata)]
  | .contextReduced e =>
    [("type", some (tag "context_reduced")), ("reason", some e.reason.toValue),
      ("original_bytes", some (ofNat e.originalBytes)),
      ("visible_bytes", some (ofNat e.visibleBytes)),
      ("removed_messages", countValue e.removedMessages),
      ("retained_messages", countValue e.retainedMessages),
      ("blob", optional BlobRef.toValue e.blob), ("recovery_ref", optional string e.recoveryRef),
      ("tool_call_id", optional string e.toolCallId)]
  | .contextCompactionStarted e =>
    [("type", some (tag "context_compaction_started")), ("level", some e.level.toValue),
      ("reason", some (string e.reason))]
  | .contextCompactionCompleted e =>
    [("type", some (tag "context_compaction_completed")), ("level", some e.level.toValue),
      ("removed_messages", some (ofNat e.removedMessages)),
      ("retained_messages", some (ofNat e.retainedMessages)),
      ("context_epoch", some (ofNat e.contextEpoch))]
  | .contextSummary => [("type", some (tag "context_summary"))]
  | .contextCompactionEpoch e =>
    [("type", some (tag "context_compaction_epoch")),
      ("context_epoch", some (ofNat e.contextEpoch)),
      ("replaces_from", some (ofNat e.replacesFrom)),
      ("replaces_through", some (ofNat e.replacesThrough)),
      ("summary", some (nullable BlobRef.toValue e.summary))]
  | .checkpointCreated e =>
    [("type", some (tag "checkpoint_created")), ("checkpoint_id", some (string e.checkpointId)),
      ("capsule_version", some (ofNat e.capsuleVersion)),
      ("summarized_events", some (ofNat e.summarizedEvents)), ("path", some (string e.path)),
      ("context_epoch", some (ofNat e.contextEpoch))]
  | .turnCompleted status durationMs =>
    [("type", some (tag "turn_completed")), ("status", some status.toValue),
      ("duration_ms", some (ofNat durationMs))]
  | .diagnostic level message =>
    [("type", some (tag "diagnostic")), ("level", some level.toValue),
      ("message", some (string message))]
  | .sessionEnded reason =>
    [("type", some (tag "session_ended")), ("reason", some reason.toValue)]

def EventMeta.toValue (m : EventMeta) : Value :=
  ofObject
    [("seq", optional ofNat m.seq), ("event_id", some (string m.eventId)),
      ("session_id", some (string m.sessionId)), ("turn_id", optional string m.turnId),
      ("timestamp_ms", some (ofNat m.timestampMs)), ("model_epoch", optional ofNat m.modelEpoch),
      ("model", optional ModelRef.toValue m.model),
      ("tool_call_id", optional string m.toolCallId),
      ("parent_event_id", optional string m.parentEventId),
      ("trace_id", some (string m.traceId)), ("span_id", some (string m.spanId))]

def ExternalizedField.toValue (field : ExternalizedField) : Value :=
  ofObject
    [("field", some (string field.field)), ("reference", some (string field.reference)),
      ("bytes", some (ofNat field.bytes)), ("inline", some (ofNat field.inline))]

def externalizedValue (fields : List ExternalizedField) : Value :=
  array (fields.map ExternalizedField.toValue)

/-- The tree of one trace line. -/
def TraceEntry.toValue (entry : TraceEntry) : Value :=
  ofObject
    ([("meta", some entry.envelope.eventMeta.toValue), ("v", some (ofNat entry.envelope.v))] ++
      entry.envelope.event.fields ++
      [("redactions", countValue entry.redactions),
        ("raw_payload", if entry.rawPayload then some (bool true) else none),
        ("raw_ref", optional string entry.rawRef),
        ("externalized",
          if entry.externalized.isEmpty then none
          else some (externalizedValue entry.externalized))])

/-- The sequence number a line carries. -/
def lineSeq (line : Value) : Option EventSeq :=
  match (line.get "meta").bind (·.get "seq") with
  | some (int n) => some n.toNat
  | _ => none

lemma lineSeq_toValue {entry : TraceEntry} {seq : EventSeq}
    (h : entry.envelope.eventMeta.seq = some seq) : lineSeq entry.toValue = some seq := by
  simp [lineSeq, TraceEntry.toValue, EventMeta.toValue, ofObject, ofFields, Value.optional, h,
    Value.ofNat]

/-! ### Bytes of a line -/

/-- A hexadecimal digit, in lower case. -/
def hexDigit (n : Nat) : Char := if n < 10 then Char.ofNat (48 + n) else Char.ofNat (87 + n)

/-- The JSON escape of one symbol of a string. -/
def escapeChar (c : Char) : List Char :=
  if c = '"' then ['\\', '"']
  else if c = '\\' then ['\\', '\\']
  else if c = '\n' then ['\\', 'n']
  else if c = '\r' then ['\\', 'r']
  else if c = '\t' then ['\\', 't']
  else if c.toNat = 8 then ['\\', 'b']
  else if c.toNat = 12 then ['\\', 'f']
  else if c.toNat < 32 then
    ['\\', 'u', '0', '0', hexDigit (c.toNat / 16), hexDigit (c.toNat % 16)]
  else [c]

/-- A JSON string literal. -/
def quoted (text : String) : List Char := '"' :: (text.toList.flatMap escapeChar ++ ['"'])

namespace Value

mutual

/-- The compact JSON text of a tree. -/
def print : Value → List Char
  | null => "null".toList
  | bool true => "true".toList
  | bool false => "false".toList
  | int (.ofNat n) => n.repr.toList
  | int (.negSucc n) => '-' :: (n + 1).repr.toList
  | float literal => literal.text.toList
  | string text => quoted text
  | array items => '[' :: (printItems items ++ [']'])
  | object fields => '\x7b' :: (printFields fields ++ ['\x7d'])

def printItems : List Value → List Char
  | [] => []
  | [value] => print value
  | value :: items => print value ++ ',' :: printItems items

def printFields : List (String × Value) → List Char
  | [] => []
  | [(key, value)] => quoted key ++ ':' :: print value
  | (key, value) :: fields => quoted key ++ ':' :: (print value ++ ',' :: printFields fields)

end

end Value

/-! ### One entry is one line -/

lemma newline_notMem_escapeChar (c : Char) : '\n' ∉ escapeChar c := by
  have hhex : ∀ n, n < 16 → hexDigit n ≠ '\n' := by decide
  unfold escapeChar
  repeat' split
  all_goals try simp
  · rename_i hlt
    exact ⟨(hhex _ (by omega)).symm, (hhex _ (by omega)).symm⟩
  · rename_i hnl _ _ _ _ _
    exact fun h => hnl h.symm

lemma newline_notMem_quoted (text : String) : '\n' ∉ quoted text := by
  simp [quoted, newline_notMem_escapeChar]

lemma newline_notMem_repr (n : Nat) : '\n' ∉ n.repr.toList := by
  rw [Nat.toList_repr]
  intro hmem
  have hdigit := Nat.isDigit_of_mem_toDigits (by decide) (by decide) hmem
  exact absurd hdigit (by decide)

lemma newline_notMem_literal (literal : NumberLiteral) : '\n' ∉ literal.text.toList := by
  intro hmem
  have hnumber := List.all_eq_true.mp literal.isNumber _ hmem
  exact absurd hnumber (by decide)

namespace Value

mutual

lemma newline_notMem_print : ∀ value : Value, '\n' ∉ value.print
  | null => by decide
  | bool true => by decide
  | bool false => by decide
  | int (.ofNat n) => newline_notMem_repr n
  | int (.negSucc n) => by
      rw [print, List.mem_cons, not_or]
      exact ⟨by decide, newline_notMem_repr (n + 1)⟩
  | float literal => newline_notMem_literal literal
  | string text => newline_notMem_quoted text
  | array items => by
      have hitems := newline_notMem_printItems items
      simp [print, hitems]
  | object fields => by
      have hfields := newline_notMem_printFields fields
      simp [print, hfields]

lemma newline_notMem_printItems : ∀ items : List Value, '\n' ∉ printItems items
  | [] => by simp [printItems]
  | [value] => by
      rw [printItems]
      exact newline_notMem_print value
  | value :: other :: items => by
      have hvalue := newline_notMem_print value
      have hitems := newline_notMem_printItems (other :: items)
      rw [printItems]
      · simp [hvalue, hitems]
      · simp

lemma newline_notMem_printFields :
    ∀ fields : List (String × Value), '\n' ∉ printFields fields
  | [] => by simp [printFields]
  | [(key, value)] => by
      have hvalue := newline_notMem_print value
      rw [printFields]
      simp [newline_notMem_quoted, hvalue]
  | (key, value) :: other :: fields => by
      have hvalue := newline_notMem_print value
      have hfields := newline_notMem_printFields (other :: fields)
      rw [printFields]
      · simp [newline_notMem_quoted, hvalue, hfields]
      · simp

end

end Value

/-- The UTF-8 bytes of a text. -/
def utf8Bytes (text : List Char) : List UInt8 := text.flatMap String.utf8EncodeChar

lemma length_utf8Bytes (text : String) : (utf8Bytes text.toList).length = text.utf8ByteSize := by
  rw [← String.size_toByteArray, ← String.utf8Encode_toList, List.utf8Encode]
  simp [utf8Bytes]

lemma length_utf8Bytes_append (a b : List Char) :
    (utf8Bytes (a ++ b)).length = (utf8Bytes a).length + (utf8Bytes b).length := by
  simp [utf8Bytes]

/-- `compact_line`: the bytes of the compact text of a line. -/
def compactLine (line : Value) : List UInt8 := utf8Bytes line.print

/-- The byte of a line break. -/
def newline : UInt8 := 10

lemma newline_notMem_utf8EncodeChar {c : Char} (hc : c ≠ '\n') :
    newline ∉ String.utf8EncodeChar c := by
  have hval : c.val.toNat ≠ 10 := by
    intro h
    exact hc (Char.ext (UInt32.toNat.inj h))
  have hbyte : ∀ n : Nat, n < 256 → n ≠ 10 → ¬ newline = UInt8.ofNat n := by
    intro n hlt hne h
    have hn : (UInt8.ofNat n).toNat = 10 := by rw [← h]; rfl
    rw [UInt8.toNat_ofNat', Nat.mod_eq_of_lt hlt] at hn
    exact hne hn
  unfold String.utf8EncodeChar
  simp only
  repeat' split
  all_goals simp only [List.mem_cons, List.not_mem_nil, or_false, not_or]
  · exact hbyte _ (by omega) (by omega)
  · exact ⟨hbyte _ (by omega) (by omega), hbyte _ (by omega) (by omega)⟩
  · exact ⟨hbyte _ (by omega) (by omega), hbyte _ (by omega) (by omega),
      hbyte _ (by omega) (by omega)⟩
  · exact ⟨hbyte _ (by omega) (by omega), hbyte _ (by omega) (by omega),
      hbyte _ (by omega) (by omega), hbyte _ (by omega) (by omega)⟩

/-- A line holds no line break, so the entries of a journal are its lines. -/
theorem newline_notMem_compactLine (line : Value) : newline ∉ compactLine line := by
  intro hmem
  obtain ⟨c, hc, hbyte⟩ := List.mem_flatMap.mp hmem
  have hne : c ≠ '\n' := fun h => Value.newline_notMem_print line (h ▸ hc)
  exact newline_notMem_utf8EncodeChar hne hbyte

end Rupi
