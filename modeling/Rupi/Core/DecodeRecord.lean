import Rupi.Core.DecodeEvent

/-!
The lines of the session log: the tree a record is written as, and its reader.

- `SessionRecord.toValue`, `SessionRecord.ofValue`: the two directions.
- `SessionRecord.modelRefs`: the model references of a record.
- **`SessionRecord.ofValue_toValue_iff`**: a record reads back as it was written
  exactly when its references survive and its metadata is in map order.
-/

namespace Rupi

open Value

/-! ### Writing -/

def SessionHeader.fields (header : SessionHeader) : List (String × Option Value) :=
  [("session_id", some (string header.sessionId)), ("version", some (ofNat header.version)),
    ("started_at_ms", some (ofNat header.startedAtMs)),
    ("working_dir", some (string header.workingDir)), ("model", some header.model.toValue),
    ("parent_session", optional string header.parentSession),
    ("branched_from_event", optional string header.branchedFromEvent),
    ("imported_from", optional string header.importedFrom)]

def SessionMessage.fields (record : SessionMessage) : List (String × Option Value) :=
  [("turn_id", some (string record.turnId)), ("role", some record.role.toValue),
    ("message", some record.message.toValue), ("epoch", some (ofNat record.epoch)),
    ("model", some record.model.toValue), ("event_id", some (string record.eventId)),
    ("seq", optional ofNat record.seq),
    ("external_context", optional ExternalContextRef.toValue record.externalContext)]

def SessionEpochRecord.fields (record : SessionEpochRecord) : List (String × Option Value) :=
  [("epoch", some (ofNat record.epoch)), ("model", some record.model.toValue),
    ("reason", some record.reason.toValue)]

def SessionCompactionRecord.fields (record : SessionCompactionRecord) :
    List (String × Option Value) :=
  [("context_epoch", some (ofNat record.contextEpoch)), ("level", some record.level.toValue),
    ("removed_messages", some (ofNat record.removedMessages)),
    ("retained_from", some (ofNat record.retainedFrom)),
    ("retained_messages", some (ofNat record.retainedMessages)),
    ("summary_present", some (bool record.summaryPresent)),
    ("replaces_from", optional ofNat record.replacesFrom),
    ("replaces_through", optional ofNat record.replacesThrough),
    ("aborted", if record.aborted then some (bool true) else none),
    ("start_event_id", optional string record.startEventId),
    ("summary_event_id", optional string record.summaryEventId)]

def SessionReductionRecord.fields (record : SessionReductionRecord) :
    List (String × Option Value) :=
  [("event_id", some (string record.eventId)), ("seq", optional ofNat record.seq),
    ("reason", some record.reason.toValue),
    ("removed_messages", some (ofNat record.removedMessages)),
    ("retained_messages", some (ofNat record.retainedMessages))]

def CapsuleDecision.toValue (decision : CapsuleDecision) : Value :=
  ofObject
    [("decision", some (string decision.decision)),
      ("rationale", some (string decision.rationale))]

def CapsuleArtifact.toValue (artifact : CapsuleArtifact) : Value :=
  ofObject [("path", some (string artifact.path)), ("note", some (string artifact.note))]

/-- A list of texts. -/
def textsValue (texts : List String) : Value := array (texts.map string)

def ContextCapsule.toValue (capsule : ContextCapsule) : Value :=
  ofObject
    [("version", some (ofNat capsule.version)), ("objective", some (string capsule.objective)),
      ("completed_work", some (textsValue capsule.completedWork)),
      ("decisions", some (array (capsule.decisions.map CapsuleDecision.toValue))),
      ("constraints", some (textsValue capsule.constraints)),
      ("current_state", some (string capsule.currentState)),
      ("artifacts", some (array (capsule.artifacts.map CapsuleArtifact.toValue))),
      ("unresolved", some (textsValue capsule.unresolved)),
      ("next_actions", some (textsValue capsule.nextActions))]

def SessionCheckpointRecord.fields (record : SessionCheckpointRecord) :
    List (String × Option Value) :=
  [("checkpoint_id", some (string record.checkpointId)),
    ("capsule_version", some (ofNat record.capsuleVersion)),
    ("context_epoch", some (ofNat record.contextEpoch)),
    ("capsule_path", some (string record.capsulePath)), ("capsule", some record.capsule.toValue)]

/-- The fields of a record, its `type` first. -/
def SessionRecord.fields : SessionRecord → List (String × Option Value)
  | header record => ("type", some (tag "header")) :: record.fields
  | message record => ("type", some (tag "message")) :: record.fields
  | epoch record => ("type", some (tag "epoch")) :: record.fields
  | compaction record => ("type", some (tag "compaction")) :: record.fields
  | checkpointBarrier record => ("type", some (tag "checkpoint_barrier")) :: record.fields
  | reduction record => ("type", some (tag "reduction")) :: record.fields

/-- The tree of one line of the session log. -/
def SessionRecord.toValue (record : SessionRecord) : Value := ofObject record.fields

lemma SessionMessage.toValue_eq (record : SessionMessage) :
    record.toValue = (SessionRecord.message record).toValue := rfl

/-! ### Reading -/

def Role.ofValue : Value → Option Role
  | string "system" => some system
  | string "user" => some user
  | string "assistant" => some assistant
  | string "tool" => some tool
  | _ => none

def ReasoningChunk.ofValue (value : Value) : Option ReasoningChunk := do
  return {
    text := ← required asText value "text"
    provenance := ← required ReasoningProvenance.ofValue value "provenance"
    source := ← optionally asText value "source" }

def ToolCallBlock.ofValue (value : Value) : Option ToolCallBlock := do
  return {
    id := ← required asText value "id"
    name := ← required asText value "name"
    arguments := ← value.get "arguments" }

def ToolResultBlock.ofValue (value : Value) : Option ToolResultBlock := do
  return {
    id := ← required asText value "id"
    name := ← required asText value "name"
    state := ← required ToolExecutionState.ofValue value "state"
    text := ← required asText value "text"
    isError := ← defaulted asBool false value "is_error"
    reduced := ← defaulted asBool false value "reduced" }

def ContentBlock.ofValue (value : Value) : Option ContentBlock := do
  match ← required asText value "type" with
  | "text" => (required asText value "text").map text
  | "image" =>
    return image (← required asText value "mime") (← required asText value "data_base64")
  | "reasoning" => (ReasoningChunk.ofValue value).map reasoning
  | "tool_call" => (ToolCallBlock.ofValue value).map toolCall
  | "tool_result" => (ToolResultBlock.ofValue value).map toolResult
  | _ => none

def Message.ofValue (value : Value) : Option Message := do
  return {
    role := ← required Role.ofValue value "role"
    content := ← required (eachItem ContentBlock.ofValue) value "content" }

def ExternalContextRef.ofValue (value : Value) : Option ExternalContextRef := do
  return {
    provider := ← required asText value "provider"
    resourceId := ← required asText value "resource_id"
    citation := ← optionally asText value "citation"
    provenance := ← required asText value "provenance"
    metadata := ← defaulted readMetadata [] value "metadata" }

def SessionHeader.ofValue (value : Value) : Option SessionHeader := do
  return {
    sessionId := ← required asText value "session_id"
    version := ← required asNat value "version"
    startedAtMs := ← required asNat value "started_at_ms"
    workingDir := ← required asText value "working_dir"
    model := ← required ModelRef.ofValue value "model"
    parentSession := ← optionally asText value "parent_session"
    branchedFromEvent := ← optionally asText value "branched_from_event"
    importedFrom := ← optionally asText value "imported_from" }

def SessionMessage.ofValue (value : Value) : Option SessionMessage := do
  return {
    turnId := ← required asText value "turn_id"
    role := ← required Role.ofValue value "role"
    message := ← required Message.ofValue value "message"
    epoch := ← required asNat value "epoch"
    model := ← required ModelRef.ofValue value "model"
    eventId := ← required asText value "event_id"
    seq := ← optionally asNat value "seq"
    externalContext := ← optionally ExternalContextRef.ofValue value "external_context" }

def SessionEpochRecord.ofValue (value : Value) : Option SessionEpochRecord := do
  return {
    epoch := ← required asNat value "epoch"
    model := ← required ModelRef.ofValue value "model"
    reason := ← required EpochReason.ofValue value "reason" }

def SessionCompactionRecord.ofValue (value : Value) : Option SessionCompactionRecord := do
  return {
    contextEpoch := ← required asNat value "context_epoch"
    level := ← required ContextLevel.ofValue value "level"
    removedMessages := ← required asNat value "removed_messages"
    retainedFrom := ← required asNat value "retained_from"
    retainedMessages := ← defaulted asNat 0 value "retained_messages"
    summaryPresent := ← defaulted asBool false value "summary_present"
    replacesFrom := ← optionally asNat value "replaces_from"
    replacesThrough := ← optionally asNat value "replaces_through"
    aborted := ← defaulted asBool false value "aborted"
    startEventId := ← optionally asText value "start_event_id"
    summaryEventId := ← optionally asText value "summary_event_id" }

def SessionReductionRecord.ofValue (value : Value) : Option SessionReductionRecord := do
  return {
    eventId := ← required asText value "event_id"
    seq := ← optionally asNat value "seq"
    reason := ← required ReductionReason.ofValue value "reason"
    removedMessages := ← required asNat value "removed_messages"
    retainedMessages := ← required asNat value "retained_messages" }

def CapsuleDecision.ofValue (value : Value) : Option CapsuleDecision := do
  return {
    decision := ← required asText value "decision"
    rationale := ← required asText value "rationale" }

def CapsuleArtifact.ofValue (value : Value) : Option CapsuleArtifact := do
  return {
    path := ← required asText value "path"
    note := ← required asText value "note" }

def ContextCapsule.ofValue (value : Value) : Option ContextCapsule := do
  return {
    version := ← required asNat value "version"
    objective := ← required asText value "objective"
    completedWork := ← defaulted (eachItem asText) [] value "completed_work"
    decisions := ← defaulted (eachItem CapsuleDecision.ofValue) [] value "decisions"
    constraints := ← defaulted (eachItem asText) [] value "constraints"
    currentState := ← required asText value "current_state"
    artifacts := ← defaulted (eachItem CapsuleArtifact.ofValue) [] value "artifacts"
    unresolved := ← defaulted (eachItem asText) [] value "unresolved"
    nextActions := ← defaulted (eachItem asText) [] value "next_actions" }

def SessionCheckpointRecord.ofValue (value : Value) : Option SessionCheckpointRecord := do
  return {
    checkpointId := ← required asText value "checkpoint_id"
    capsuleVersion := ← required asNat value "capsule_version"
    contextEpoch := ← defaulted asNat 0 value "context_epoch"
    capsulePath := ← required asText value "capsule_path"
    capsule := ← required ContextCapsule.ofValue value "capsule" }

/-- The record of a line with a given `type`. -/
def SessionRecord.ofTag : String → Value → Option SessionRecord
  | "header", value => (SessionHeader.ofValue value).map header
  | "message", value => (SessionMessage.ofValue value).map message
  | "epoch", value => (SessionEpochRecord.ofValue value).map epoch
  | "compaction", value => (SessionCompactionRecord.ofValue value).map compaction
  | "checkpoint_barrier", value =>
    (SessionCheckpointRecord.ofValue value).map checkpointBarrier
  | "reduction", value => (SessionReductionRecord.ofValue value).map reduction
  | _, _ => none

/-- One line of the session log. -/
def SessionRecord.ofValue (value : Value) : Option SessionRecord := do
  SessionRecord.ofTag (← required asText value "type") value

/-! ### Round trips of the parts -/

lemma Role.reads : Reads toValue ofValue := fun role => by cases role <;> rfl

lemma ContentBlock.reads : Reads toValue ofValue := by
  intro block
  cases block with
  | text body => simp [toValue, fields, ofValue, required]
  | image mime dataBase64 => simp [toValue, fields, ofValue, required]
  | reasoning chunk =>
    have hprovenance := ReasoningProvenance.reads chunk.provenance
    simp [toValue, fields, ofValue, ReasoningChunk.ofValue, required, optionally, hprovenance]
  | toolCall call => simp [toValue, fields, ofValue, ToolCallBlock.ofValue, required]
  | toolResult result =>
    have hstate := ToolExecutionState.reads result.state
    simp [toValue, fields, ofValue, ToolResultBlock.ofValue, required, defaulted, hstate]

lemma Message.reads : Reads toValue ofValue := by
  intro message
  have hrole := Role.reads message.role
  have hcontent := ContentBlock.reads.eachItem message.content
  simp [toValue, ofValue, required, hrole, hcontent]

lemma CapsuleDecision.reads : Reads toValue ofValue := by
  intro decision
  simp [toValue, ofValue, required]

lemma CapsuleArtifact.reads : Reads toValue ofValue := by
  intro artifact
  simp [toValue, ofValue, required]

lemma eachItem_textsValue (texts : List String) : eachItem asText (textsValue texts) = some texts :=
  eachItem_map fun _ _ => rfl

lemma ContextCapsule.reads : Reads toValue ofValue := by
  intro capsule
  have hdecisions := CapsuleDecision.reads.eachItem capsule.decisions
  have hartifacts := CapsuleArtifact.reads.eachItem capsule.artifacts
  simp [toValue, ofValue, required, defaulted, hdecisions, hartifacts, eachItem_textsValue]

/-- An external reference reads back exactly when its metadata is in map order. -/
lemma ExternalContextRef.ofValue_toValue_iff (context : ExternalContextRef) :
    ofValue context.toValue = some context ↔ InMapOrder context.metadata := by
  rw [← readDefault_metadata]
  constructor
  · intro h
    simp only [ofValue, Option.bind_eq_bind, Option.bind_eq_some_iff] at h
    obtain ⟨_, -, _, -, _, -, _, -, metadata, hmetadata, h⟩ := h
    have hsame : metadata = context.metadata :=
      congrArg ExternalContextRef.metadata (Option.some.inj h)
    rw [hsame] at hmetadata
    simpa [toValue, defaulted] using hmetadata
  · intro h
    simp [toValue, ofValue, required, optionally, defaulted, h]

lemma readOptional_external_iff (context : Option ExternalContextRef) :
    readOptional ExternalContextRef.ofValue (optional ExternalContextRef.toValue context) =
        some context ↔
      ∀ c ∈ context, InMapOrder c.metadata := by
  constructor
  · intro h c hc
    obtain rfl := Option.mem_def.mp hc
    obtain ⟨read, hread, heq⟩ := Option.map_eq_some_iff.mp h
    obtain rfl := Option.some.inj heq
    exact (ExternalContextRef.ofValue_toValue_iff read).mp hread
  · intro h
    exact readOptional_optional
      (fun c hc => (ExternalContextRef.ofValue_toValue_iff c).mpr (h c hc))
      (by simp [ExternalContextRef.toValue, ofObject])

/-! ### Round trip of a record -/

section

variable {value : Value}

lemma SessionHeader.ofValue_iff {header : SessionHeader} (h : value.Carries header.fields) :
    ofValue value = some header ↔ header.model.Parsed := by
  simp only [fields, carries_cons] at h
  constructor
  · intro hread
    simp only [ofValue, Option.bind_eq_bind, Option.bind_eq_some_iff] at hread
    obtain ⟨_, -, _, -, _, -, _, -, model, hmodel, _, -, _, -, _, -, hread⟩ := hread
    rw [← show model = header.model from congrArg SessionHeader.model (Option.some.inj hread)]
    exact ModelRef.parsed_of_required hmodel
  · intro hmodel
    rw [← ModelRef.ofValue_toValue] at hmodel
    simp [ofValue, required, optionally, h, hmodel]

lemma SessionMessage.ofValue_iff {record : SessionMessage} (h : value.Carries record.fields) :
    ofValue value = some record ↔
      record.model.Parsed ∧ ∀ context ∈ record.externalContext, InMapOrder context.metadata := by
  simp only [fields, carries_cons] at h
  constructor
  · intro hread
    simp only [ofValue, Option.bind_eq_bind, Option.bind_eq_some_iff] at hread
    obtain ⟨_, -, _, -, _, -, _, -, model, hmodel, _, -, _, -, context, hcontext, hread⟩ := hread
    have hsame := Option.some.inj hread
    rw [show context = record.externalContext from congrArg SessionMessage.externalContext hsame,
      optionally, h.2.2.2.2.2.2.2.1, readOptional_external_iff] at hcontext
    rw [← show model = record.model from congrArg SessionMessage.model hsame]
    exact ⟨ModelRef.parsed_of_required hmodel, hcontext⟩
  · rintro ⟨hmodel, hcontext⟩
    rw [← ModelRef.ofValue_toValue] at hmodel
    rw [← readOptional_external_iff] at hcontext
    have hrole := Role.reads record.role
    have hmessage := Message.reads record.message
    simp [ofValue, required, optionally, h, hmodel, hcontext, hrole, hmessage]

lemma SessionEpochRecord.ofValue_iff {record : SessionEpochRecord}
    (h : value.Carries record.fields) : ofValue value = some record ↔ record.model.Parsed := by
  simp only [fields, carries_cons] at h
  constructor
  · intro hread
    simp only [ofValue, Option.bind_eq_bind, Option.bind_eq_some_iff] at hread
    obtain ⟨_, -, model, hmodel, _, -, hread⟩ := hread
    rw [← show model = record.model from congrArg SessionEpochRecord.model (Option.some.inj hread)]
    exact ModelRef.parsed_of_required hmodel
  · intro hmodel
    rw [← ModelRef.ofValue_toValue] at hmodel
    have hreason := EpochReason.reads record.reason
    simp [ofValue, required, h, hmodel, hreason]

lemma SessionCompactionRecord.ofValue_of_carries {record : SessionCompactionRecord}
    (h : value.Carries record.fields) : ofValue value = some record := by
  simp only [fields, carries_cons] at h
  have hlevel := ContextLevel.reads record.level
  simp [ofValue, required, optionally, defaulted, h, hlevel]

lemma SessionReductionRecord.ofValue_of_carries {record : SessionReductionRecord}
    (h : value.Carries record.fields) : ofValue value = some record := by
  simp only [fields, carries_cons] at h
  have hreason := ReductionReason.reads record.reason
  simp [ofValue, required, optionally, h, hreason]

lemma SessionCheckpointRecord.ofValue_of_carries {record : SessionCheckpointRecord}
    (h : value.Carries record.fields) : ofValue value = some record := by
  simp only [fields, carries_cons] at h
  have hcapsule := ContextCapsule.reads record.capsule
  simp [ofValue, required, defaulted, h, hcapsule]

end

namespace SessionRecord

/-- The model references of a record. -/
def modelRefs : SessionRecord → List ModelRef
  | header record => [record.model]
  | message record => [record.model]
  | epoch record => [record.model]
  | compaction _ | checkpointBarrier _ | reduction _ => []

/-- The metadata of a record. -/
def metadata : SessionRecord → List (String × String)
  | message record => (record.externalContext.map (·.metadata)).getD []
  | _ => []

lemma nodup_keys (record : SessionRecord) : (record.fields.map Prod.fst).Nodup := by
  cases record <;>
    simp [fields, SessionHeader.fields, SessionMessage.fields, SessionEpochRecord.fields,
      SessionCompactionRecord.fields, SessionCheckpointRecord.fields,
      SessionReductionRecord.fields]

lemma carries (record : SessionRecord) : record.toValue.Carries record.fields :=
  carries_ofObject record.nodup_keys

/-- A line with a `type` is read the way the type says. -/
lemma carries_type {value : Value} {type : String} {rest : List (String × Option Value)}
    (h : value.Carries (("type", some (tag type)) :: rest)) :
    ofValue value = ofTag type value ∧ value.Carries rest := by
  obtain ⟨htype, hrest⟩ := (carries_cons _ _ _ _).mp h
  refine ⟨?_, hrest⟩
  rw [ofValue, required, htype]
  rfl

/-- **A record reads back as it was written** exactly when its model references
survive and its metadata is in map order. -/
theorem ofValue_toValue_iff (record : SessionRecord) :
    ofValue record.toValue = some record ↔
      (∀ model ∈ record.modelRefs, model.Parsed) ∧ InMapOrder record.metadata := by
  cases record with
  | header record =>
    obtain ⟨htag, hfields⟩ := carries_type (header record).carries
    rw [htag, ofTag, Option.map_eq_some_iff]
    simpa [modelRefs, metadata, InMapOrder] using SessionHeader.ofValue_iff hfields
  | message record =>
    obtain ⟨htag, hfields⟩ := carries_type (message record).carries
    have hcontext : InMapOrder (message record).metadata ↔
        ∀ context ∈ record.externalContext, InMapOrder context.metadata := by
      rw [metadata]
      cases record.externalContext <;> simp [InMapOrder]
    rw [htag, ofTag, Option.map_eq_some_iff, hcontext]
    simpa [modelRefs] using SessionMessage.ofValue_iff hfields
  | epoch record =>
    obtain ⟨htag, hfields⟩ := carries_type (epoch record).carries
    rw [htag, ofTag, Option.map_eq_some_iff]
    simpa [modelRefs, metadata, InMapOrder] using SessionEpochRecord.ofValue_iff hfields
  | compaction record =>
    obtain ⟨htag, hfields⟩ := carries_type (compaction record).carries
    rw [htag, ofTag, SessionCompactionRecord.ofValue_of_carries hfields]
    simp [modelRefs, metadata, InMapOrder]
  | checkpointBarrier record =>
    obtain ⟨htag, hfields⟩ := carries_type (checkpointBarrier record).carries
    rw [htag, ofTag, SessionCheckpointRecord.ofValue_of_carries hfields]
    simp [modelRefs, metadata, InMapOrder]
  | reduction record =>
    obtain ⟨htag, hfields⟩ := carries_type (reduction record).carries
    rw [htag, ofTag, SessionReductionRecord.ofValue_of_carries hfields]
    simp [modelRefs, metadata, InMapOrder]

end SessionRecord

end Rupi
