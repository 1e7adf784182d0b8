import Rupi.Import.PiSession
import Rupi.Store.SessionLog

/-!
The events and messages a Pi session maps to, and the report of what it does not.

- `PiImport.contentText`, `PiImport.messageParts`: the text and the blocks of a message.
- `PiImport.planEntry`: what one entry adds to the plan.
- `PiImport.plan`: the plan of a file, `isToMillis` being the reader of its timestamps.
-/

namespace Rupi

open Value

/-! ### The report -/

structure Skipped where
  count : Nat
  reason : String
  deriving DecidableEq

/-- What an import did with the entries of a file. -/
structure ImportReport where
  imported : List (String × Nat)
  skipped : List (String × Skipped)
  offPath : List (String × Nat)
  content : List (String × Nat)
  cwd : Option String
  messages : Nat
  notes : List String
  deriving DecidableEq

namespace ImportReport

def empty : ImportReport := ⟨[], [], [], [], none, 0, []⟩

/-- The count under a key. -/
def countOf (kind : String) (counts : List (String × Nat)) : Nat :=
  ((Keyed.lookup Prod.fst kind counts).map (·.2)).getD 0

/-- One more under a key. -/
def bump (kind : String) (counts : List (String × Nat)) : List (String × Nat) :=
  Keyed.put Prod.fst (kind, countOf kind counts + 1) counts

/-- `ImportReport::import`. -/
def countImport (report : ImportReport) (kind : String) : ImportReport :=
  { report with imported := bump kind report.imported }

/-- `ImportReport::skip`: the first reason given for a kind stays. -/
def skip (report : ImportReport) (kind reason : String) : ImportReport :=
  let entry := ((Keyed.lookup Prod.fst kind report.skipped).map (·.2)).getD ⟨0, reason⟩
  { report with
    skipped := Keyed.put Prod.fst (kind, ⟨entry.count + 1, entry.reason⟩) report.skipped }

/-- `ImportReport::content`. -/
def countContent (report : ImportReport) (kind : String) : ImportReport :=
  { report with content := bump kind report.content }

end ImportReport

/-! ### The plan -/

/-- A message to record, and the model to attribute it to. -/
structure MappedMessage where
  message : Message
  model : ModelRef
  deriving DecidableEq

/-- One event with the entry it came from. -/
structure Mapped where
  entryId : String
  line : Nat
  timestampMs : Option Nat
  event : AgentEvent
  payload : Option String
  turnId : Option TurnId
  message : Option MappedMessage
  deriving DecidableEq

structure ImportPlan where
  header : SessionHeader
  traceId : TraceId
  events : List Mapped
  report : ImportReport
  deriving DecidableEq

/-- The last assistant model seen, and the provider that served it. -/
structure PiModel where
  provider : Option String
  model : Option String
  deriving DecidableEq

/-- The text and the attachments of a message, and its blocks for the session log. -/
structure Extracted where
  text : String
  attachments : Nat
  blocks : List ContentBlock
  deriving DecidableEq

def Extracted.empty : Extracted := ⟨"", 0, []⟩

/-- An event an entry pushes. -/
structure Pushed where
  event : AgentEvent
  payload : Option String
  message : Option MappedMessage
  deriving DecidableEq

/-- An event without a payload or a message. -/
def Pushed.plain (event : AgentEvent) : Pushed := ⟨event, none, none⟩

namespace PiImport

/-! ### Content of a message -/

def isThinkingKind (kind : String) : Bool := kind == "thinking" || kind == "reasoning"

def isThinking (block : Value) : Bool := (stringField block "type").any isThinkingKind

/-- The text of one reasoning block. -/
def thoughtOf (block : Value) : Option String :=
  (((block.get "thinking").or (block.get "text")).bind asText).filter (· ≠ "")

/-- The text of reasoning blocks. -/
def thinkingText (blocks : List Value) : String :=
  "\n\n".intercalate ((blocks.filter isThinking).filterMap thoughtOf)

/-- What has been read of a message's content. -/
structure ContentReading where
  parts : List String
  owned : List ContentBlock
  attachments : Nat
  report : ImportReport

/-- One content block. -/
def readBlock (s : ContentReading) (block : Value) : ContentReading :=
  let kind := stringField block "type"
  if kind = some "text" then
    match stringField block "text" with
    | some text =>
      if text = "" then s
      else { s with parts := s.parts ++ [text], owned := s.owned ++ [.text text] }
    | none => s
  -- reasoning is no prose, and a call is neither prose nor an attachment
  else if kind.any isThinkingKind then s
  else if kind = some "toolCall" then s
  else if kind = some "image" then
    match stringField block "data" with
    | some data =>
      { s with
        attachments := s.attachments + 1
        owned := s.owned ++
          [.image ((stringField block "mimeType").getD "image/png") data] }
    | none =>
      { s with
        attachments := s.attachments + 1
        report := s.report.countContent "image without data" }
  else
    { s with
      attachments := s.attachments + 1
      report := s.report.countContent (kind.getD "block without a type") }

/-- The text inside content blocks, counting the blocks that carried none. -/
def contentText (report : ImportReport) (blocks : List Value) : Extracted × ImportReport :=
  let s := blocks.foldl readBlock ⟨[], [], 0, report⟩
  (⟨"\n\n".intercalate s.parts, s.attachments, s.owned⟩, s.report)

def textBlocks (text : String) : List ContentBlock := if text = "" then [] else [.text text]

/-- A content that is a bare string or blocks. -/
def contentParts (report : ImportReport) : Option Value → Extracted × ImportReport
  | some (string text) => (⟨text, 0, textBlocks text⟩, report)
  | some (array blocks) => contentText report blocks
  | _ => (Extracted.empty, report)

/-- The text a user or tool message carried. -/
def messageParts (entry : PiEntry) (report : ImportReport) : Extracted × ImportReport :=
  let read := contentParts report (entry.messageValue "content")
  match entry.num "truncated" with
  | some dropped =>
    ({ read.1 with
        text := read.1.text ++ "\n[" ++ toString dropped ++
          " bytes truncated by Pi and not stored]" },
      read.2.countContent "truncated by Pi")
  | none => read

/-- The calls read so far. -/
structure CallReading where
  calls : List ToolCallBlock
  report : ImportReport

/-- One content block, when it is a call; a call without an id gets one from its entry. -/
def readCall (entry : PiEntry) (s : CallReading) (block : Value) : CallReading :=
  if stringField block "type" = some "toolCall" then
    match stringField block "name" with
    | none => { s with report := s.report.countContent "tool call without a name" }
    | some name =>
      { calls := s.calls ++ [{
          id := ((stringField block "id").filter (· ≠ "")).getD
            (entry.id ++ "-" ++ toString (s.calls.length + 1))
          name := name
          arguments := (block.get "arguments").getD (string "Pi recorded no arguments") }]
        report := s.report.countImport "toolCall" }
  else s

/-- The calls one assistant message asked for, in order. -/
def toolCallBlocks (entry : PiEntry) (blocks : List Value) (report : ImportReport) :
    List ToolCallBlock × ImportReport :=
  let s := blocks.foldl (readCall entry) ⟨[], report⟩
  (s.calls, s.report)

/-- One message record, or none for a message without blocks. -/
def messageRecord (blocks : List ContentBlock) (role : Role) (model : ModelRef) :
    Option MappedMessage :=
  if blocks = [] then none else some ⟨⟨role, blocks⟩, model⟩

/-! ### Models -/

/-- The model in effect for an entry that does not name one of its own. -/
def currentModel (model : PiModel) : ModelRef :=
  let named := fun recorded : Option String => (recorded.filter (· ≠ "")).getD "unknown"
  ⟨named model.provider, named model.model⟩

/-- A name an assistant entry gives at its top or in its message. -/
def entryName (entry : PiEntry) (key : String) : Option String :=
  ((entry.str key).or (entry.messageField key)).filter (· ≠ "")

/-- The model after an assistant entry. -/
def assistantModel (model : PiModel) (entry : PiEntry) : PiModel where
  provider := (entryName entry "provider").or model.provider
  model := (entryName entry "model").or model.model

def modelRef (model : PiModel) : ModelRef :=
  ⟨model.provider.getD "unknown", model.model.getD "unknown"⟩

/-! ### What an entry pushes -/

def info (message : String) : AgentEvent := .diagnostic .info message

/-- The id a turn is anchored on. -/
def turnAnchor (entry : PiEntry) : String :=
  if entry.id = "" then "line-" ++ toString entry.line else entry.id

/-- A user entry. -/
def userPushes (model : PiModel) (extracted : Extracted) : List Pushed :=
  [⟨.userMessage ⟨extracted.text, extracted.attachments⟩, none,
    messageRecord extracted.blocks .user (currentModel model)⟩]

/-- The reasoning of an assistant entry: top-level arrays first, then the blocks. -/
def reasoningTexts (entry : PiEntry) (blocks : List Value) : List String :=
  (["thinking", "reasoning"].filterMap fun name =>
      ((entry.arr name).map thinkingText).filter (· ≠ "")) ++
    ((blocks.filter isThinking).map fun block => thinkingText [block]).filter (· ≠ "")

/-- `u64::saturating_add`. -/
def saturatingAdd (a b : Nat) : Nat := min (a + b) (2 ^ 64 - 1)

/-- The completion of a request, with what the entry's usage says. -/
def completion (entry : PiEntry) (model : ModelRef) (calls : List ToolCallBlock)
    (sawReasoning : Bool) : ModelRequestCompleted :=
  let usage := entry.messageFieldObject "usage"
  let count := fun key => usage.bind fun usage => numberField usage key
  let logical := (count "input").map fun input =>
    saturatingAdd (saturatingAdd input ((count "cacheRead").getD 0))
      ((count "cacheWrite").getD 0)
  { epoch := 0
    model := model
    finishReason := entry.messageField "stopReason"
    inputTokens := logical
    uncachedInputTokens := count "input"
    logicalPromptTokens := logical
    cacheReadTokens := count "cacheRead"
    cacheWriteTokens := count "cacheWrite"
    outputTokens := count "output"
    providerTotalTokens := (count "totalTokens").or
      (logical.bind fun input => (count "output").map fun output => saturatingAdd input output)
    durationMs := 0
    toolCalls := calls.length
    reasoningProvenance := if sawReasoning then some .providerSummary else none
    firstDeltaMs := none }

/-- An assistant entry: a whole request. Its message is bound to the first delta, or to
the request itself when there is no prose. -/
def assistantPushes (entry : PiEntry) (model : ModelRef) (requests : Nat) (blocks : List Value)
    (extracted : Extracted) (calls : List ToolCallBlock) : List Pushed :=
  let message := messageRecord (extracted.blocks ++ calls.map .toolCall) .assistant model
  let silent : Bool := extracted.text == ""
  let reasoning := reasoningTexts entry blocks
  [⟨.modelRequestStarted ⟨0, model, requests, 0, 0⟩, none, if silent then message else none⟩] ++
    reasoning.map (fun text => .plain (.reasoningDelta ⟨text, .providerSummary, 0⟩)) ++
    (if silent then [] else [⟨.assistantDelta ⟨extracted.text, 0⟩, none, message⟩]) ++
    calls.map (fun call => .plain (.toolRequested ⟨call.id, call.name, call.arguments, false⟩)) ++
    [.plain (.modelRequestCompleted (completion entry model calls !reasoning.isEmpty))]

/-- The id of the call a tool result answers. -/
def resultCallId (entry : PiEntry) : ToolCallId :=
  ((entry.messageField "toolCallId").filter (· ≠ "")).getD "pi-import-without-id"

def resultName (entry : PiEntry) : String :=
  ((entry.messageField "toolName").filter (· ≠ "")).getD "unknown"

/-- A tool result: a start that the file does not have, then the end it has. -/
def toolResultPushes (entry : PiEntry) (model : PiModel) (extracted : Extracted) : List Pushed :=
  let callId := resultCallId entry
  let name := resultName entry
  let failed := entry.messageFlag "isError"
  let record := messageRecord
    [.toolResult ⟨callId, name, if failed then .failed else .succeeded, extracted.text, failed,
      false⟩] .tool (currentModel model)
  [.plain (.toolStarted ⟨callId, name⟩),
    if failed then ⟨.toolFailed ⟨callId, name, extracted.text, 0, none⟩, none, record⟩
    else
      ⟨.toolCompleted
          ⟨callId, name, .succeeded, 0, none, false, none, extracted.text.utf8ByteSize⟩,
        some extracted.text, record⟩]

/-! ### The walk over the active path -/

/-- The plan as far as the path has been walked. -/
structure PlanState where
  report : ImportReport
  events : List Mapped
  model : PiModel
  requests : Nat
  turn : Option TurnId
  turns : List (Nat × Option TurnId)

def PlanState.start : PlanState := ⟨.empty, [], ⟨none, none⟩, 0, none, []⟩

section

variable (isToMillis : String → Option Nat)

def timestampMs (entry : PiEntry) : Option Nat := (entry.str "timestamp").bind isToMillis

/-- A pushed event with its entry. -/
def mapped (entry : PiEntry) (pushed : Pushed) : Mapped :=
  ⟨entry.id, entry.line, timestampMs isToMillis entry, pushed.event, pushed.payload, none,
    pushed.message⟩

def PlanState.push (s : PlanState) (entry : PiEntry) (pushes : List Pushed) : PlanState :=
  { s with events := s.events ++ pushes.map (mapped isToMillis entry) }

/-- A user entry opens a turn. -/
def planUser (s : PlanState) (entry : PiEntry) : PlanState :=
  let read := messageParts entry (s.report.countImport "message:user")
  { s with
    report := read.2
    turn := some ("turn-" ++ turnAnchor entry) : PlanState }.push isToMillis entry
    (userPushes s.model read.1)

def planAssistant (s : PlanState) (entry : PiEntry) : PlanState :=
  let model := assistantModel s.model entry
  let blocks := (entry.messageFieldArray "content").getD []
  let read := contentText (s.report.countImport "message:assistant") blocks
  let calls := toolCallBlocks entry blocks read.2
  let costs := ((entry.messageFieldObject "usage").bind fun usage => usage.get "cost").isSome
  { s with
    report := if costs then calls.2.countContent "usage:cost" else calls.2
    requests := s.requests + 1
    model := model : PlanState }.push isToMillis entry
    (assistantPushes entry (modelRef model) (s.requests + 1) blocks read.1 calls.1)

def planToolResult (s : PlanState) (entry : PiEntry) : PlanState :=
  let read := messageParts entry (s.report.countImport "message:toolResult")
  { s with report := read.2 : PlanState }.push isToMillis entry
    (toolResultPushes entry s.model read.1)

/-- A `message` entry. -/
def planMessage (s : PlanState) (entry : PiEntry) : PlanState :=
  let role := entry.messageRole.getD ""
  if role = "user" then planUser isToMillis s entry
  else if role = "assistant" then planAssistant isToMillis s entry
  else if role = "toolResult" then planToolResult isToMillis s entry
  else
    { s with
      report := s.report.skip "message" ("role '" ++ role ++ "' is not one rupi has") }

/-- An entry of any type. -/
def planByType (s : PlanState) (entry : PiEntry) : PlanState :=
  if entry.entryType = "message" then planMessage isToMillis s entry
  else if entry.entryType = "model_change" then
    let provider := (entry.str "provider").getD "unknown"
    let model := (entry.str "toModelId").getD "unknown"
    { s with
      report := s.report.countImport "model_change"
      model := ⟨some provider, some model⟩ : PlanState }.push isToMillis entry
      [.plain (info ("imported from Pi: the model changed to " ++ provider ++ "/" ++ model))]
  else if entry.entryType = "thinking_level_change" then
    { s with report := s.report.countImport "thinking_level_change" : PlanState }.push
      isToMillis entry
      [.plain (info ("imported from Pi: thinking level set to " ++
        (entry.str "thinkingLevel").getD "unknown"))]
  else if entry.entryType = "compaction" then
    { s with
      report := s.report.skip "compaction"
        "the boundary is kept; the summary text would put the conversation in twice"
        : PlanState }.push isToMillis entry
      [.plain (info ("imported from Pi: a compaction boundary (first kept entry " ++
        (entry.str "firstKeptEntryId").getD "unknown" ++ ")"))]
  else if entry.entryType = "branch_summary" then
    { s with
      report := s.report.skip "branch_summary"
        "a rupi session is linear, so a branch summary has no entry to attach to" }
  else if entry.entryType = "label" then
    { s with report := s.report.skip "label" "a Pi label has no rupi equivalent" }
  else if "custom".toList.isPrefixOf entry.entryType.toList then
    { s with
      report := s.report.skip entry.entryType
        "extension-owned content would be imported as if the user or model had written it" }
  else if entry.entryType = "session" ∨ entry.entryType = "more" then s
  else
    { s with
      report := s.report.skip entry.entryType "no rupi event corresponds to this entry type" }

/-- What one entry adds to the plan; its turn is noted under its line. -/
def planEntry (s : PlanState) (entry : PiEntry) : PlanState :=
  let s := planByType isToMillis s entry
  { s with turns := Keyed.put Prod.fst (entry.line, s.turn) s.turns }

/-- The turn of an event, by the line of its entry. -/
def withTurn (turns : List (Nat × Option TurnId)) (event : Mapped) : Mapped :=
  { event with turnId := (Keyed.lookup Prod.fst event.line turns).bind (·.2) }

/-! ### The header -/

/-- `str::trim_matches('-')`. -/
def trimDashes (text : List Char) : List Char :=
  ((text.dropWhile (· == '-')).reverse.dropWhile (· == '-')).reverse

/-- The store's id for an imported session, a path component. -/
def piSessionId (piId : String) : String :=
  let safe := piId.toList.map fun c => if c.isAlphanum || c == '-' || c == '_' then c else '-'
  let trimmed := trimDashes safe
  if trimmed = [] then "pi-import" else "pi-" ++ String.ofList trimmed

/-- The notes on entries left off the path and on damaged lines. -/
def sourceNotes (source : PiSession) (dropped : Nat) : List String :=
  (if dropped = 0 then []
    else [toString dropped ++ (if dropped = 1 then " entry was" else " entries were") ++
      " not on the path from the newest entry written"]) ++
    source.damagedLines.map fun line => "damaged line skipped: " ++ line

/-- `pi_import::plan`. -/
def plan (source : PiSession) : Except PiImportError ImportPlan := do
  let active ← source.activePath
  let s := active.foldl (planEntry isToMillis) .start
  let events := s.events.map (withTurn s.turns)
  let offPath := (source.offPath active).foldl
    (fun counts entry => ImportReport.bump entry.entryType counts) s.report.offPath
  let dropped := (offPath.map (·.2)).sum
  let startedAtMs := (((active.filterMap (timestampMs isToMillis)).head?).or
    (isToMillis source.header.timestamp)).getD 0
  let noTime := if startedAtMs = 0 then
    ["no entry carried a readable timestamp; the header says 0"] else []
  let model : ModelRef × List String := match s.model with
    | ⟨some provider, some model⟩ => (⟨provider, model⟩, [])
    | _ => (⟨"unknown", "unknown"⟩,
        ["no assistant model was recorded; the header says unknown/unknown"])
  let noCwd := if source.header.cwd = "" then
    ["Pi recorded no cwd; the header says the current directory"] else []
  return {
    header := {
      sessionId := piSessionId source.header.id
      version := sessionSchemaVersion
      startedAtMs := startedAtMs
      workingDir := if source.header.cwd = "" then "." else source.header.cwd
      model := model.1
      parentSession := source.header.parentSession
      branchedFromEvent := none
      importedFrom := some "pi" }
    traceId := "pi-" ++ source.header.id
    events := events
    report := { s.report with
      offPath := offPath
      cwd := if source.header.cwd = "" then none else some source.header.cwd
      messages := (events.filter fun event => event.message.isSome).length
      notes := sourceNotes source dropped ++ noTime ++ model.2 ++ noCwd } }

end

end PiImport

end Rupi
