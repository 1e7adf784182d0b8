import Rupi.Core.Config
import Rupi.Core.EncodeMessage
import Rupi.Core.Message
import Rupi.Core.Text
import Rupi.Provider.StrictSchema

/-!
The body of a chat-completions request.

- `requestBody`: the body of a request; `messageJson` maps one message of its history.
- `Carries`: a wire message says what a message of the history says: its text with the notices
  of omitted images, its images, calls, results and replayed reasoning.
- `Sends`: the wire has one message for each message of the history that says something, in
  order.
- **`requestBody_sends_iff`**: the body sends its whole history exactly when the messages of
  tools hold nothing beside their results.
-/

namespace Rupi.Mapping

open Value

/-! ### Requests -/

inductive ToolSamplingStrictness where
  | prefer
  | require
  deriving DecidableEq, Repr

inductive ToolSamplingConstraint where
  | jsonSchema (strictness : ToolSamplingStrictness)
  deriving DecidableEq, Repr

structure ToolSpec where
  name : String
  description : String
  parameters : Value
  samplingConstraint : Option ToolSamplingConstraint
  deriving DecidableEq, Repr

inductive ToolChoice where
  | auto
  | none
  | required
  | specific (name : String)
  deriving DecidableEq, Repr

/-- `ModelRequest`; a temperature goes by its literal. -/
structure ModelRequest where
  model : ModelRef
  capabilities : ModelCapabilities
  system : Option String
  messages : List Message
  tools : List ToolSpec
  toolChoice : ToolChoice
  maxOutputTokens : Option Nat
  temperature : Option NumberLiteral
  thinking : ThinkingLevel
  stop : List String
  deriving DecidableEq, Repr

/-- `ProviderConfig`, as far as a body depends on it. -/
structure ProviderConfig where
  model : String
  capabilities : ModelCapabilities
  maxTokensField : OpenAiMaxTokensField
  thinkingInput : OpenAiThinkingInput
  thinkingDisable : OpenAiThinkingDisable
  strictToolSchema : OpenAiStrictToolSchemaSupport
  preserveReasoning : Bool
  stream : Bool
  streamUsage : Bool
  deriving DecidableEq, Repr

variable (config : ProviderConfig)

/-! ### Messages -/

/-- `append`. -/
def append (text chunk : String) : String :=
  if chunk = "" then text
  else if text = "" then chunk
  else text ++ "\n" ++ chunk

/-- What `message_json` gathers from the blocks of a message. -/
structure Gathered where
  text : String := ""
  reasoning : String := ""
  images : List Value := []
  toolCalls : List Value := []
  toolResult : Option (String × String) := none

def imageJson (mime dataBase64 : String) : Value :=
  ofObject [("type", some (string "image_url")),
    ("image_url", some (ofObject [("url",
      some (string ("data:" ++ mime ++ ";base64," ++ dataBase64)))]))]

/-- The notice that stands for an image the endpoint cannot see. -/
def omissionNotice (mime : String) : String := "[image omitted: " ++ mime ++ ", no image capability]"

/-- The arguments of a call, as their compact text. -/
def argumentsText (call : ToolCallBlock) : String := String.ofList call.arguments.print

def callJson (call : ToolCallBlock) : Value :=
  ofObject [("id", some (string call.id)), ("type", some (string "function")),
    ("function", some (ofObject [("name", some (string call.name)),
      ("arguments", some (string (argumentsText call)))]))]

/-- Reasoning that the endpoint replays. -/
def replays (role : Role) (chunk : ReasoningChunk) : Bool :=
  config.preserveReasoning && role = .assistant && chunk.provenance = .native

/-- One block. -/
def gather (role : Role) (gathered : Gathered) : ContentBlock → Gathered
  | .text chunk => { gathered with text := append gathered.text chunk }
  | .image mime dataBase64 =>
      if config.capabilities.images then
        { gathered with images := gathered.images ++ [imageJson mime dataBase64] }
      else { gathered with text := append gathered.text (omissionNotice mime) }
  | .reasoning chunk =>
      if replays config role chunk then
        { gathered with reasoning := append gathered.reasoning chunk.text }
      else gathered
  | .toolCall call => { gathered with toolCalls := gathered.toolCalls ++ [callJson call] }
  | .toolResult result => { gathered with toolResult := some (result.id, result.text) }

/-- The content of a message that is not a tool's. -/
def contentJson (gathered : Gathered) : Value :=
  if gathered.images.isEmpty then string gathered.text
  else array ((if gathered.text = "" then [] else
    [ofObject [("type", some (string "text")), ("text", some (string gathered.text))]]) ++
      gathered.images)

/-- `message_json`: a message without anything a provider can use is left out. -/
def messageJson (message : Message) : Option Value :=
  let gathered := message.content.foldl (gather config message.role) {}
  if message.role = .tool then
    gathered.toolResult.map fun (id, content) =>
      ofObject [("role", some (string "tool")), ("tool_call_id", some (string id)),
        ("content", some (string content))]
  else
    let hasToolCalls := !gathered.toolCalls.isEmpty
    let hasReasoning := gathered.reasoning != ""
    if contentJson gathered = string "" ∧ !hasToolCalls ∧ !hasReasoning then none
    else
      some (ofObject [("role", some message.role.toValue), ("content", some (contentJson gathered)),
        ("tool_calls", if hasToolCalls then some (array gathered.toolCalls) else none),
        ("reasoning_content", if hasReasoning then some (string gathered.reasoning) else none)])

/-- The system message, when its text is not blank. -/
def systemJson (system : Option String) : List Value :=
  match system.filter (trim · ≠ "") with
  | none => []
  | some text => [ofObject [("role", some (string "system")), ("content", some (string text))]]

/-- `messages`. -/
def messagesJson (system : Option String) (history : List Message) : List Value :=
  systemJson system ++ history.filterMap (messageJson config)

/-! ### The body -/

def toolJson (spec : ToolSpec) : Value :=
  let strict :=
    if config.strictToolSchema = .supported ∧ spec.samplingConstraint.isSome then
      normalizeStrictSchema spec.parameters
    else none
  ofObject [("type", some (string "function")),
    ("function", some (ofObject [("name", some (string spec.name)),
      ("description", some (string spec.description)),
      ("parameters", some (strict.getD spec.parameters)),
      ("strict", strict.map fun _ => bool true)]))]

def toolChoiceJson : ToolChoice → Value
  | .auto => string "auto"
  | .none => string "none"
  | .required => string "required"
  | .specific name =>
      ofObject [("type", some (string "function")),
        ("function", some (ofObject [("name", some (string name))]))]

/-- `apply_thinking`: the fields that a thinking level sets. -/
def thinkingFields (level : ThinkingLevel) : List (String × Option Value) :=
  match config.thinkingInput with
  | .none => []
  | .reasoningEffort =>
      match level with
      | .off =>
          if config.thinkingDisable = .reasoningEffortNone then
            [("reasoning_effort", some (string "none"))]
          else []
      | .minimal | .low => [("reasoning_effort", some (string "low"))]
      | .medium => [("reasoning_effort", some (string "medium"))]
      | .high | .xhigh => [("reasoning_effort", some (string "high"))]
  | .chatTemplateThinking =>
      [("chat_template_kwargs", some (ofObject [("thinking", some (bool (level ≠ .off)))]))]

/-- `request_body`. -/
def requestBody (request : ModelRequest) : Value :=
  let model := if trim request.model.model = "" then config.model else request.model.model
  let exposesTools := !request.tools.isEmpty && request.capabilities.tools
  let limitField := match config.maxTokensField with
    | .maxTokens => "max_tokens"
    | .maxCompletionTokens => "max_completion_tokens"
  ofObject ([("model", some (string model)),
    ("messages", some (array (messagesJson config request.system request.messages))),
    ("stream", some (bool config.stream)),
    ("tools", if exposesTools then some (array (request.tools.map (toolJson config))) else none),
    ("tool_choice", if exposesTools then some (toolChoiceJson request.toolChoice) else none),
    (limitField, request.maxOutputTokens.map ofNat),
    ("temperature", request.temperature.map float),
    ("stop", if request.stop.isEmpty then none else some (array (request.stop.map string)))] ++
    thinkingFields config request.thinking ++
    [("stream_options", if config.stream then
      some (ofObject [("include_usage", some (bool config.streamUsage))]) else none)])

/-! ### What is said -/

/-- What a message says, in the history or on the wire. -/
structure Said where
  role : String
  text : String
  images : List Value
  calls : List (String × String × String)
  results : List (String × String)
  reasoning : String
  deriving DecidableEq

/-- The line of text that a block gives its message. -/
def shownText : ContentBlock → Option String
  | .text chunk => if chunk = "" then none else some chunk
  | .image mime _ => if config.capabilities.images then none else some (omissionNotice mime)
  | _ => none

def shownImage : ContentBlock → Option Value
  | .image mime dataBase64 =>
      if config.capabilities.images then some (imageJson mime dataBase64) else none
  | _ => none

def replayedText (role : Role) : ContentBlock → Option String
  | .reasoning chunk =>
      if replays config role chunk ∧ chunk.text ≠ "" then some chunk.text else none
  | _ => none

/-- What a message of the history says: its non-empty text blocks joined by newlines, with a
notice in the place of an image that the endpoint cannot see, and all else it holds. -/
def said (message : Message) : Said where
  role := message.role.tagText
  text := "\n".intercalate (message.content.filterMap (shownText config))
  images := message.content.filterMap (shownImage config)
  calls := message.toolCalls.map fun call => (call.id, call.name, argumentsText call)
  results := message.toolResults.map fun result => (result.id, result.text)
  reasoning := "\n".intercalate (message.content.filterMap (replayedText config message.role))

/-- A block that says nothing. -/
def Blank (role : Role) : ContentBlock → Prop
  | .text chunk => chunk = ""
  | .reasoning chunk => replays config role chunk = true → chunk.text = ""
  | .image .. | .toolCall _ | .toolResult _ => False

section Wire

/-- A text field of a wire value. -/
def textField (value : Value) (key : String) : String :=
  match value.get key with
  | some (string text) => text
  | _ => ""

def listField (value : Value) (key : String) : List Value :=
  match value.get key with
  | some (array items) => items
  | _ => []

/-- A call on the wire. -/
def readCall (call : Value) : String × String × String :=
  let function := (call.get "function").getD null
  (textField call "id", textField function "name", textField function "arguments")

/-- What a wire message says. The content of a tool's message is the text of its result. -/
def readWire (wire : Value) : Said :=
  let parts := listField wire "content"
  let ofTool := textField wire "role" = "tool"
  { role := textField wire "role"
    text := if ofTool then "" else textField wire "content" ++
      String.join ((parts.filter fun part => textField part "type" = "text").map (textField · "text"))
    images := parts.filter fun part => textField part "type" = "image_url"
    calls := (listField wire "tool_calls").map readCall
    results := if ofTool then [(textField wire "tool_call_id", textField wire "content")] else []
    reasoning := textField wire "reasoning_content" }

end Wire

/-- The wire has one message for each message of the history in order, save those that say
nothing. -/
inductive Sends : List Message → List Value → Prop where
  | nil : Sends [] []
  | skip {message : Message} {history : List Message} {wire : List Value}
      (hblank : ∀ block ∈ message.content, Blank config message.role block)
      (h : Sends history wire) : Sends (message :: history) wire
  | send {message : Message} {sent : Value} {history : List Message} {wire : List Value}
      (hsent : readWire sent = said config message) (h : Sends history wire) :
      Sends (message :: history) (sent :: wire)

/-- Each result comes behind a message with its call. -/
def FollowCalls (known : List String) : List Said → Prop
  | [] => True
  | message :: later =>
      (∀ result ∈ message.results, result.1 ∈ known) ∧
        FollowCalls (known ++ message.calls.map (·.1)) later

/-- The body sends the whole request: the system text if it is not blank and the history behind
it, with the calls and the results of the history in their order. -/
structure LosesNothing (request : ModelRequest) (wire : List Value) : Prop where
  body : (requestBody config request).get "messages" =
    some (array (systemJson request.system ++ wire))
  sends : Sends config request.messages wire
  calls : wire.flatMap (fun sent => (readWire sent).calls) =
    request.messages.flatMap fun message => (said config message).calls
  results : wire.flatMap (fun sent => (readWire sent).results) =
    request.messages.flatMap fun message => (said config message).results
  follow : FollowCalls [] (request.messages.map (said config)) → FollowCalls [] (wire.map readWire)

/-- Results stand in messages of tools alone, one in each, as the runtime builds them. -/
def Built (history : List Message) : Prop :=
  ∀ message ∈ history, message.toolResults.length = if message.role = .tool then 1 else 0

/-- A block that may stand beside the result in a message of a tool. -/
def BesideResult : ContentBlock → Prop
  | .text chunk => chunk = ""
  | .reasoning _ | .toolResult _ => True
  | .image .. | .toolCall _ => False

/-- The messages of tools hold nothing to send beside their results. -/
def PlainTools (history : List Message) : Prop :=
  ∀ message ∈ history, message.role = .tool → ∀ block ∈ message.content, BesideResult block

section Gather

variable {config}

lemma intercalate_eq_empty {lines : List String} (hlines : ∀ line ∈ lines, line ≠ "") :
    "\n".intercalate lines = "" ↔ lines = [] := by
  refine ⟨fun h => ?_, fun h => h ▸ rfl⟩
  induction lines using List.reverseRecOn with
  | nil => rfl
  | append_singleton rest line =>
    exfalso
    rcases eq_or_ne rest [] with rfl | hrest
    · exact hlines line (by simp) h
    · rw [String.intercalate_append_of_ne_nil hrest (by simp), String.append_eq_empty_iff,
        String.intercalate_singleton] at h
      exact hlines line (by simp) h.2

/-- Appending to lines that are not empty. -/
lemma append_intercalate {lines : List String} (hlines : ∀ line ∈ lines, line ≠ "")
    (chunk : String) :
    append ("\n".intercalate lines) chunk =
      "\n".intercalate (lines ++ if chunk = "" then [] else [chunk]) := by
  rw [append]
  split_ifs with hchunk hempty
  · rw [List.append_nil]
  · rw [(intercalate_eq_empty hlines).1 hempty, List.nil_append]
    rfl
  · rw [String.intercalate_append_of_ne_nil (fun h => hempty ((intercalate_eq_empty hlines).2 h))
      (by simp), String.intercalate_singleton]

lemma omissionNotice_ne_empty (mime : String) : omissionNotice mime ≠ "" := by
  simp [omissionNotice]

lemma shownText_ne_empty {content : List ContentBlock} :
    ∀ line ∈ content.filterMap (shownText config), line ≠ "" := by
  intro line hline
  obtain ⟨block, -, hblock⟩ := List.mem_filterMap.1 hline
  cases block with
  | text chunk =>
    rw [shownText] at hblock
    split_ifs at hblock with hchunk
    cases hblock
    exact hchunk
  | image mime dataBase64 =>
    rw [shownText] at hblock
    split_ifs at hblock
    cases hblock
    exact omissionNotice_ne_empty mime
  | reasoning | toolCall | toolResult => cases hblock

lemma replayedText_ne_empty {role : Role} {content : List ContentBlock} :
    ∀ line ∈ content.filterMap (replayedText config role), line ≠ "" := by
  intro line hline
  obtain ⟨block, -, hblock⟩ := List.mem_filterMap.1 hline
  cases block with
  | reasoning chunk =>
    rw [replayedText] at hblock
    split_ifs at hblock with hchunk
    cases hblock
    exact hchunk.2
  | text | image | toolCall | toolResult => cases hblock

/-- What the blocks of a message are gathered into. -/
lemma gathered_eq (role : Role) (content : List ContentBlock) :
    content.foldl (gather config role) {} =
      { text := "\n".intercalate (content.filterMap (shownText config))
        reasoning := "\n".intercalate (content.filterMap (replayedText config role))
        images := content.filterMap (shownImage config)
        toolCalls := (content.filterMap ContentBlock.call?).map callJson
        toolResult := (content.filterMap ContentBlock.result?).getLast?.map fun result =>
          (result.id, result.text) } := by
  induction content using List.reverseRecOn with
  | nil => rfl
  | append_singleton content block ih =>
    rw [List.foldl_append, ih, List.foldl_cons, List.foldl_nil]
    simp only [List.filterMap_append, List.filterMap_cons, List.filterMap_nil]
    cases block with
    | text chunk =>
      simp only [gather, append_intercalate shownText_ne_empty, shownText, shownImage,
        replayedText, ContentBlock.call?, ContentBlock.result?, List.append_nil]
      split_ifs <;> rfl
    | image mime dataBase64 =>
      simp only [gather, append_intercalate shownText_ne_empty, shownText, shownImage,
        replayedText, ContentBlock.call?, ContentBlock.result?, List.append_nil,
        if_neg (omissionNotice_ne_empty mime)]
      split_ifs <;> simp
    | reasoning chunk =>
      simp only [gather, append_intercalate replayedText_ne_empty, shownText, shownImage,
        replayedText, ContentBlock.call?, ContentBlock.result?, List.append_nil]
      by_cases hreplays : replays config role chunk = true <;> by_cases htext : chunk.text = "" <;>
        simp [hreplays, htext]
    | toolCall call =>
      simp [gather, shownText, shownImage, replayedText, ContentBlock.call?, ContentBlock.result?]
    | toolResult result =>
      simp [gather, shownText, shownImage, replayedText, ContentBlock.call?, ContentBlock.result?]

end Gather

section Read

variable {config} {message : Message} {wire : Value}

lemma textField_eq {value : Value} {key text : String} (h : value.get key = some (string text)) :
    textField value key = text := by rw [textField, h]

lemma listField_eq {value : Value} {key : String} {items : List Value}
    (h : value.get key = some (array items)) : listField value key = items := by rw [listField, h]

lemma type_of_shownImage {content : List ContentBlock} :
    ∀ image ∈ content.filterMap (shownImage config), textField image "type" = "image_url" := by
  intro image himage
  obtain ⟨block, -, hblock⟩ := List.mem_filterMap.1 himage
  cases block with
  | image mime dataBase64 =>
    rw [shownImage] at hblock
    split_ifs at hblock
    cases hblock
    exact textField_eq (by simp [imageJson])
  | text | reasoning | toolCall | toolResult => cases hblock

/-- The text of a content, as a wire message reads it. -/
lemma read_contentJson {gathered : Gathered}
    (himages : ∀ image ∈ gathered.images, textField image "type" = "image_url")
    (hcontent : wire.get "content" = some (contentJson gathered)) :
    textField wire "content" ++ String.join (((listField wire "content").filter fun part =>
        textField part "type" = "text").map (textField · "text")) = gathered.text ∧
      (listField wire "content").filter (fun part => textField part "type" = "image_url") =
        gathered.images := by
  rw [contentJson] at hcontent
  split_ifs at hcontent with hempty htext
  · rw [List.isEmpty_iff] at hempty
    rw [textField_eq hcontent, hempty]
    simp [listField, hcontent]
  all_goals
    have hnone : gathered.images.filter (fun part => textField part "type" = "text") = [] :=
      List.filter_eq_nil_iff.2 fun image himage => by simp [himages image himage]
    have hall : gathered.images.filter (fun part => textField part "type" = "image_url") =
        gathered.images := List.filter_eq_self.2 fun image himage => by simp [himages image himage]
    rw [listField_eq hcontent, textField, hcontent, List.filter_append, List.filter_append, hnone,
      hall]
  · simp [htext]
  · simp [textField]

lemma blank_iff {role : Role} {block : ContentBlock} :
    Blank config role block ↔ shownText config block = none ∧ shownImage config block = none ∧
      block.call? = none ∧ block.result? = none ∧ replayedText config role block = none := by
  cases block with
  | text chunk => simp [Blank, shownText, shownImage, replayedText, ContentBlock.call?,
      ContentBlock.result?]
  | image mime dataBase64 =>
    by_cases himages : config.capabilities.images = true <;>
      simp [Blank, shownText, shownImage, himages]
  | reasoning chunk => simp [Blank, shownText, shownImage, replayedText, ContentBlock.call?,
      ContentBlock.result?]
  | toolCall call => simp [Blank, ContentBlock.call?]
  | toolResult result => simp [Blank, ContentBlock.result?]

/-- A message all of whose blocks are blank says nothing. -/
lemma forall_blank_iff : (∀ block ∈ message.content, Blank config message.role block) ↔
    message.content.filterMap (shownText config) = [] ∧
      message.content.filterMap (shownImage config) = [] ∧ message.toolCalls = [] ∧
        message.toolResults = [] ∧
          message.content.filterMap (replayedText config message.role) = [] := by
  simp only [Message.toolCalls, Message.toolResults, List.filterMap_eq_nil_iff, blank_iff]
  exact ⟨fun h => ⟨fun b hb => (h b hb).1, fun b hb => (h b hb).2.1, fun b hb => (h b hb).2.2.1,
    fun b hb => (h b hb).2.2.2.1, fun b hb => (h b hb).2.2.2.2⟩,
    fun ⟨h1, h2, h3, h4, h5⟩ b hb => ⟨h1 b hb, h2 b hb, h3 b hb, h4 b hb, h5 b hb⟩⟩

lemma contentJson_eq_empty {gathered : Gathered} :
    contentJson gathered = string "" ↔ gathered.images = [] ∧ gathered.text = "" := by
  rw [contentJson]
  split_ifs with hempty
  · rw [List.isEmpty_iff] at hempty
    simp [hempty]
  · simp [List.isEmpty_iff.not.1 hempty]

/-- A message that is not a tool's is left out when it says nothing. -/
lemma messageJson_eq_none (hrole : message.role ≠ .tool) (hresults : message.toolResults = []) :
    messageJson config message = none ↔
      ∀ block ∈ message.content, Blank config message.role block := by
  rw [messageJson, gathered_eq, if_neg hrole, forall_blank_iff]
  simp only [contentJson_eq_empty, ite_eq_left_iff, reduceCtorEq, imp_false, not_not,
    Bool.not_not, List.isEmpty_iff, List.map_eq_nil_iff, bne, Bool.not_eq_true', beq_eq_false_iff_ne,
    ne_eq, hresults, true_and, intercalate_eq_empty shownText_ne_empty, beq_iff_eq,
    intercalate_eq_empty replayedText_ne_empty, Message.toolCalls]
  tauto

/-- A message that is not a tool's says on the wire what it says in the history. -/
lemma readWire_messageJson (hrole : message.role ≠ .tool) (hresults : message.toolResults = [])
    (h : messageJson config message = some wire) : readWire wire = said config message := by
  obtain ⟨g, hg⟩ : ∃ g, message.content.foldl (gather config message.role) {} = g := ⟨_, rfl⟩
  rw [messageJson, if_neg hrole, hg, Option.ite_none_left_eq_some, Option.some.injEq] at h
  rw [gathered_eq] at hg
  obtain ⟨-, hwire⟩ := h
  have hcontent : wire.get "content" = some (contentJson g) := by simp [← hwire]
  have hname : textField wire "role" = message.role.tagText :=
    textField_eq (by simp [← hwire, Role.toValue_eq])
  have hcalls : listField wire "tool_calls" = g.toolCalls := by
    cases hnil : g.toolCalls <;> simp [← hwire, listField, hnil]
  have hreasoning : textField wire "reasoning_content" = g.reasoning := by
    by_cases hnil : g.reasoning = "" <;> simp [← hwire, textField, hnil]
  have htool : ¬message.role.tagText = "tool" := by
    cases hr : message.role <;> simp_all [Role.tagText]
  have hshown : ∀ image ∈ g.images, textField image "type" = "image_url" := by
    rw [← hg]
    exact type_of_shownImage
  obtain ⟨htext, himages⟩ := read_contentJson hshown hcontent
  simp only [readWire, hname, if_neg htool, htext, himages, hcalls, hreasoning, said, hresults]
  simp only [← hg, List.map_map, Message.toolCalls, List.map_nil]
  refine congrArg (Said.mk _ _ _ · _ _) (List.map_congr_left fun call _ => ?_)
  simp [readCall, callJson, textField]

/-- A message of a tool says its result alone. -/
lemma messageJson_of_tool {result : ToolResultBlock} (hrole : message.role = .tool)
    (hresults : message.toolResults = [result]) :
    ∃ wire, messageJson config message = some wire ∧
      readWire wire = ⟨"tool", "", [], [], [(result.id, result.text)], ""⟩ := by
  have hlast : (message.content.filterMap ContentBlock.result?).getLast? = some result := by
    rw [← Message.toolResults, hresults]
    rfl
  rw [messageJson, gathered_eq, if_pos hrole, hlast]
  refine ⟨_, rfl, ?_⟩
  simp [readWire, textField, listField]

lemma replays_tool {chunk : ReasoningChunk} : replays config .tool chunk = false := by
  simp [replays]

/-- A message of a tool says its result alone when nothing else stands beside it. -/
lemma said_tool_iff {result : ToolResultBlock} (hrole : message.role = .tool)
    (hresults : message.toolResults = [result]) :
    said config message = ⟨"tool", "", [], [], [(result.id, result.text)], ""⟩ ↔
      ∀ block ∈ message.content, BesideResult block := by
  have hbeside : ∀ block : ContentBlock, BesideResult block ↔ shownText config block = none ∧
      shownImage config block = none ∧ block.call? = none := by
    intro block
    cases block with
    | image mime dataBase64 =>
      by_cases himages : config.capabilities.images = true <;>
        simp [BesideResult, shownText, shownImage, himages]
    | text | reasoning | toolCall | toolResult =>
      simp [BesideResult, shownText, shownImage, ContentBlock.call?]
  have hreplayed : message.content.filterMap (replayedText config .tool) = [] := by
    rw [List.filterMap_eq_nil_iff]
    intro block _
    cases block <;> simp [replayedText, replays_tool]
  simp only [said, Said.mk.injEq, hrole, Role.tagText, hresults, List.map_cons, List.map_nil,
    hreplayed, String.intercalate_nil, true_and, and_true, hbeside]
  rw [intercalate_eq_empty shownText_ne_empty, List.map_eq_nil_iff, Message.toolCalls, List.filterMap_eq_nil_iff, List.filterMap_eq_nil_iff,
    List.filterMap_eq_nil_iff]
  exact ⟨fun ⟨h1, h2, h3⟩ b hb => ⟨h1 b hb, h2 b hb, h3 b hb⟩,
    fun h => ⟨fun b hb => (h b hb).1, fun b hb => (h b hb).2.1, fun b hb => (h b hb).2.2⟩⟩

/-- A blank message says nothing. -/
lemma said_of_blank (h : ∀ block ∈ message.content, Blank config message.role block) :
    said config message = ⟨message.role.tagText, "", [], [], [], ""⟩ := by
  obtain ⟨htext, himages, hcalls, hresults, hreasoning⟩ := forall_blank_iff.1 h
  simp [said, htext, himages, hcalls, hresults, hreasoning]

end Read

section Send

variable {config} {history : List Message} {wire : List Value}

lemma Built.tail {message : Message} (h : Built (message :: history)) : Built history :=
  fun other hother => h other (List.mem_cons_of_mem _ hother)

lemma Built.tool {message : Message} (h : Built history) (hmem : message ∈ history)
    (hrole : message.role = .tool) : ∃ result, message.toolResults = [result] :=
  List.length_eq_one_iff.1 ((h message hmem).trans (if_pos hrole))

lemma Built.other {message : Message} (h : Built history) (hmem : message ∈ history)
    (hrole : message.role ≠ .tool) : message.toolResults = [] :=
  List.length_eq_zero_iff.1 ((h message hmem).trans (if_neg hrole))

/-- What is sent says something. -/
lemma readWire_ne_blank (h : Built history) {sent : Value}
    (hsent : sent ∈ history.filterMap (messageJson config)) (role : String) :
    readWire sent ≠ ⟨role, "", [], [], [], ""⟩ := by
  obtain ⟨message, hmem, hjson⟩ := List.mem_filterMap.1 hsent
  intro hblank
  by_cases hrole : message.role = .tool
  · obtain ⟨result, hresult⟩ := h.tool hmem hrole
    obtain ⟨other, hother, hread⟩ := @messageJson_of_tool config _ _ hrole hresult
    rw [hjson, Option.some.injEq] at hother
    rw [← hother, hblank] at hread
    cases hread
  · have hresults := h.other hmem hrole
    rw [readWire_messageJson hrole hresults hjson] at hblank
    simp only [said, Said.mk.injEq, List.map_eq_nil_iff, intercalate_eq_empty shownText_ne_empty,
      intercalate_eq_empty replayedText_ne_empty] at hblank
    obtain ⟨-, htext, himages, hcalls, -, hreasoning⟩ := hblank
    have hall : ∀ block ∈ message.content, Blank config message.role block :=
      forall_blank_iff.2 ⟨htext, himages, hcalls, hresults, hreasoning⟩
    rw [(messageJson_eq_none hrole hresults).2 hall] at hjson
    cases hjson

/-- The messages of a history are sent exactly when those of tools are plain. -/
lemma sends_iff (h : Built history) :
    Sends config history (history.filterMap (messageJson config)) ↔ PlainTools history := by
  induction history with
  | nil => exact iff_of_true .nil fun _ hmem => absurd hmem List.not_mem_nil
  | cons message history ih =>
    have hplain : PlainTools (message :: history) ↔ (message.role = .tool →
        ∀ block ∈ message.content, BesideResult block) ∧ PlainTools history := by
      simp only [PlainTools, List.mem_cons, forall_eq_or_imp]
    rw [hplain, ← ih h.tail]
    by_cases hrole : message.role = .tool
    · obtain ⟨result, hresult⟩ := h.tool List.mem_cons_self hrole
      obtain ⟨sent, hjson, hread⟩ := @messageJson_of_tool config _ _ hrole hresult
      rw [List.filterMap_cons_some hjson, ← @said_tool_iff config _ _ hrole hresult, ← hread]
      constructor
      · rintro (_ | ⟨hblank, -⟩ | ⟨hsent, hsends⟩)
        · have hnone := (forall_blank_iff.1 hblank).2.2.2.1
          rw [hresult] at hnone
          cases hnone
        · exact ⟨fun _ => hsent.symm, hsends⟩
      · exact fun ⟨hsent, hsends⟩ => .send (hsent hrole).symm hsends
    · have hresults := h.other List.mem_cons_self hrole
      rw [and_iff_right fun hcontra => absurd hcontra hrole]
      cases hjson : messageJson config message with
      | none =>
        have hblank := (messageJson_eq_none hrole hresults).1 hjson
        rw [List.filterMap_cons_none hjson]
        refine ⟨fun hsends => ?_, .skip hblank⟩
        generalize hwire : history.filterMap (messageJson config) = wire at hsends
        cases hsends with
        | skip _ hsends => exact hwire ▸ hsends
        | @send _ sent _ _ hsent _ =>
          rw [said_of_blank hblank] at hsent
          exact absurd hsent (readWire_ne_blank h.tail (hwire ▸ List.mem_cons_self) _)
      | some sent =>
        rw [List.filterMap_cons_some hjson]
        refine ⟨?_, .send (readWire_messageJson hrole hresults hjson)⟩
        rintro (_ | ⟨hblank, -⟩ | ⟨hsent, hsends⟩)
        · rw [(messageJson_eq_none hrole hresults).2 hblank] at hjson
          cases hjson
        · exact hsends

lemma Sends.calls (h : Sends config history wire) :
    wire.flatMap (fun sent => (readWire sent).calls) =
      history.flatMap fun message => (said config message).calls := by
  induction h with
  | nil => rfl
  | skip hblank _ ih => rw [List.flatMap_cons, said_of_blank hblank, List.nil_append, ih]
  | send hsent _ ih => rw [List.flatMap_cons, List.flatMap_cons, hsent, ih]

lemma Sends.results (h : Sends config history wire) :
    wire.flatMap (fun sent => (readWire sent).results) =
      history.flatMap fun message => (said config message).results := by
  induction h with
  | nil => rfl
  | skip hblank _ ih => rw [List.flatMap_cons, said_of_blank hblank, List.nil_append, ih]
  | send hsent _ ih => rw [List.flatMap_cons, List.flatMap_cons, hsent, ih]

/-- Results follow their calls on the wire as they do in the history. -/
lemma Sends.follow (h : Sends config history wire) {known : List String}
    (hfollow : FollowCalls known (history.map (said config))) :
    FollowCalls known (wire.map readWire) := by
  induction h generalizing known with
  | nil => trivial
  | skip hblank _ ih =>
    rw [List.map_cons, said_of_blank hblank] at hfollow
    exact ih (by simpa [FollowCalls] using hfollow)
  | send hsent _ ih =>
    rw [List.map_cons, ← hsent] at hfollow
    exact ⟨hfollow.1, ih hfollow.2⟩

lemma get_messages (request : ModelRequest) :
    (requestBody config request).get "messages" =
      some (array (messagesJson config request.system request.messages)) := by
  simp [requestBody]

end Send

/-- **The body of a request loses nothing** of a history that the runtime builds exactly when the
messages of tools hold no text, image or call beside their results. -/
theorem requestBody_loses_nothing_iff (request : ModelRequest) (h : Built request.messages) :
    (∃ wire, LosesNothing config request wire) ↔ PlainTools request.messages := by
  constructor
  · rintro ⟨wire, hloses⟩
    have hbody := hloses.body
    rw [get_messages, messagesJson, Option.some.injEq, array.injEq] at hbody
    rw [← sends_iff h, List.append_cancel_left hbody]
    exact hloses.sends
  · intro hplain
    have hsends : Sends config request.messages _ := (sends_iff h).2 hplain
    exact ⟨_, get_messages request, hsends, hsends.calls, hsends.results, hsends.follow⟩

/-! ### An image beside a result -/

/-- An endpoint that sees images. -/
def visionConfig : ProviderConfig where
  model := "small"
  capabilities := ⟨true, true, true, .none, 8192, none⟩
  maxTokensField := .maxTokens
  thinkingInput := .none
  thinkingDisable := .omit_
  strictToolSchema := .unsupported
  preserveReasoning := false
  stream := true
  streamUsage := true

/-- A request with one call, and its result as these blocks. -/
def toolRequest (result : List ContentBlock) : ModelRequest where
  model := ⟨"local", "small"⟩
  capabilities := ⟨true, true, true, .none, 8192, none⟩
  system := none
  messages := [⟨.assistant, [.toolCall ⟨"call_1", "read", .object []⟩]⟩, ⟨.tool, result⟩]
  tools := []
  toolChoice := .auto
  maxOutputTokens := none
  temperature := none
  thinking := .off
  stop := []

def readResult : ContentBlock := .toolResult ⟨"call_1", "read", .succeeded, "a picture", false, false⟩

theorem requestBody_loses_nothing_read :
    ∃ wire, LosesNothing visionConfig (toolRequest [readResult]) wire :=
  (requestBody_loses_nothing_iff visionConfig (toolRequest [readResult])
    (by simp [Built, toolRequest, readResult, Message.toolResults, ContentBlock.result?])).2
    (by simp [PlainTools, toolRequest, readResult, BesideResult])

/-- The image beside a result is on no wire message, and nothing says so. -/
theorem requestBody_drops_image :
    Built (toolRequest [readResult, .image "image/png" "AAAA"]).messages ∧
      ¬∃ wire, LosesNothing visionConfig (toolRequest [readResult, .image "image/png" "AAAA"])
        wire := by
  have hbuilt : Built (toolRequest [readResult, .image "image/png" "AAAA"]).messages := by
    simp [Built, toolRequest, readResult, Message.toolResults, ContentBlock.result?]
  refine ⟨hbuilt, fun ⟨wire, hloses⟩ => ?_⟩
  have hbody := hloses.body
  rw [get_messages, messagesJson, Option.some.injEq, array.injEq] at hbody
  have hplain := (sends_iff hbuilt).1 (List.append_cancel_left hbody ▸ hloses.sends)
  exact hplain ⟨.tool, [readResult, .image "image/png" "AAAA"]⟩ (by simp [toolRequest]) rfl
    (.image "image/png" "AAAA") (by simp)

end Rupi.Mapping
