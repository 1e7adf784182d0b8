import Rupi.Core.Decode
import Rupi.Core.Text

/-!
The decoder of a streamed response.

- `ToolFragment`, `Piece`: what one chunk carries, in the order it is taken.
- `Decoder.chooseSlot`: the call that a fragment belongs to; `Decoder.fill` adds the
  fragment to it.
- `Decoder.chunk`, `Decoder.finish`: the two entries of the adapter.

The decoder also keeps, for the statements alone, which slot every fragment went to.
-/

namespace Rupi

open Value

/-! ### Limits, failures and events -/

/-- `MAX_RESPONSE_TEXT_BYTES`. -/
def maxResponseTextBytes : Nat := 16 * 1024 * 1024

/-- `MAX_RESPONSE_REASONING_BYTES`. -/
def maxResponseReasoningBytes : Nat := 8 * 1024 * 1024

/-- `MAX_RESPONSE_EVENTS`. -/
def maxResponseEvents : Nat := 65536

/-- `MAX_RESPONSE_TOOL_CALLS`. -/
def maxResponseToolCalls : Nat := 128

/-- `MAX_TOOL_NAME_BYTES`. -/
def maxToolNameBytes : Nat := 256

/-- `MAX_TOOL_ID_BYTES`. -/
def maxToolIdBytes : Nat := 256

/-- `MAX_TOOL_ARGUMENT_BYTES_PER_CALL`. -/
def maxToolArgumentBytesPerCall : Nat := 1024 * 1024

/-- `MAX_TOOL_ARGUMENT_BYTES_TOTAL`. -/
def maxToolArgumentBytesTotal : Nat := 8 * 1024 * 1024

/-- `FailurePhase`, the two phases of the decoder. -/
inductive FailurePhase where
  | streaming
  | normalizing
  deriving DecidableEq, Repr

/-- `ModelFailure`, as the decoder builds it. -/
structure ModelFailure where
  kind : ModelFailureKind
  phase : FailurePhase
  message : String
  partialOutputEmitted : Bool
  deriving DecidableEq, Repr

/-- `decode_failure`. -/
def decodeFailure (message : String) : ModelFailure := ⟨.protocol, .normalizing, message, false⟩

inductive StreamEnd where
  | doneSentinel
  | endedWithoutSentinel
  | completeBody
  deriving DecidableEq, Repr

inductive CompletionCertainty where
  | certain
  | unknown
  deriving DecidableEq, Repr

/-- The events of `finish`. -/
inductive ProviderEvent where
  | toolCall (call : ToolCallBlock)
  | toolCallRejected (id : ToolCallId) (name reason : String)
  deriving DecidableEq, Repr

def ProviderEvent.id : ProviderEvent → ToolCallId
  | toolCall call => call.id
  | toolCallRejected id _ _ => id

/-- `implied_provenance`. -/
def ReasoningExposure.impliedProvenance : ReasoningExposure → Option ReasoningProvenance
  | .none => Option.none
  | .native => some .native
  | .providerSummary => some .providerSummary
  | .declared => some .declared

/-! ### What a chunk carries -/

/-- A `tool_calls` entry, as `accumulate_tool` reads it. -/
structure ToolFragment where
  index : Option Nat
  id : Option String
  name : Option String
  arguments : Option String
  deriving DecidableEq, Repr

namespace ToolFragment

/-- `provider_tool_id`. -/
def providerToolId (call : Value) : Option String :=
  ((call.get "id").bind asText).filter fun id => trim id ≠ ""

/-- `as_u64` on a field. -/
def asU64 (value : Value) : Option Nat := value.asNat.filter (· < 2 ^ 64)

def ofValue (call : Value) : ToolFragment where
  index := (call.get "index").bind asU64
  id := providerToolId call
  name := ((call.get "function").bind (·.get "name")).bind asText
  arguments := ((call.get "function").bind (·.get "arguments")).bind asText

/-- The id, when it is within the limit. -/
def boundedId (fragment : ToolFragment) : Option String :=
  fragment.id.filter fun id => id.utf8ByteSize ≤ maxToolIdBytes

def oversizedId (fragment : ToolFragment) : Bool :=
  fragment.id.any fun id => maxToolIdBytes < id.utf8ByteSize

/-- Neither an index nor an id. -/
def isUnkeyed (fragment : ToolFragment) : Bool := fragment.index.isNone && fragment.id.isNone

end ToolFragment

/-- A part of a chunk that is taken at once. -/
inductive Piece where
  | finishReason (reason : String)
  | reasoning (text : String)
  | text (text : String)
  | tool (fragment : ToolFragment) (uncorrelatedBatch : Bool)
  deriving DecidableEq, Repr

/-- `reasoning_text`. -/
def reasoningText (delta : Value) : Option String :=
  ["reasoning_content", "reasoning", "reasoning_text"].findSome? fun field =>
    (delta.get field).bind asText

/-- `content_text`. -/
def contentText (delta : Value) : Option String :=
  match delta.get "content" with
  | some (.string text) => some text
  | some (.array parts) =>
    let joined := String.join (parts.filterMap fun part => (part.get "text").bind asText)
    if joined = "" then none else some joined
  | _ => none

/-- The pieces of one entry of `choices`. -/
def choicePieces (exposure : ReasoningExposure) (choice : Value) : List Piece :=
  let delta := ((choice.get "delta").or (choice.get "message")).getD .null
  let fragments := match delta.get "tool_calls" with
    | some (.array calls) => calls.map ToolFragment.ofValue
    | _ => []
  let reasoning := (reasoningText delta).filter fun text =>
    exposure.impliedProvenance.isSome && text ≠ ""
  (((choice.get "finish_reason").bind asText).map Piece.finishReason).toList ++
    (reasoning.map Piece.reasoning).toList ++
    (((contentText delta).filter (· ≠ "")).map Piece.text).toList ++
    fragments.map fun fragment =>
      .tool fragment (1 < (fragments.filter ToolFragment.isUnkeyed).length)

/-- The pieces of a chunk. -/
def chunkPieces (exposure : ReasoningExposure) (chunk : Value) : List Piece :=
  match chunk.get "choices" with
  | some (.array choices) => choices.flatMap (choicePieces exposure)
  | _ => []

/-! ### The decoder -/

/-- `ToolBuilder`, but for the internal id, which goes by the slot. -/
structure ToolBuilder where
  id : Option String
  name : String
  arguments : String
  correlationError : Option String
  deriving DecidableEq, Repr

/-- `ToolBuilder::new`. -/
def ToolBuilder.new : ToolBuilder := ⟨none, "", "", none⟩

/-- A fragment that was added to a call, with the calls that were there: how many in all,
and the keyed ones without a correlation error. -/
structure Attribution where
  slot : Nat
  fragment : ToolFragment
  opened : Nat
  candidates : List Nat
  deriving DecidableEq, Repr

/-- `Decoder`, without the token counts. The slots are the positions of `tools`;
`history` is not in the source. -/
structure Decoder where
  exposure : ReasoningExposure
  strictToolSchemas : List (String × Value)
  tools : List ToolBuilder
  toolIndices : List (Nat × Nat)
  toolIds : List (String × Nat)
  finishReason : Option String
  emittedOutput : Bool
  responseEvents : Nat
  textBytes : Nat
  reasoningBytes : Nat
  toolArgumentBytes : Nat
  history : List Attribution
  deriving DecidableEq

/-- `Decoder::new`, `with_strict_tool_schemas`. -/
def Decoder.new (exposure : ReasoningExposure) (schemas : List (String × Value)) : Decoder where
  exposure := exposure
  strictToolSchemas := schemas
  tools := []
  toolIndices := []
  toolIds := []
  finishReason := none
  emittedOutput := false
  responseEvents := 0
  textBytes := 0
  reasoningBytes := 0
  toolArgumentBytes := 0
  history := []

/-- `mark_correlation_error`, on the builder. -/
def ToolBuilder.mark (reason : String) (builder : ToolBuilder) : ToolBuilder :=
  { builder with
    correlationError := match builder.correlationError with
      | none => some reason
      | some existing =>
        if containsText reason.toList existing.toList then some existing
        else some (existing ++ "; " ++ reason) }

namespace Decoder

variable (d : Decoder)

/-! ### Slots -/

/-- The slot of an index. -/
def slotOfIndex (index : Nat) : Option Nat := d.toolIndices.lookup index

/-- The slot of an id. -/
def slotOfId (id : String) : Option Nat := d.toolIds.lookup id

/-- `true` for a slot that an index points to. -/
def isIndexed (slot : Nat) : Bool := slot ∈ d.toolIndices.map Prod.snd

/-- The slots whose builder satisfies a test, in order. -/
def slotsWhere (test : Nat → ToolBuilder → Bool) : List Nat :=
  (List.range d.tools.length).filter fun slot => (d.tools[slot]?).any (test slot)

/-- `uncorrelated_tool_slots`. -/
def uncorrelatedToolSlots : List Nat :=
  d.slotsWhere fun slot builder => builder.id.isNone && !d.isIndexed slot

/-- `open_keyed_tool_slots`. -/
def openKeyedToolSlots : List Nat :=
  d.slotsWhere fun slot builder =>
    (builder.id.isSome || d.isIndexed slot) && builder.correlationError.isNone

/-- `unique_keyed_open_slot`. -/
def uniqueKeyedOpenSlot : Option Nat :=
  match d.openKeyedToolSlots with
  | [slot] => some slot
  | _ => none

/-- `mark_correlation_error`. -/
def mark (reason : String) (slot : Nat) : Decoder :=
  { d with tools := d.tools.modify slot (ToolBuilder.mark reason) }

/-- Several slots are marked for one reason. -/
def markAll (reason : String) (slots : List Nat) : Decoder := slots.foldl (mark · reason) d

/-- `response_limit_failure`. -/
def limitFailure (message : String) : ModelFailure :=
  { decodeFailure message with partialOutputEmitted := d.emittedOutput }

/-- `account_response_event`. -/
def accountResponseEvent : Except ModelFailure Decoder :=
  if maxResponseEvents ≤ d.responseEvents then
    .error (d.limitFailure ("provider response exceeded the " ++ maxResponseEvents.repr ++
      "-event aggregate limit"))
  else .ok { d with responseEvents := d.responseEvents + 1 }

/-- `new_tool_slot`. -/
def newToolSlot : Except ModelFailure (Nat × Decoder) :=
  if maxResponseToolCalls ≤ d.tools.length then
    .error (d.limitFailure ("provider response exceeded the " ++ maxResponseToolCalls.repr ++
      "-tool-call limit"))
  else .ok (d.tools.length, { d with tools := d.tools ++ [.new] })

/-- A new slot, marked together with others for one reason. -/
def newMarkedSlot (reason : String) (others : List Nat) : Except ModelFailure (Nat × Decoder) :=
  match d.newToolSlot with
  | .error failure => .error failure
  | .ok (slot, d) => .ok (slot, (d.markAll reason others).mark reason slot)

/-! ### The slot of a fragment -/

/-- `singleton_fallback`. -/
def singletonFallback (fragment : ToolFragment) (uncorrelatedBatch : Bool) : Option Nat :=
  if fragment.index.isNone && fragment.boundedId.isNone && !uncorrelatedBatch then
    d.uniqueKeyedOpenSlot
  else none

/-- A key that was not seen before. -/
def keyedSlot : Except ModelFailure (Nat × Decoder) :=
  match d.tools, d.uncorrelatedToolSlots with
  | [_], [slot] =>
    .ok (slot, d.mark "provider index or id arrived after uncorrelated fragments" slot)
  | _, [] => d.newToolSlot
  | _, others =>
    d.newMarkedSlot "tool-call fragments could not be safely correlated by index or id" others

/-- A fragment without a key that has no call to join. -/
def straySlot : Except ModelFailure (Nat × Decoder) :=
  match d.openKeyedToolSlots with
  | [] => d.newToolSlot
  | others =>
    d.newMarkedSlot "tool-call fragments could not be safely correlated by index or id" others

/-- The slot of a fragment, of the nine branches of `accumulate_tool`. -/
def chooseSlot (fragment : ToolFragment) (uncorrelatedBatch : Bool) :
    Except ModelFailure (Nat × Decoder) :=
  match fragment.index.bind d.slotOfIndex, fragment.boundedId.bind d.slotOfId with
  | some indexSlot, some idSlot =>
    if indexSlot ≠ idSlot then
      let reason := "tool-call index and id point to different fragments"
      .ok (indexSlot, (d.mark reason indexSlot).mark reason idSlot)
    else .ok (indexSlot, d)
  | some indexSlot, none => .ok (indexSlot, d)
  | none, some idSlot =>
    if fragment.index.isSome &&
        d.toolIndices.any (fun entry => entry.2 = idSlot && some entry.1 ≠ fragment.index) then
      d.newMarkedSlot "one provider tool-call id was associated with multiple indexes" [idSlot]
    else .ok (idSlot, d)
  | none, none =>
    if fragment.index.isSome || fragment.boundedId.isSome then d.keyedSlot
    else if uncorrelatedBatch then
      d.newMarkedSlot "multiple tool fragments in one chunk had neither an index nor an id"
        d.openKeyedToolSlots
    else
      match d.singletonFallback fragment uncorrelatedBatch with
      | some slot => .ok (slot, d)
      | none => d.straySlot

/-! ### Filling a slot -/

/-- `entry(index).or_insert(slot)`. -/
def recordIndex (index : Option Nat) (slot : Nat) : Decoder :=
  match index with
  | some index =>
    if (d.slotOfIndex index).isSome then d
    else { d with toolIndices := d.toolIndices ++ [(index, slot)] }
  | none => d

/-- `entry(id).or_insert(slot)`. -/
def recordIdSlot (id : String) (slot : Nat) : Decoder :=
  if (d.slotOfId id).isSome then d else { d with toolIds := d.toolIds ++ [(id, slot)] }

/-- A call that has another id is marked. -/
def markOtherId (id : String) (slot : Nat) : Decoder :=
  if (d.tools[slot]?).any fun builder => builder.id.any (· ≠ id) then
    d.mark "one provider index carried multiple tool-call ids" slot
  else d

/-- The id of the fragment becomes the id of its call. -/
def recordId (id : Option String) (slot : Nat) : Decoder :=
  match id with
  | some id =>
    let d := (d.markOtherId id slot).recordIdSlot id slot
    { d with tools := d.tools.modify slot fun builder => { builder with id := some id } }
  | none => d

/-- `push_str` on the name, within its bound. -/
def pushName (name : Option String) (slot : Nat) : Decoder :=
  match name with
  | some name =>
    if (d.tools[slot]?).any fun builder =>
        maxToolNameBytes < builder.name.utf8ByteSize + name.utf8ByteSize then
      d.mark "tool name exceeded the response limit" slot
    else
      { d with
        tools := d.tools.modify slot fun builder => { builder with name := builder.name ++ name } }
  | none => d

/-- `push_str` on the arguments, within their bounds. -/
def pushArguments (arguments : Option String) (slot : Nat) : Decoder :=
  match arguments with
  | some arguments =>
    if (d.tools[slot]?).any fun builder =>
        maxToolArgumentBytesPerCall < builder.arguments.utf8ByteSize + arguments.utf8ByteSize then
      d.mark "tool arguments exceeded the per-call byte limit" slot
    else if maxToolArgumentBytesTotal < d.toolArgumentBytes + arguments.utf8ByteSize then
      d.mark "tool arguments exceeded the aggregate byte limit" slot
    else
      { d with
        tools := d.tools.modify slot fun builder =>
          { builder with arguments := builder.arguments ++ arguments }
        toolArgumentBytes := d.toolArgumentBytes + arguments.utf8ByteSize }
  | none => d

/-- A call whose id is too long is marked. -/
def markOversized (fragment : ToolFragment) (slot : Nat) : Decoder :=
  if fragment.oversizedId then
    d.mark "provider tool-call id exceeded the response limit" slot
  else d

/-- A fragment without a key marks its call, unless it joined the only one it could. -/
def markUnkeyed (fragment : ToolFragment) (fallback : Option Nat) (slot : Nat) : Decoder :=
  if fragment.index.isNone && fragment.boundedId.isNone && fallback.isNone &&
      !fragment.oversizedId then
    d.mark "tool-call fragment had neither a provider index nor a provider id" slot
  else d

/-- The rest of `accumulate_tool`, once the slot is chosen. -/
def fill (fragment : ToolFragment) (fallback : Option Nat) (slot : Nat) : Decoder :=
  let d := d.markOversized fragment slot
  let d := (d.recordIndex fragment.index slot).recordId fragment.boundedId slot
  let d := d.markUnkeyed fragment fallback slot
  (d.pushName fragment.name slot).pushArguments fragment.arguments slot

/-- `accumulate_tool`. -/
def accumulateTool (fragment : ToolFragment) (uncorrelatedBatch : Bool) :
    Decoder × Option ModelFailure :=
  match d.accountResponseEvent with
  | .error failure => (d, some failure)
  | .ok d =>
    match d.chooseSlot fragment uncorrelatedBatch with
    | .error failure => (d, some failure)
    | .ok (slot, chosen) =>
      let fallback := d.singletonFallback fragment uncorrelatedBatch
      let entry : Attribution := ⟨slot, fragment, d.tools.length, d.openKeyedToolSlots⟩
      ({ chosen.fill fragment fallback slot with history := d.history ++ [entry] }, none)

/-! ### Chunks -/

/-- One piece of a chunk. -/
def take : Piece → Decoder × Option ModelFailure
  | .finishReason reason => ({ d with finishReason := some reason }, none)
  | .reasoning text =>
    match d.accountResponseEvent with
    | .error failure => (d, some failure)
    | .ok d =>
      if maxResponseReasoningBytes < d.reasoningBytes + text.utf8ByteSize then
        (d, some (d.limitFailure ("provider response exceeded the " ++
          maxResponseReasoningBytes.repr ++ "-byte aggregate reasoning limit")))
      else
        ({ d with
          reasoningBytes := d.reasoningBytes + text.utf8ByteSize, emittedOutput := true }, none)
  | .text text =>
    match d.accountResponseEvent with
    | .error failure => (d, some failure)
    | .ok d =>
      if maxResponseTextBytes < d.textBytes + text.utf8ByteSize then
        (d, some (d.limitFailure ("provider response exceeded the " ++
          maxResponseTextBytes.repr ++ "-byte aggregate text limit")))
      else
        ({ d with textBytes := d.textBytes + text.utf8ByteSize, emittedOutput := true }, none)
  | .tool fragment uncorrelatedBatch => d.accumulateTool fragment uncorrelatedBatch

/-- The pieces of a chunk, up to the first failure. -/
def takeAll (d : Decoder) : List Piece → Decoder × Option ModelFailure
  | [] => (d, none)
  | piece :: pieces =>
    match d.take piece with
    | (d, some failure) => (d, some failure)
    | (d, none) => takeAll d pieces

/-- `chunk`. -/
def chunk (value : Value) : Decoder × Option ModelFailure :=
  d.takeAll (chunkPieces d.exposure value)

/-- The decoder after a sequence of chunks. -/
def run (d : Decoder) (chunks : List Value) : Decoder :=
  chunks.foldl (fun d value => (d.chunk value).1) d

end Decoder

/-! ### The end of the response -/

mutual

/-- `restore_omitted_optional_arguments`. -/
def restoreOmitted (schema : Value) : Value → Value
  | .object fields =>
    match schema.get "properties" with
    | some (.object properties) =>
      let required := match schema.get "required" with
        | some (.array keys) => keys.filterMap asText
        | _ => []
      .object (restoreFields required properties fields)
    | _ => .object fields
  | .array items =>
    match schema.get "items" with
    | some itemSchema => .array (restoreItems itemSchema items)
    | none => .array items
  | value => value

/-- The fields of an object, without the optional ones that are null. -/
def restoreFields (required : List String) (properties : List (String × Value)) :
    List (String × Value) → List (String × Value)
  | [] => []
  | (name, child) :: fields =>
    match properties.lookup name with
    | some childSchema =>
      if child = .null ∧ name ∉ required then restoreFields required properties fields
      else (name, restoreOmitted childSchema child) :: restoreFields required properties fields
    | none => (name, child) :: restoreFields required properties fields

def restoreItems (schema : Value) : List Value → List Value
  | [] => []
  | item :: items => restoreOmitted schema item :: restoreItems schema items

end

/-- The JSON parser and the ids of `ToolCallId::new`, by slot. -/
structure DecoderEnv where
  parseJson : String → Except String Value
  internalId : Nat → String

namespace Decoder

variable (env : DecoderEnv) (d : Decoder)

/-- The arguments of a call, or why they are none. -/
def parseArguments (text : String) : Value × Option String :=
  if trim text = "" then (.object [], none)
  else
    match env.parseJson text with
    | .ok (.object fields) => (.object fields, none)
    | .ok _ => (.object [], some "tool arguments must be a JSON object")
    | .error error => (.object [], some ("tool arguments are not valid JSON: " ++ error))

/-- The id a call is emitted under. -/
def callId (slot : Nat) (builder : ToolBuilder) : ToolCallId :=
  (builder.id.filter fun id => trim id ≠ "").getD (env.internalId slot)

/-- The event of a call. -/
def callEvent (slot : Nat) (builder : ToolBuilder) : ProviderEvent :=
  let (arguments, argumentError) := parseArguments env builder.arguments
  let arguments := match argumentError, d.strictToolSchemas.lookup builder.name with
    | none, some schema => restoreOmitted schema arguments
    | _, _ => arguments
  let id := callId env slot builder
  match builder.correlationError, argumentError with
  | none, none => .toolCall ⟨id, builder.name, arguments⟩
  | some correlation, some argument =>
    .toolCallRejected id builder.name (correlation ++ "; " ++ argument)
  | some reason, none => .toolCallRejected id builder.name reason
  | none, some reason => .toolCallRejected id builder.name reason

/-- The events of all calls, unless two have one id. -/
def decodeCalls (slot : Nat) (ids : List ToolCallId) :
    List ToolBuilder → Except ModelFailure (List ProviderEvent)
  | [] => .ok []
  | builder :: builders =>
    let id := callId env slot builder
    if id ∈ ids then
      .error (decodeFailure ("duplicate tool call id " ++ id ++ " in one provider response"))
    else
      match decodeCalls (slot + 1) (id :: ids) builders with
      | .error failure => .error failure
      | .ok events => .ok (d.callEvent env slot builder :: events)

/-- How certain it is that the response is complete. -/
def certainty (ending : StreamEnd) : Except ModelFailure CompletionCertainty :=
  let produced := d.emittedOutput || !d.tools.isEmpty
  match ending with
  | .completeBody => .ok .certain
  | .doneSentinel =>
    if d.finishReason.isSome || produced then .ok .certain
    else .error (decodeFailure "stream ended without a finish reason and without any output")
  | .endedWithoutSentinel =>
    if d.finishReason.isSome then .ok .certain
    else if produced then .ok .unknown
    else .error ⟨.transport, .streaming, "stream ended before the provider reported completion",
      false⟩

/-- `finish`: the events it gives the sink, and what it returns. -/
def finish (ending : StreamEnd) :
    List ProviderEvent × Except ModelFailure (Option String × CompletionCertainty) :=
  match d.decodeCalls env 0 [] d.tools with
  | .error failure => ([], .error failure)
  | .ok events => (events, (d.certainty ending).map fun certainty => (d.finishReason, certainty))

end Decoder

end Rupi
