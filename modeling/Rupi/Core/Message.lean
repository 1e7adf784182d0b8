import Rupi.Core.Value

/-!
Normalized conversation content: roles, content blocks and messages.

- `Message.text`: the plain text of a message, blocks joined without a separator.
- `Message.toolCalls`: the calls a message proposes, in order.
-/

namespace Rupi

/-- Identifiers are opaque strings; the store only compares them. -/
abbrev EventId := String
abbrev SessionId := String
abbrev TurnId := String
abbrev TraceId := String
abbrev SpanId := String
abbrev ToolCallId := String
abbrev CheckpointId := String

/-- Position in the journal. The code's `u64` bound is checked where a number is
advanced. -/
abbrev EventSeq := Nat

/-- Who a message speaks for. -/
inductive Role where
  | system | user | assistant | tool
  deriving DecidableEq, Repr

/-- Where reasoning-like text came from. -/
inductive ReasoningProvenance where
  | native | providerSummary | declared | reconstructed
  deriving DecidableEq, Repr

/-- Lifecycle state of one tool call. -/
inductive ToolExecutionState where
  | requested | started | succeeded | failed | unknown
  deriving DecidableEq, Repr

/-- `true` for states that ended execution. -/
def ToolExecutionState.isTerminal : ToolExecutionState → Bool
  | .succeeded | .failed | .unknown => true
  | .requested | .started => false

structure ReasoningChunk where
  text : String
  provenance : ReasoningProvenance
  source : Option String
  deriving DecidableEq, Repr

structure ToolCallBlock where
  id : ToolCallId
  name : String
  arguments : Value
  deriving DecidableEq, Repr

structure ToolResultBlock where
  id : ToolCallId
  name : String
  state : ToolExecutionState
  text : String
  isError : Bool
  reduced : Bool
  deriving DecidableEq, Repr

inductive ContentBlock where
  | text (body : String)
  | image (mime dataBase64 : String)
  | reasoning (chunk : ReasoningChunk)
  | toolCall (call : ToolCallBlock)
  | toolResult (result : ToolResultBlock)
  deriving DecidableEq, Repr

namespace ContentBlock

/-- The text of a text block. -/
def plainText : ContentBlock → Option String
  | text body => some body
  | _ => none

/-- The call of a tool-call block. -/
def call? : ContentBlock → Option ToolCallBlock
  | toolCall call => some call
  | _ => none

/-- The result of a tool-result block. -/
def result? : ContentBlock → Option ToolResultBlock
  | toolResult result => some result
  | _ => none

end ContentBlock

structure Message where
  role : Role
  content : List ContentBlock
  deriving DecidableEq, Repr

namespace Message

def ofText (role : Role) (text : String) : Message := ⟨role, [.text text]⟩

abbrev user (text : String) : Message := ofText .user text
abbrev assistant (text : String) : Message := ofText .assistant text

/-- All plain text blocks of a message, joined without a separator. -/
def text (message : Message) : String :=
  (message.content.filterMap ContentBlock.plainText).foldr (· ++ ·) ""

/-- The tool calls of a message, in order. -/
def toolCalls (message : Message) : List ToolCallBlock :=
  message.content.filterMap ContentBlock.call?

/-- The tool results of a message, in order. -/
def toolResults (message : Message) : List ToolResultBlock :=
  message.content.filterMap ContentBlock.result?

@[simp] lemma text_ofText (role : Role) (text : String) : (ofText role text).text = text := by
  simp [ofText, Message.text, ContentBlock.plainText]

@[simp] lemma toolCalls_ofText (role : Role) (text : String) :
    (ofText role text).toolCalls = [] := rfl

@[simp] lemma toolResults_ofText (role : Role) (text : String) :
    (ofText role text).toolResults = [] := rfl

end Message

end Rupi
