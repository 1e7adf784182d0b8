import Rupi.Runtime.TurnLoop

/-!
The request a model is about to be sent, and the estimate of its size.

- `Backup`: what an attached model adds to the messages of a request.
- `estimateTokens`, `RequestBudget`: the prompt alone, and the prompt with the output that
  the window leaves.
- `TurnLoop.rebudget`: the window is shortened before a takeover.
-/

namespace Rupi

/-- `ToolSpec`, as far as it is counted. -/
structure ToolSpec where
  name : String
  description : String
  parameters : Value
  deriving DecidableEq, Repr

/-- An attached model: its capabilities, and the tools and the system text of its requests. -/
structure Backup where
  contextWindow : Nat
  maxOutputTokens : Option Nat
  tools : List ToolSpec
  system : Option String
  deriving DecidableEq, Repr

/-- `tool_availability_prompt`. -/
def toolAvailabilityPrompt (tools : List ToolSpec) : String :=
  if tools.isEmpty then
    "No tools are available for this request. Do not claim to inspect or change workspace state."
  else
    "Tools available for this request: " ++ ", ".intercalate (tools.map (·.name)) ++
      ". Use only these tools; the listed schemas define the permitted arguments."

/-- `ModelRequest`, as far as it is counted. -/
structure ModelRequest where
  contextWindow : Nat
  system : String
  messages : List Message
  tools : List ToolSpec
  desiredOutputTokens : Option Nat

/-- `assemble_request_for`. -/
def Backup.assembleRequest (backup : Backup) (messages : List Message) : ModelRequest where
  contextWindow := backup.contextWindow
  system :=
    let system := backup.system.getD ""
    (if system = "" then system else system ++ "\n\n") ++ toolAvailabilityPrompt backup.tools
  messages := messages
  tools := backup.tools
  desiredOutputTokens := backup.maxOutputTokens

/-- The bytes of a value's compact text, `to_string().len()`. -/
def textBytes (value : Value) : Nat := (compactLine value).length

/-- `estimate_message_bytes`. -/
def estimateMessageBytes (message : Message) : Nat :=
  (message.content.map fun
    | .text body => body.utf8ByteSize
    | .reasoning chunk => chunk.text.utf8ByteSize
    | .toolCall call => call.name.utf8ByteSize + textBytes call.arguments
    | .toolResult result => result.text.utf8ByteSize
    | .image _ dataBase64 => dataBase64.utf8ByteSize).sum

/-- `estimate_tokens`. -/
def estimateTokens (request : ModelRequest) : Nat :=
  let bytes := request.system.utf8ByteSize + (request.messages.map estimateMessageBytes).sum +
    (request.tools.map fun spec => spec.name.utf8ByteSize + spec.description.utf8ByteSize +
      textBytes spec.parameters).sum
  max (bytes / 4) 1

/-- `RequestBudget`. -/
structure RequestBudget where
  promptTokensEst : Nat
  desiredOutputTokens : Option Nat
  effectiveOutputTokens : Option Nat
  contextWindow : Nat
  safetyReserveTokens : Nat
  deriving DecidableEq, Repr

namespace RequestBudget

/-- `for_request`. -/
def forRequest (request : ModelRequest) : RequestBudget :=
  let prompt := estimateTokens request
  let reserve := request.contextWindow / 10
  let available := request.contextWindow - prompt - reserve
  { promptTokensEst := prompt
    desiredOutputTokens := request.desiredOutputTokens
    effectiveOutputTokens := request.desiredOutputTokens.map (min · available)
    contextWindow := request.contextWindow
    safetyReserveTokens := reserve }

/-- `context_tokens_est`. -/
def contextTokensEst (budget : RequestBudget) : Nat :=
  budget.promptTokensEst + budget.effectiveOutputTokens.getD 0

end RequestBudget

/-- `request_context_tokens`. -/
def requestContextTokens (request : ModelRequest) : Nat :=
  (RequestBudget.forRequest request).contextTokensEst

/-- The estimate of a model's request with these messages; `true` counts the prompt alone. -/
def Backup.estimate (backup : Backup) (messages : List Message) (promptOnly : Bool) : Nat :=
  if promptOnly then estimateTokens (backup.assembleRequest messages)
  else requestContextTokens (backup.assembleRequest messages)

/-- The requests go to another model. -/
def Env.toBackup (env : Env) (backup : Backup) : Env := { env with estimate := backup.estimate }

/-- `overflow_recovery_target`. -/
def overflowRecoveryTarget (window : Nat) : Nat := window - window / 10

/-- `rebudget`: the loop, the number of messages dropped and the start of the turn's own
history. -/
def TurnLoop.rebudget (env : Env) (loop : TurnLoop) (backup : Backup) (turnId : TurnId)
    (turnHistoryStart : Nat) : Except TurnError (TurnLoop × Nat × Nat) := do
  let target := overflowRecoveryTarget backup.contextWindow
  let (loop, dropped, turnHistoryStart) ←
    loop.evictOldest (env.toBackup backup) turnId target turnHistoryStart false
  if target < backup.estimate loop.messages false then
    .error (.sink ("cannot safely rebudget the complete backup request below its context target of "
      ++ target.repr ++ " tokens"))
  else .ok (loop, dropped, turnHistoryStart)

end Rupi
