import Rupi.Lib.Keyed
import Rupi.Lib.Fallible
import Rupi.Store.Payload
import Rupi.Tools.Contract

/-!
The tool registry: who may run, and which state a call is left in.

- `validateArguments`: the JSON Schema subset of the execution boundary.
- `ToolRegistry.dispatch`: the single execution path, with the steps it takes.
- `ToolRegistry.Cleared`: everything that has to hold before a tool is entered.
- `recordDispatched`: what the runtime records of a dispatched call.
- **`dispatch_gated`**: a tool is entered once and only when cleared, a refused call is
  left to be run again, and a mutating call is run again only if it was not entered or
  reported its own failure.
- `enteredCall_replayed`: a tool that ran, failed, and is allowed to run again.
-/

namespace Rupi

open Value Keyed Fallible

/-! ### Arguments against a schema -/

/-- Whether a value is of the type a schema names. -/
def matchesKind (kind : String) (value : Value) : Bool :=
  match kind, value with
  | "null", .null => true
  | "boolean", .bool _ => true
  | "object", .object _ => true
  | "array", .array _ => true
  | "number", .int _ => true
  | "number", .float _ => true
  | "integer", .int n => decide (-2 ^ 63 ≤ n ∧ n < 2 ^ 64)
  | "string", .string _ => true
  | kind, _ =>
    kind ∉ ["null", "boolean", "object", "array", "number", "integer", "string"]

def checkKind (toolName path : String) (schema value : Value) : Except String Unit :=
  match (schema.get "type").bind asText with
  | some kind =>
    ensure (matchesKind kind value = true)
      ("'" ++ toolName ++ "' argument '" ++ path ++ "' must be " ++ kind)
  | none => .ok ()

def checkChoices (toolName path : String) (schema value : Value) : Except String Unit :=
  match schema.get "enum" with
  | some (.array choices) =>
    ensure (value ∈ choices) ("'" ++ toolName ++ "' argument '" ++ path ++
      "' is not an allowed value")
  | _ => .ok ()

def checkRequired (toolName path : String) (schema value : Value) : Except String Unit :=
  match schema.get "required" with
  | some (.array keys) =>
    forEach (fun key =>
      let missing := if path = "arguments" then key else path ++ "." ++ key
      ensure ((value.get key).isSome = true)
        ("'" ++ toolName ++ "' is missing required argument '" ++ missing ++ "'"))
      (keys.filterMap asText)
  | _ => .ok ()

mutual

/-- `validate_schema_value`. -/
def validateSchemaValue (toolName path : String) (schema : Value) : Value → Except String Unit
  | .object fields => do
    checkKind toolName path schema (.object fields)
    checkChoices toolName path schema (.object fields)
    checkRequired toolName path schema (.object fields)
    validateFields toolName path schema fields
  | .array items => do
    checkKind toolName path schema (.array items)
    checkChoices toolName path schema (.array items)
    match schema.get "items" with
    | some itemSchema => validateItems toolName path itemSchema 0 items
    | none => .ok ()
  | value => do
    checkKind toolName path schema value
    checkChoices toolName path schema value

/-- The fields of an object against `properties` and `additionalProperties`. -/
def validateFields (toolName path : String) (schema : Value) :
    List (String × Value) → Except String Unit
  | [] => .ok ()
  | (key, child) :: fields => do
    let childPath := path ++ "." ++ key
    match (schema.get "properties").bind fun properties => properties.get key with
    | some childSchema => validateSchemaValue toolName childPath childSchema child
    | none =>
      match schema.get "additionalProperties" with
      | some (.bool false) =>
        .error ("'" ++ toolName ++ "' does not accept argument '" ++ childPath ++ "'")
      | some (.object additional) =>
        validateSchemaValue toolName childPath (.object additional) child
      | _ => .ok ()
    validateFields toolName path schema fields

/-- The items of an array against `items`. -/
def validateItems (toolName path : String) (itemSchema : Value) :
    Nat → List Value → Except String Unit
  | _, [] => .ok ()
  | index, item :: items => do
    validateSchemaValue toolName (path ++ "[" ++ index.repr ++ "]") itemSchema item
    validateItems toolName path itemSchema (index + 1) items

end

/-- `validate_arguments`. -/
def validateArguments (metadata : ToolMetadata) (arguments schema : Value) :
    Except String Unit :=
  match arguments with
  | .object _ => validateSchemaValue metadata.name "arguments" arguments schema
  | _ => .error ("'" ++ metadata.name ++ "' arguments must be a JSON object")

/-! ### Reducing an output -/

def minUseful : Nat := 1024

def maxUseful : Nat := 64 * 1024

/-- Symbols behind the first `n` bytes, from a character boundary on. -/
def dropBytes : Nat → List Char → List Char
  | 0, text => text
  | _, [] => []
  | n + 1, c :: text => dropBytes (n + 1 - c.utf8Size) text

/-- Subtraction of machine words. -/
def wrappingSub (a b : Nat) : Nat := (a + (2 ^ 64 - b)) % 2 ^ 64

/-- `notice`. -/
def elisionNotice (elided fullBytes : Nat) : String :=
  "\n\n[... " ++ elided.repr ++ " bytes elided from " ++ fullBytes.repr ++
    " bytes of tool output; the full output is archived, read it by path or re-run with a filter ...]\n\n"

/-- `reduce`: the visible text, when the text is at or above the budget. -/
def reduceOutput (text : String) (maxBytes : Nat) : Option String :=
  let fullBytes := text.utf8ByteSize
  if fullBytes < maxBytes then none
  else
    let budget := max minUseful (min maxBytes maxUseful)
    let headLength := budget * 3 / 5
    let tailLength := budget - headLength
    let head := String.ofList (Payload.takeBytes headLength text.toList)
    -- a text shorter than the tail wraps around, behind the end of the text
    let tail := String.ofList (dropBytes (wrappingSub fullBytes tailLength) text.toList)
    let elided := wrappingSub (fullBytes - tail.utf8ByteSize) head.utf8ByteSize
    some (head ++ elisionNotice elided fullBytes ++ tail)

/-! ### The registry -/

inductive Approval where
  | allow
  | deny (reason : String)
  | ask (reason : String)
  deriving DecidableEq, Repr

/-- A tool as it was registered. Its answers are any functions of the request. -/
structure RegisteredTool where
  metadata : ToolMetadata
  schema : Value
  preflight : ToolRequest → Except ToolError Unit
  executeWithContext : ToolRequest → Except ToolError ToolOutcome

def RegisteredTool.name (tool : RegisteredTool) : String := tool.metadata.name

/-- The set of tools, each under the name of its metadata. -/
structure ToolRegistry where
  maxOutputBytes : Nat
  tools : List RegisteredTool
  distinct : Distinct RegisteredTool.name tools
  allowNames : List String
  denyNames : List String
  configurationError : Option String

/-- One executed call, as the registry reports it. -/
structure ExecutedCall extends Executed where
  request : ToolRequest
  started : Bool
  cancelled : Bool
  deriving DecidableEq

/-- A refusal that never started execution. -/
def ExecutedCall.refused (request : ToolRequest) (reason : String) : ExecutedCall where
  request := request
  outcome := .failed reason
  state := .failed
  started := false
  refusal := some reason
  fullOutput := none
  cancelled := false

/-- What a dispatch meets outside of the registry: what the cancellation token and the
deadline show at each look, how the gate answers, and whether the start of the execution
can be recorded. -/
structure DispatchRun where
  cancelledBefore : Bool
  gate : ToolMetadata → Value → Approval
  onStarted : Except String Unit
  interrupted : Bool
  cancelledAfter : Bool

/-- A step of a dispatch that others see. -/
inductive DispatchStep where
  | startReported
  | entered
  deriving DecidableEq, Repr

namespace ToolRegistry

/-- Register a tool, replacing any tool with the same name. -/
def register (registry : ToolRegistry) (tool : RegisteredTool) : ToolRegistry where
  maxOutputBytes := registry.maxOutputBytes
  tools := put RegisteredTool.name tool registry.tools
  distinct := distinct_put registry.distinct
  allowNames := registry.allowNames
  denyNames := registry.denyNames
  configurationError := registry.configurationError

/-- Unregister all tools whose names start with a given text; how many there were. -/
def unregisterPrefix (registry : ToolRegistry) (stem : String) : ToolRegistry × Nat :=
  let starts (tool : RegisteredTool) : Bool := stem.toList.isPrefixOf tool.name.toList
  ({ maxOutputBytes := registry.maxOutputBytes
     tools := registry.tools.filter fun tool => !starts tool
     distinct := registry.distinct.sublist (List.filter_sublist.map _)
     allowNames := registry.allowNames
     denyNames := registry.denyNames
     configurationError := registry.configurationError },
    (registry.tools.filter starts).length)

def lookupTool (registry : ToolRegistry) (name : String) : Option RegisteredTool :=
  lookup RegisteredTool.name name registry.tools

def isAllowed (registry : ToolRegistry) (name : String) : Bool :=
  !registry.denyNames.contains name &&
    (registry.allowNames.isEmpty || registry.allowNames.contains name)

/-- Names currently permitted by policy, in the order of the map. -/
def allowedNames (registry : ToolRegistry) : List String :=
  ((registry.tools.map RegisteredTool.name).insertionSort (· ≤ ·)).filter
    registry.isAllowed

def unknownTool (name : String) (available : List String) : String :=
  "unknown tool '" ++ name ++ "'; available: " ++
    if available.isEmpty then "none" else String.intercalate ", " available

/-- `coerce_state`: a claimed state becomes one the runtime can defend. -/
def coerceState (claimed : ToolExecutionState) (metadata : ToolMetadata) (cancelled : Bool) :
    ToolExecutionState :=
  match claimed with
  | .requested | .started => .unknown
  | .succeeded => if cancelled && !metadata.readOnly then .unknown else .succeeded
  | .failed => .failed
  | .unknown => .unknown

/-- The gate is asked about a mutating tool; an unanswered question is no permission. -/
def approve (gate : ToolMetadata → Value → Approval) (metadata : ToolMetadata)
    (arguments : Value) : Except String Unit :=
  if metadata.readOnly then .ok ()
  else
    match gate metadata arguments with
    | .deny reason => .error reason
    | .ask reason => .error reason
    | .allow => .ok ()

/-- The checks in front of an execution: the tool, or why the call is refused. -/
def screen (registry : ToolRegistry) (gate : ToolMetadata → Value → Approval)
    (request : ToolRequest) : Except String RegisteredTool :=
  match registry.lookupTool request.name with
  | none => .error (unknownTool request.name registry.allowedNames)
  | some tool => do
    ensure (registry.isAllowed tool.metadata.name = true)
      ("tool '" ++ tool.metadata.name ++ "' is denied by policy")
    validateArguments tool.metadata request.arguments tool.schema
    (tool.preflight request).mapError ToolError.message
    approve gate tool.metadata request.arguments
    .ok tool

/-- What a tool answered, as the registry reports it. -/
def conclude (registry : ToolRegistry) (run : DispatchRun) (request : ToolRequest)
    (metadata : ToolMetadata) : Except ToolError ToolOutcome → ExecutedCall
  | .ok outcome =>
    let reduction := reduceOutput outcome.text registry.maxOutputBytes
    let visible := { outcome with
      text := reduction.getD outcome.text
      reduced := outcome.reduced || reduction.isSome }
    let state := coerceState outcome.state metadata run.interrupted
    { request := request
      outcome :=
        if state = outcome.state then visible
        else { visible with
          state := state
          isError := true
          text := visible.text ++
            " [completion was not observed before cancellation or deadline]" }
      state := state
      started := true
      refusal := none
      fullOutput := reduction.map fun _ => utf8Bytes outcome.text.toList
      cancelled := run.cancelledAfter }
  | .error error =>
    let implied := error.impliedState metadata
    let state := if run.interrupted ∧ implied = .started then .unknown else implied
    { request := request
      outcome := ⟨state, error.message, true, false, none⟩
      state := state
      started := error.started
      refusal := some error.message
      fullOutput := none
      cancelled := run.cancelledAfter }

/-- A call that was cancelled before anything was checked. -/
def notExecuted (request : ToolRequest) : ExecutedCall where
  request := request
  outcome := .failed ("'" ++ request.name ++
    "' not executed: the turn was cancelled before it started")
  state := .requested
  started := false
  refusal := some "cancelled before execution"
  fullOutput := none
  cancelled := true

/-- `dispatch`: the report of the call, or the error of the start observer, with the
steps that were taken. -/
def dispatch (registry : ToolRegistry) (run : DispatchRun) (request : ToolRequest) :
    Except String ExecutedCall × List DispatchStep :=
  match registry.configurationError with
  | some error =>
    (.ok (.refused request ("tool registry configuration is invalid: " ++ error)), [])
  | none =>
    if run.cancelledBefore then (.ok (notExecuted request), [])
    else
      match registry.screen run.gate request with
      | .error reason => (.ok (.refused request reason), [])
      | .ok tool =>
        match run.onStarted with
        | .error error => (.error error, [.startReported])
        | .ok () =>
          (.ok (registry.conclude run request tool.metadata (tool.executeWithContext request)),
            [.startReported, .entered])

end ToolRegistry

/-! ### What the runtime records -/

/-- A dispatch that observed a cancellation before it started is closed as a failure. -/
def settleUnstarted (executed : ExecutedCall) : ExecutedCall :=
  if executed.state = .requested ∧ executed.started = false then
    { executed with
      state := .failed
      outcome := { executed.outcome with state := .failed, isError := true } }
  else executed

/-- `execute_calls` from the report of the registry on. -/
def recordDispatched (call : ToolCallBlock) (executed : ExecutedCall) (durationMs : Nat)
    (readOnly : Bool) (putPayload : List UInt8 → Option BlobRef) : RecordedOutcome :=
  recordToolOutcome call (settleUnstarted executed).toExecuted durationMs readOnly putPayload

/-! ### What clears a call -/

section Gate

variable {registry : ToolRegistry} {run : DispatchRun} {request : ToolRequest}

/-- Everything that has to hold before the tool of a request is entered. -/
structure ToolRegistry.Cleared (registry : ToolRegistry) (run : DispatchRun)
    (request : ToolRequest) (tool : RegisteredTool) : Prop where
  valid : registry.configurationError = none
  current : run.cancelledBefore = false
  registered : registry.lookupTool request.name = some tool
  allowed : registry.isAllowed request.name = true
  arguments : validateArguments tool.metadata request.arguments tool.schema = .ok ()
  preflight : tool.preflight request = .ok ()
  approved : tool.metadata.readOnly = false →
    run.gate tool.metadata request.arguments = .allow
  reported : run.onStarted = .ok ()

/-- A registered tool stands under its own name. -/
lemma name_of_lookupTool {name : String} {tool : RegisteredTool}
    (h : registry.lookupTool name = some tool) : tool.metadata.name = name :=
  @key_of_lookup _ _ RegisteredTool.name _ _ _ _ h

lemma approve_eq_ok {gate : ToolMetadata → Value → Approval} {metadata : ToolMetadata}
    {arguments : Value} {u : Unit} :
    ToolRegistry.approve gate metadata arguments = .ok u ↔
      (metadata.readOnly = false → gate metadata arguments = .allow) := by
  rw [ToolRegistry.approve]
  cases metadata.readOnly
  · cases gate metadata arguments <;> simp
  · simp

/-- The checks accept a tool exactly if each of them does. -/
lemma screen_eq_ok {gate : ToolMetadata → Value → Approval} {tool : RegisteredTool} :
    registry.screen gate request = .ok tool ↔
      registry.lookupTool request.name = some tool ∧
      registry.isAllowed request.name = true ∧
      validateArguments tool.metadata request.arguments tool.schema = .ok () ∧
      tool.preflight request = .ok () ∧
      (tool.metadata.readOnly = false → gate tool.metadata request.arguments = .allow) := by
  rw [ToolRegistry.screen]
  cases hlookup : registry.lookupTool request.name with
  | none => simp
  | some found =>
    have hname := name_of_lookupTool hlookup
    have hpreflight : ∀ u : Unit,
        (found.preflight request).mapError ToolError.message = .ok u ↔
          found.preflight request = .ok () := by
      intro u
      cases found.preflight request <;> simp [Except.mapError]
    simp only [bind_eq_ok, ensure_eq_ok, hname, approve_eq_ok, hpreflight, Except.ok.injEq,
      Option.some.injEq]
    constructor
    · rintro ⟨-, hallowed, ⟨⟩, harguments, -, hpre, -, hgate, rfl⟩
      exact ⟨rfl, hallowed, harguments, hpre, hgate⟩
    · rintro ⟨rfl, hallowed, harguments, hpre, hgate⟩
      exact ⟨(), hallowed, (), harguments, (), hpre, (), hgate, rfl⟩

/-- Every way a dispatch can go. -/
lemma dispatch_cases (registry : ToolRegistry) (run : DispatchRun) (request : ToolRequest) :
    (∃ reason, registry.dispatch run request = (.ok (.refused request reason), []) ∧
      ∀ tool, ¬ registry.Cleared run request tool) ∨
    (run.cancelledBefore = true ∧
      registry.dispatch run request = (.ok (ToolRegistry.notExecuted request), [])) ∨
    (∃ error, run.onStarted = .error error ∧
      registry.dispatch run request = (.error error, [.startReported])) ∨
    ∃ tool, registry.Cleared run request tool ∧
      registry.dispatch run request =
        (.ok (registry.conclude run request tool.metadata (tool.executeWithContext request)),
          [.startReported, .entered]) := by
  rw [ToolRegistry.dispatch]
  cases hvalid : registry.configurationError with
  | some error =>
    refine .inl ⟨_, rfl, fun tool hcleared => ?_⟩
    simp [hcleared.valid] at hvalid
  | none =>
    cases hcurrent : run.cancelledBefore with
    | true => exact .inr (.inl ⟨rfl, rfl⟩)
    | false =>
      cases hscreen : registry.screen run.gate request with
      | error reason =>
        refine .inl ⟨reason, rfl, fun tool hcleared => ?_⟩
        have hok := screen_eq_ok.mpr ⟨hcleared.registered, hcleared.allowed,
          hcleared.arguments, hcleared.preflight, hcleared.approved⟩
        rw [hok] at hscreen
        cases hscreen
      | ok tool =>
        cases hstarted : run.onStarted with
        | error error => exact .inr (.inr (.inl ⟨error, rfl, rfl⟩))
        | ok started =>
          obtain ⟨hregistered, hallowed, harguments, hpreflight, happroved⟩ :=
            screen_eq_ok.mp hscreen
          exact .inr (.inr (.inr ⟨tool, ⟨hvalid, hcurrent, hregistered, hallowed, harguments,
            hpreflight, happroved, hstarted⟩, rfl⟩))

/-! ### The states of a call -/

/-- The tool itself reports a failure: in its outcome, or as an error that did not start. -/
def ReportsFailure : Except ToolError ToolOutcome → Prop
  | .ok outcome => outcome.state = .failed
  | .error error => error.started = false

/-- A coerced state is terminal. -/
lemma isTerminal_coerceState (claimed : ToolExecutionState) (metadata : ToolMetadata)
    (cancelled : Bool) :
    (ToolRegistry.coerceState claimed metadata cancelled).isTerminal = true := by
  cases claimed with
  | succeeded =>
    rw [ToolRegistry.coerceState]
    split_ifs <;> rfl
  | requested | started | failed | unknown => rfl

/-- A call that returned is in a terminal state; as a success of a mutating tool only if
nothing interrupted it, and as a failure only if the tool reported one. -/
lemma conclude_spec (metadata : ToolMetadata) (answer : Except ToolError ToolOutcome) :
    (registry.conclude run request metadata answer).state.isTerminal = true ∧
    (metadata.readOnly = false →
      ((registry.conclude run request metadata answer).state = .succeeded →
        run.interrupted = false) ∧
      ((registry.conclude run request metadata answer).state = .failed →
        ReportsFailure answer)) := by
  cases answer with
  | ok outcome =>
    refine ⟨isTerminal_coerceState _ _ _, fun hmutating => ?_⟩
    simp only [ToolRegistry.conclude, ReportsFailure]
    cases outcome.state with
    | succeeded => cases run.interrupted <;> simp [ToolRegistry.coerceState, hmutating]
    | requested | started | failed | unknown => simp [ToolRegistry.coerceState]
  | error error =>
    cases hstarted : error.started <;> cases hread : metadata.readOnly <;>
      simp [ToolRegistry.conclude, ToolError.impliedState, ReportsFailure, hstarted, hread,
        ToolExecutionState.isTerminal]

/-- A terminal state is recorded as it is. -/
lemma settleUnstarted_of_isTerminal {executed : ExecutedCall}
    (h : executed.state.isTerminal = true) : settleUnstarted executed = executed := by
  rw [settleUnstarted, if_neg]
  rintro ⟨hrequested, -⟩
  rw [hrequested] at h
  cases h

/-! ### The gate -/

/-- What holds of every dispatch. -/
structure ToolRegistry.Gated (registry : ToolRegistry) (run : DispatchRun)
    (request : ToolRequest) : Prop where
  /-- The tool is entered at most once, -/
  once : (registry.dispatch run request).2.count .entered ≤ 1
  /-- and only when every check let it, behind the report of the start. -/
  cleared : .entered ∈ (registry.dispatch run request).2 →
    (∃ tool, registry.Cleared run request tool) ∧
      (registry.dispatch run request).2 = [.startReported, .entered]
  /-- Otherwise the call did not start and is recorded as one that may run again, or the
  start could not be recorded and there is no report. -/
  refused : (∀ tool, ¬ registry.Cleared run request tool) →
    (∃ error, run.onStarted = .error error ∧
      (registry.dispatch run request).1 = .error error) ∨
    ∃ executed, (registry.dispatch run request).1 = .ok executed ∧
      executed.started = false ∧
      ∀ metadata, (settleUnstarted executed).state.replayDecision metadata = .replay
  /-- The report is terminal, but for a call cancelled before the checks. -/
  terminal : ∀ executed, (registry.dispatch run request).1 = .ok executed →
    executed.state.isTerminal = true ∨
      run.cancelledBefore = true ∧ executed = notExecuted request
  /-- A mutating tool that was interrupted is not believed to have succeeded. -/
  believed : ∀ executed tool, (registry.dispatch run request).1 = .ok executed →
    registry.lookupTool request.name = some tool → tool.metadata.readOnly = false →
      executed.state = .succeeded → run.interrupted = false
  /-- The record of a mutating call allows a replay only if the tool was not entered or
  reported a failure. -/
  replayed : ∀ executed tool call durationMs readOnly putPayload,
    (registry.dispatch run request).1 = .ok executed →
    registry.lookupTool request.name = some tool → tool.metadata.readOnly = false →
    (recordDispatched call executed durationMs readOnly putPayload).block.state.replayDecision
      tool.metadata = .replay →
    .entered ∉ (registry.dispatch run request).2 ∨
      ReportsFailure (tool.executeWithContext request)

/-- A dispatch that reports without entering the tool keeps the law. -/
lemma gated_of_not_entered {executed : ExecutedCall}
    (h : registry.dispatch run request = (.ok executed, []))
    (hunstarted : executed.started = false)
    (hstate : executed.state = .failed ∨
      run.cancelledBefore = true ∧ executed = ToolRegistry.notExecuted request) :
    registry.Gated run request := by
  refine ⟨by simp [h], by simp [h], fun _ => .inr ⟨executed, by rw [h], hunstarted, ?_⟩, ?_, ?_,
    by simp [h]⟩
  · intro metadata
    rcases hstate with hfailed | ⟨-, rfl⟩
    · rw [settleUnstarted_of_isTerminal (by rw [hfailed]; rfl), hfailed]
      rfl
    · rfl
  · intro reported hreported
    rw [h, Except.ok.injEq] at hreported
    subst hreported
    exact hstate.imp_left fun hfailed => by rw [hfailed]; rfl
  · intro reported tool hreported _ _ hsucceeded
    rw [h, Except.ok.injEq] at hreported
    subst hreported
    rcases hstate with hfailed | ⟨-, rfl⟩
    · simp [hfailed] at hsucceeded
    · simp [ToolRegistry.notExecuted] at hsucceeded

/-- **No tool runs outside its gate**: for every registry, request and behaviour of the
gate, the tool, the start observer, the token and the deadline. -/
theorem dispatch_gated (registry : ToolRegistry) (run : DispatchRun) (request : ToolRequest) :
    registry.Gated run request := by
  rcases dispatch_cases registry run request with ⟨reason, h, -⟩ | ⟨hcancelled, h⟩ |
    ⟨error, hstarted, h⟩ | ⟨tool, hcleared, h⟩
  · exact gated_of_not_entered h rfl (.inl rfl)
  · exact gated_of_not_entered h rfl (.inr ⟨hcancelled, rfl⟩)
  · exact ⟨by simp [h], by simp [h], fun _ => .inl ⟨error, hstarted, by rw [h]⟩, by simp [h],
      by simp [h], by simp [h]⟩
  · have hspec := @conclude_spec registry run request tool.metadata
      (tool.executeWithContext request)
    refine ⟨by simp [h], fun _ => ⟨⟨tool, hcleared⟩, by rw [h]⟩,
      fun hnone => absurd hcleared (hnone tool), ?_, ?_, ?_⟩
    · intro reported hreported
      rw [h, Except.ok.injEq] at hreported
      exact .inl (hreported ▸ hspec.1)
    · intro reported found hreported hfound hmutating hsucceeded
      rw [h, Except.ok.injEq] at hreported
      obtain rfl := Option.some.inj (hcleared.registered.symm.trans hfound)
      exact (hspec.2 hmutating).1 (hreported ▸ hsucceeded)
    · intro reported found call durationMs readOnly putPayload hreported hfound hmutating hreplay
      rw [h, Except.ok.injEq] at hreported
      obtain rfl := Option.some.inj (hcleared.registered.symm.trans hfound)
      have hfailed := ToolExecutionState.eq_failed_of_replay hmutating hreplay
      rw [recordDispatched, settleUnstarted_of_isTerminal (hreported ▸ hspec.1),
        ← hreported] at hfailed
      exact .inr ((hspec.2 hmutating).2 hfailed)

end Gate

/-! ### A tool that ran and failed -/

section Failing

/-- A mutating tool that reports every call as failed. -/
def failingTool : RegisteredTool where
  metadata := ⟨"exec", "run a command", false, false⟩
  schema := .object []
  preflight _ := .ok ()
  executeWithContext _ := .ok (.failed "exit status 1")

def failingRegistry : ToolRegistry where
  maxOutputBytes := 65536
  tools := [failingTool]
  distinct := by decide
  allowNames := []
  denyNames := []
  configurationError := none

def approvingRun : DispatchRun := ⟨false, fun _ _ => .allow, .ok (), false, false⟩

def execRequest : ToolRequest := ⟨"call-1", "exec", .object []⟩

/-- A mutating call whose code was entered is run again after a failure, and a call that
was cancelled in time is reported as requested. -/
theorem enteredCall_replayed :
    (¬ ∀ (registry : ToolRegistry) (run : DispatchRun) (request : ToolRequest)
      (executed : ExecutedCall) (tool : RegisteredTool),
      (registry.dispatch run request).1 = .ok executed →
      registry.lookupTool request.name = some tool → tool.metadata.readOnly = false →
      executed.state.replayDecision tool.metadata = .replay →
      .entered ∉ (registry.dispatch run request).2) ∧
    ¬ ∀ (registry : ToolRegistry) (run : DispatchRun) (request : ToolRequest)
      (executed : ExecutedCall), (registry.dispatch run request).1 = .ok executed →
      executed.state ≠ .requested := by
  refine ⟨fun hclaim => ?_, fun hclaim => ?_⟩
  · exact hclaim failingRegistry approvingRun execRequest
      (failingRegistry.conclude approvingRun execRequest failingTool.metadata
        (.ok (.failed "exit status 1"))) failingTool rfl rfl rfl (by decide) (by decide)
  · exact hclaim failingRegistry { approvingRun with cancelledBefore := true } execRequest
      (ToolRegistry.notExecuted execRequest) rfl rfl

end Failing

end Rupi
