import Rupi.Core.ContextPolicy
import Rupi.Core.Decode
import Rupi.Core.Pretty
import Rupi.Core.Redact
import Rupi.Core.Url

/-!
The runtime configuration, and how it is printed.

- `RuntimeConfig`: the configuration with its endpoints and servers.
- `RuntimeConfig.toJsonString`: what is printed of it.
- `SameButSecrets`: configurations that differ only in their secret parts.
- `config_printing_exact`: when two of them are printed alike.
-/

namespace Rupi

open Value

/-! ### The configuration -/

/-- `ThinkingLevel`. -/
inductive ThinkingLevel where
  | off | minimal | low | medium | high | xhigh
  deriving DecidableEq, Repr

def ThinkingLevel.toValue : ThinkingLevel → Value
  | off => tag "off"
  | minimal => tag "minimal"
  | low => tag "low"
  | medium => tag "medium"
  | high => tag "high"
  | xhigh => tag "xhigh"

/-- `OpenAiMaxTokensField`. -/
inductive OpenAiMaxTokensField where
  | maxTokens | maxCompletionTokens
  deriving DecidableEq, Repr

def OpenAiMaxTokensField.toValue : OpenAiMaxTokensField → Value
  | maxTokens => tag "max_tokens"
  | maxCompletionTokens => tag "max_completion_tokens"

/-- `OpenAiThinkingInput`. -/
inductive OpenAiThinkingInput where
  | none | reasoningEffort | chatTemplateThinking
  deriving DecidableEq, Repr

def OpenAiThinkingInput.toValue : OpenAiThinkingInput → Value
  | none => tag "none"
  | reasoningEffort => tag "reasoning_effort"
  | chatTemplateThinking => tag "chat_template_thinking"

/-- `OpenAiStrictToolSchemaSupport`. -/
inductive OpenAiStrictToolSchemaSupport where
  | unsupported | supported
  deriving DecidableEq, Repr

def OpenAiStrictToolSchemaSupport.toValue : OpenAiStrictToolSchemaSupport → Value
  | unsupported => tag "unsupported"
  | supported => tag "supported"

/-- `OpenAiThinkingDisable`. -/
inductive OpenAiThinkingDisable where
  | omit_ | reasoningEffortNone
  deriving DecidableEq, Repr

def OpenAiThinkingDisable.toValue : OpenAiThinkingDisable → Value
  | omit_ => tag "omit"
  | reasoningEffortNone => tag "reasoning_effort_none"

/-- A `BTreeMap<String, String>`, by its entries in order. -/
abbrev Entries : Type := List (String × String)

/-- `OpenAiCompatOptions`. -/
structure OpenAiCompatOptions where
  stream : Option Bool
  streamUsage : Option Bool
  maxTokensField : Option OpenAiMaxTokensField
  thinkingInput : Option OpenAiThinkingInput
  thinkingDisable : Option OpenAiThinkingDisable
  strictToolSchema : Option OpenAiStrictToolSchemaSupport
  preserveReasoning : Bool
  headers : Entries
  deriving DecidableEq, Repr

/-- `OpenAiCompatOptions::is_empty`. -/
def OpenAiCompatOptions.isEmpty (options : OpenAiCompatOptions) : Bool :=
  options == ⟨none, none, none, none, none, none, false, []⟩

/-- `ModelEndpoint`. -/
structure ModelEndpoint where
  provider : String
  model : String
  baseUrl : Option String
  apiKeyEnv : Option String
  apiKey : Option String
  capabilities : ModelCapabilities
  maxOutputTokens : Option Nat
  connectTimeoutMs : Option Nat
  readTimeoutMs : Option Nat
  requestTimeoutMs : Option Nat
  openaiCompat : OpenAiCompatOptions
  deriving DecidableEq, Repr

/-- `ToolPolicy`. -/
structure ToolPolicy where
  allow : List String
  deny : List String
  autoApproveMutating : Bool
  shellTimeoutMs : Nat
  maxOutputBytes : Nat
  cwd : Option String
  allowReadOutside : Bool
  allowSearchOutside : Bool
  allowWriteOutside : Bool
  deriving DecidableEq, Repr

/-- `UiConfig`. -/
structure UiConfig where
  showReasoning : Bool
  collapseReasoning : Bool
  collapseToolOutput : Bool
  deriving DecidableEq, Repr

/-- `RuntimeLimits`. -/
structure RuntimeLimits where
  maxModelRequestsPerTurn : Nat
  maxModelRequestsWithoutProgress : Option Nat
  progressToolNames : List String
  deriving DecidableEq, Repr

def RawPayloadCapture.toValue : RawPayloadCapture → Value
  | disabled => tag "disabled"
  | enabled => tag "enabled"

/-- `TraceRetention`, as it is configured. -/
structure TraceSettings where
  maxAgeDays : Option Nat
  maxBytes : Option Nat
  inlineThresholdBytes : Nat
  rawPayload : RawPayloadCapture
  compression : BlobCompression
  deriving DecidableEq, Repr

/-- `McpServerConfig`, as it is configured. -/
structure McpServerSettings where
  name : String
  command : String
  args : List String
  env : Entries
  enabled : Bool
  readOnlyTools : List String
  url : Option String
  headers : Entries
  deriving DecidableEq, Repr

/-- `RuntimeConfig`. -/
structure RuntimeConfig where
  version : Nat
  primary : ModelRef
  backup : Option ModelRef
  contextProfile : ContextProfile
  contextOverrides : Option ContextOverrides
  adaptiveContext : Option Bool
  thinking : ThinkingLevel
  stateDir : String
  endpoints : List ModelEndpoint
  tools : ToolPolicy
  ui : UiConfig
  limits : RuntimeLimits
  trace : TraceSettings
  redaction : RedactionPolicy
  mcpServers : List McpServerSettings
  deriving DecidableEq, Repr

/-- `ModelEndpoint::local`. -/
def ModelEndpoint.ofLocal (provider model baseUrl : String) (contextWindow : Nat) :
    ModelEndpoint where
  provider := provider
  model := model
  baseUrl := some baseUrl
  apiKeyEnv := none
  apiKey := none
  capabilities := ⟨true, false, true, .none, contextWindow, none⟩
  maxOutputTokens := none
  connectTimeoutMs := none
  readTimeoutMs := none
  requestTimeoutMs := none
  openaiCompat := ⟨none, none, none, none, none, none, false, []⟩

/-- `RuntimeConfig::new`. -/
def RuntimeConfig.new (primary : ModelRef) (stateDir : String) : RuntimeConfig where
  version := 1
  primary := primary
  backup := none
  contextProfile := .balanced
  contextOverrides := none
  adaptiveContext := none
  thinking := .medium
  stateDir := stateDir
  endpoints := []
  tools := ⟨[], [], false, 120000, 8 * 1024, none, false, false, false⟩
  ui := ⟨true, true, true⟩
  limits := ⟨32, none, []⟩
  trace := ⟨none, some (512 * 1024 * 1024), 8 * 1024, .disabled, .none⟩
  redaction := ⟨true, 8, [], true, []⟩
  mcpServers := []

/-! ### Serialization -/

/-- `redact_url` on a text. -/
def redactUrlText (url : String) : String := String.ofList (redactUrl url.toList)

def redacted : Value := string "[redacted]"

/-- `serialize_redacted_values`. -/
def redactedValues (entries : Entries) : Value :=
  ofObject (entries.map fun entry => (entry.1, some redacted))

def textItems (items : List String) : Value := array (items.map string)

/-- A field that is left out when there is nothing in it. -/
def unlessEmpty (encode : List α → Value) (items : List α) : Option Value :=
  if items.isEmpty then none else some (encode items)

def ContextProfile.toValue : ContextProfile → Value
  | .aggressive => tag "aggressive"
  | .balanced => tag "balanced"
  | .relaxed => tag "relaxed"

def ContextOverrides.toValue (overrides : ContextOverrides) : Value :=
  ofObject
    [("warn_tokens", optional ofNat overrides.warnTokens),
      ("reduce_tokens", optional ofNat overrides.reduceTokens),
      ("compact_tokens", optional ofNat overrides.compactTokens),
      ("checkpoint_tokens", optional ofNat overrides.checkpointTokens),
      ("recent_target_tokens", optional ofNat overrides.recentTargetTokens)]

def OpenAiCompatOptions.toValue (options : OpenAiCompatOptions) : Value :=
  ofObject
    [("stream", optional bool options.stream),
      ("stream_usage", optional bool options.streamUsage),
      ("max_tokens_field", optional OpenAiMaxTokensField.toValue options.maxTokensField),
      ("thinking_input", optional OpenAiThinkingInput.toValue options.thinkingInput),
      ("thinking_disable", optional OpenAiThinkingDisable.toValue options.thinkingDisable),
      ("strict_tool_schema",
        optional OpenAiStrictToolSchemaSupport.toValue options.strictToolSchema),
      ("preserve_reasoning", if options.preserveReasoning then some (bool true) else none),
      ("headers", unlessEmpty redactedValues options.headers)]

def ModelEndpoint.toValue (endpoint : ModelEndpoint) : Value :=
  ofObject
    [("provider", some (string endpoint.provider)), ("model", some (string endpoint.model)),
      ("base_url", optional string (endpoint.baseUrl.map redactUrlText)),
      ("api_key_env", optional string endpoint.apiKeyEnv),
      ("capabilities", some endpoint.capabilities.toValue),
      ("max_output_tokens", optional ofNat endpoint.maxOutputTokens),
      ("connect_timeout_ms", optional ofNat endpoint.connectTimeoutMs),
      ("read_timeout_ms", optional ofNat endpoint.readTimeoutMs),
      ("request_timeout_ms", optional ofNat endpoint.requestTimeoutMs),
      ("openai_compat",
        if endpoint.openaiCompat.isEmpty then none else some endpoint.openaiCompat.toValue)]

def ToolPolicy.toValue (tools : ToolPolicy) : Value :=
  ofObject
    [("allow", some (textItems tools.allow)), ("deny", some (textItems tools.deny)),
      ("auto_approve_mutating", some (bool tools.autoApproveMutating)),
      ("shell_timeout_ms", some (ofNat tools.shellTimeoutMs)),
      ("max_output_bytes", some (ofNat tools.maxOutputBytes)), ("cwd", optional string tools.cwd),
      ("allow_read_outside", some (bool tools.allowReadOutside)),
      ("allow_search_outside", some (bool tools.allowSearchOutside)),
      ("allow_write_outside", some (bool tools.allowWriteOutside))]

def UiConfig.toValue (ui : UiConfig) : Value :=
  ofObject
    [("show_reasoning", some (bool ui.showReasoning)),
      ("collapse_reasoning", some (bool ui.collapseReasoning)),
      ("collapse_tool_output", some (bool ui.collapseToolOutput))]

def RuntimeLimits.toValue (limits : RuntimeLimits) : Value :=
  ofObject
    [("max_model_requests_per_turn", some (ofNat limits.maxModelRequestsPerTurn)),
      ("max_model_requests_without_progress",
        optional ofNat limits.maxModelRequestsWithoutProgress),
      ("progress_tool_names", unlessEmpty textItems limits.progressToolNames)]

def TraceSettings.toValue (trace : TraceSettings) : Value :=
  ofObject
    [("max_age_days", optional ofNat trace.maxAgeDays),
      ("max_bytes", optional ofNat trace.maxBytes),
      ("inline_threshold_bytes", some (ofNat trace.inlineThresholdBytes)),
      ("raw_payload", some trace.rawPayload.toValue),
      ("compression",
        if trace.compression = .none then none else some trace.compression.toValue)]

def RedactionPolicy.toValue (policy : RedactionPolicy) : Value :=
  ofObject
    [("enabled", some (bool policy.enabled)), ("min_secret_len", some (ofNat policy.minSecretLen)),
      ("scan_environment", some (bool policy.scanEnvironment))]

def McpServerSettings.toValue (server : McpServerSettings) : Value :=
  ofObject
    [("name", some (string server.name)), ("command", some (string server.command)),
      ("args", some (textItems server.args)), ("env", some (redactedValues server.env)),
      ("enabled", some (bool server.enabled)),
      ("read_only_tools", some (textItems server.readOnlyTools)),
      ("url", optional string (server.url.map redactUrlText)),
      ("headers", unlessEmpty redactedValues server.headers)]

def RuntimeConfig.toValue (config : RuntimeConfig) : Value :=
  ofObject
    [("version", some (ofNat config.version)), ("primary", some config.primary.toValue),
      ("backup", optional ModelRef.toValue config.backup),
      ("context_profile", some config.contextProfile.toValue),
      ("context_overrides", optional ContextOverrides.toValue config.contextOverrides),
      ("adaptive_context", optional bool config.adaptiveContext),
      ("thinking", some config.thinking.toValue), ("state_dir", some (string config.stateDir)),
      ("endpoints", some (array (config.endpoints.map ModelEndpoint.toValue))),
      ("tools", some config.tools.toValue), ("ui", some config.ui.toValue),
      ("limits", some config.limits.toValue), ("trace", some config.trace.toValue),
      ("redaction", some config.redaction.toValue),
      ("mcp_servers", some (array (config.mcpServers.map McpServerSettings.toValue)))]

/-! ### Printing -/

namespace Value

/-- `get_mut` on an object, and a change of what is there. -/
def modify (key : String) (f : Value → Value) : Value → Value
  | object fields =>
    object (fields.map fun field => if field.1 = key then (field.1, f field.2) else field)
  | value => value

/-- `remove` on an object. -/
def remove (key : String) : Value → Value
  | object fields => object (fields.filter fun field => field.1 != key)
  | value => value

/-- A change of every item of an array. -/
def modifyItems (f : Value → Value) : Value → Value
  | array items => array (items.map f)
  | value => value

/-- A change of every value of an object. -/
def modifyValues (f : Value → Value) : Value → Value
  | object fields => object (fields.map fun field => (field.1, f field.2))
  | value => value

end Value

/-- What `to_json_string` does to a server. -/
def strippedServer (server : Value) : Value :=
  let server :=
    match server.get "url" with
    | some (string url) => server.setField "url" (string (redactUrlText url))
    | _ => server
  server.modify "headers" (modifyValues fun _ => redacted)

/-- The tree that `to_json_string` prints. -/
def RuntimeConfig.printedTree (config : RuntimeConfig) : Value :=
  (config.toValue.modify "endpoints" (modifyItems (Value.remove "api_key"))).modify "mcp_servers"
    (modifyItems strippedServer)

/-- `RuntimeConfig::to_json_string`. -/
def RuntimeConfig.toJsonString (config : RuntimeConfig) : String := config.printedTree.pretty

/-! ### What is no secret -/

/-- The values of a map are secret, its names are not. -/
def publicEntries (entries : Entries) : Entries := entries.map fun entry => (entry.1, "")

def publicUrl (url : String) : Url := (Url.parse url.toList).visible

/-- An endpoint without its key, the values of its headers and the secret parts of its URL. -/
def ModelEndpoint.publicPart (endpoint : ModelEndpoint) : ModelEndpoint × Option Url :=
  ({ endpoint with
      baseUrl := none
      apiKey := none
      openaiCompat :=
        { endpoint.openaiCompat with headers := publicEntries endpoint.openaiCompat.headers } },
    endpoint.baseUrl.map publicUrl)

/-- A server without the values of its environment and its headers and the secret parts of its
URL. -/
def McpServerSettings.publicPart (server : McpServerSettings) : McpServerSettings × Option Url :=
  ({ server with
      env := publicEntries server.env
      url := none
      headers := publicEntries server.headers },
    server.url.map publicUrl)

/-- A redaction policy without its literals and what it found in the environment. -/
def RedactionPolicy.publicPart (policy : RedactionPolicy) : RedactionPolicy :=
  { policy with literals := [], envSecrets := [] }

namespace RuntimeConfig

/-- The configuration without its secrets. -/
def publicPart (config : RuntimeConfig) :
    RuntimeConfig × List (ModelEndpoint × Option Url) × List (McpServerSettings × Option Url) :=
  ({ config with endpoints := [], redaction := config.redaction.publicPart, mcpServers := [] },
    config.endpoints.map ModelEndpoint.publicPart,
    config.mcpServers.map McpServerSettings.publicPart)

/-- The two differ only in secret parts. -/
def SameButSecrets (config config' : RuntimeConfig) : Prop :=
  config.publicPart = config'.publicPart

instance (config config' : RuntimeConfig) : Decidable (SameButSecrets config config') :=
  inferInstanceAs (Decidable (config.publicPart = config'.publicPart))

/-- Every URL of the configuration. -/
def urls (config : RuntimeConfig) : List String :=
  config.endpoints.filterMap ModelEndpoint.baseUrl ++
    config.mcpServers.filterMap McpServerSettings.url

end RuntimeConfig

/-! ### Printing hides what is secret -/

section Hidden

lemma redactedValues_eq {entries entries' : Entries}
    (h : publicEntries entries = publicEntries entries') :
    redactedValues entries = redactedValues entries' := by
  have hkeys : entries.map Prod.fst = entries'.map Prod.fst := by
    have hmap := congrArg (List.map Prod.fst) h
    simpa [publicEntries, Function.comp_def] using hmap
  have hvalues : ∀ entries : Entries, redactedValues entries =
      ofObject ((entries.map Prod.fst).map fun key => (key, some redacted)) := fun entries => by
    rw [redactedValues, List.map_map]
    rfl
  rw [hvalues, hvalues, hkeys]

lemma isEmpty_eq_of_publicEntries {entries entries' : Entries}
    (h : publicEntries entries = publicEntries entries') : entries.isEmpty = entries'.isEmpty := by
  have hlength := congrArg List.length h
  simp only [publicEntries, List.length_map] at hlength
  cases entries <;> cases entries' <;> simp_all

/-- URLs whose secret parts are cut off are printed alike where they are alike otherwise. -/
lemma redactUrlText_eq {url url' : Option String} (h : url.map publicUrl = url'.map publicUrl)
    (hsliced : ∀ u ∈ url, (Url.parse u.toList).Sliced)
    (hsliced' : ∀ u ∈ url', (Url.parse u.toList).Sliced) :
    url.map redactUrlText = url'.map redactUrlText := by
  cases url with
  | none =>
    cases url' with
    | none => rfl
    | some u' => simp at h
  | some u =>
    cases url' with
    | none => simp at h
    | some u' =>
      have hsame : publicUrl u = publicUrl u' := by simpa using h
      simp only [Option.map_some, redactUrlText,
        redactUrl_eq_of_sliced hsame (hsliced u rfl) (hsliced' u' rfl)]

/-- Options that differ in the values of their headers are printed alike. -/
lemma OpenAiCompatOptions.toValue_eq {options options' : OpenAiCompatOptions}
    (h : ({ options with headers := publicEntries options.headers } : OpenAiCompatOptions) =
      { options' with headers := publicEntries options'.headers }) :
    options.isEmpty = options'.isEmpty ∧ options.toValue = options'.toValue := by
  obtain ⟨stream, streamUsage, maxTokensField, thinkingInput, thinkingDisable, strictToolSchema,
    preserveReasoning, headers⟩ := options
  obtain ⟨_, _, _, _, _, _, _, headers'⟩ := options'
  simp only [OpenAiCompatOptions.mk.injEq] at h
  obtain ⟨rfl, rfl, rfl, rfl, rfl, rfl, rfl, hheaders⟩ := h
  have hempty := isEmpty_eq_of_publicEntries hheaders
  constructor
  · rw [isEmpty, isEmpty, Bool.eq_iff_iff]
    simp only [beq_iff_eq, OpenAiCompatOptions.mk.injEq, ← List.isEmpty_iff, hempty]
  · rw [toValue, toValue]
    dsimp only
    rw [unlessEmpty, unlessEmpty, redactedValues_eq hheaders, hempty]

lemma ModelEndpoint.toValue_eq {endpoint endpoint' : ModelEndpoint}
    (h : endpoint.publicPart = endpoint'.publicPart)
    (hsliced : ∀ u ∈ endpoint.baseUrl, (Url.parse u.toList).Sliced)
    (hsliced' : ∀ u ∈ endpoint'.baseUrl, (Url.parse u.toList).Sliced) :
    endpoint.toValue = endpoint'.toValue := by
  obtain ⟨provider, model, baseUrl, apiKeyEnv, apiKey, capabilities, maxOutputTokens,
    connectTimeoutMs, readTimeoutMs, requestTimeoutMs, options⟩ := endpoint
  obtain ⟨_, _, baseUrl', _, apiKey', _, _, _, _, _, options'⟩ := endpoint'
  simp only [publicPart, Prod.mk.injEq, ModelEndpoint.mk.injEq, true_and] at h
  obtain ⟨⟨rfl, rfl, rfl, rfl, rfl, rfl, rfl, rfl, hoptions⟩, hurl⟩ := h
  obtain ⟨hempty, hvalue⟩ := OpenAiCompatOptions.toValue_eq hoptions
  rw [toValue, toValue]
  dsimp only
  rw [redactUrlText_eq hurl hsliced hsliced', hempty, hvalue]

lemma McpServerSettings.toValue_eq {server server' : McpServerSettings}
    (h : server.publicPart = server'.publicPart)
    (hsliced : ∀ u ∈ server.url, (Url.parse u.toList).Sliced)
    (hsliced' : ∀ u ∈ server'.url, (Url.parse u.toList).Sliced) :
    server.toValue = server'.toValue := by
  obtain ⟨name, command, args, env, enabled, readOnlyTools, url, headers⟩ := server
  obtain ⟨_, _, _, env', _, _, url', headers'⟩ := server'
  simp only [publicPart, Prod.mk.injEq, McpServerSettings.mk.injEq] at h
  obtain ⟨⟨rfl, rfl, rfl, henv, rfl, rfl, -, hheaders⟩, hurl⟩ := h
  rw [toValue, toValue]
  dsimp only
  rw [redactUrlText_eq hurl hsliced hsliced', redactedValues_eq henv, unlessEmpty, unlessEmpty,
    redactedValues_eq hheaders, isEmpty_eq_of_publicEntries hheaders]

/-- Lists that agree item by item in one way agree so in another. -/
lemma map_eq_of_map_eq {f : α → β} {g : α → γ} {xs ys : List α} (h : xs.map f = ys.map f)
    (hitem : ∀ x ∈ xs, ∀ y ∈ ys, f x = f y → g x = g y) : xs.map g = ys.map g := by
  induction xs generalizing ys with
  | nil => simpa using h
  | cons x xs ih =>
    cases ys with
    | nil => simp at h
    | cons y ys =>
      obtain ⟨hhead, htail⟩ : f x = f y ∧ xs.map f = ys.map f := by simpa using h
      rw [List.map_cons, List.map_cons, hitem x (by simp) y (by simp) hhead,
        ih htail fun a ha b hb => hitem a (by simp [ha]) b (by simp [hb])]

open RuntimeConfig

variable {config config' : RuntimeConfig}

/-- **What is cut off a sliced URL, and every other secret, is not printed.** -/
lemma toValue_eq_of_sameButSecrets (h : SameButSecrets config config')
    (hsliced : ∀ u ∈ config.urls, (Url.parse u.toList).Sliced)
    (hsliced' : ∀ u ∈ config'.urls, (Url.parse u.toList).Sliced) :
    config.toValue = config'.toValue := by
  obtain ⟨hrest, hparts⟩ := Prod.mk.inj h
  obtain ⟨hendpoints, hservers⟩ := Prod.mk.inj hparts
  have hmem : ∀ (config : RuntimeConfig) (endpoint : ModelEndpoint), endpoint ∈ config.endpoints →
      ∀ u ∈ endpoint.baseUrl, u ∈ config.urls := fun config endpoint hin u hu =>
    List.mem_append_left _ (List.mem_filterMap.2 ⟨endpoint, hin, hu⟩)
  have hmem' : ∀ (config : RuntimeConfig) (server : McpServerSettings), server ∈ config.mcpServers →
      ∀ u ∈ server.url, u ∈ config.urls := fun config server hin u hu =>
    List.mem_append_right _ (List.mem_filterMap.2 ⟨server, hin, hu⟩)
  have hendpointValues : config.endpoints.map ModelEndpoint.toValue =
      config'.endpoints.map ModelEndpoint.toValue :=
    map_eq_of_map_eq hendpoints fun x hx y hy hxy => ModelEndpoint.toValue_eq hxy
      (fun u hu => hsliced u (hmem config x hx u hu))
      (fun u hu => hsliced' u (hmem config' y hy u hu))
  have hserverValues : config.mcpServers.map McpServerSettings.toValue =
      config'.mcpServers.map McpServerSettings.toValue :=
    map_eq_of_map_eq hservers fun x hx y hy hxy => McpServerSettings.toValue_eq hxy
      (fun u hu => hsliced u (hmem' config x hx u hu))
      (fun u hu => hsliced' u (hmem' config' y hy u hu))
  obtain ⟨version, primary, backup, contextProfile, contextOverrides, adaptiveContext, thinking,
    stateDir, endpoints, tools, ui, limits, trace, policy, mcpServers⟩ := config
  obtain ⟨_, _, _, _, _, _, _, _, endpoints', _, _, _, _, policy', mcpServers'⟩ := config'
  simp only [RuntimeConfig.mk.injEq] at hrest
  obtain ⟨rfl, rfl, rfl, rfl, rfl, rfl, rfl, rfl, -, rfl, rfl, rfl, rfl, hpolicy, -⟩ := hrest
  have hpolicyValue : policy.toValue = policy'.toValue := by
    simp only [RedactionPolicy.publicPart, RedactionPolicy.mk.injEq] at hpolicy
    rw [RedactionPolicy.toValue, RedactionPolicy.toValue, hpolicy.1, hpolicy.2.1, hpolicy.2.2.2.1]
  dsimp only at hendpointValues hserverValues
  rw [RuntimeConfig.toValue, RuntimeConfig.toValue]
  dsimp only
  rw [hendpointValues, hserverValues, hpolicyValue]

end Hidden

/-! ### What is printed of a URL -/

section Shown

namespace Value

variable {key other : String} {f : Value → Value}

lemma get_modify_self (value : Value) : (value.modify key f).get key = (value.get key).map f := by
  cases value with
  | object fields =>
    induction fields with
    | nil => rfl
    | cons field fields ih =>
      simp only [modify, get, List.map_cons, List.find?_cons] at ih ⊢
      by_cases hkey : field.1 = key
      · simp [hkey]
      · have hbeq : (field.1 == key) = false := by simpa using hkey
        simp only [hkey, if_false, hbeq]
        exact ih
  | _ => rfl

lemma get_modify_ne (hne : other ≠ key) (value : Value) :
    (value.modify key f).get other = value.get other := by
  cases value with
  | object fields =>
    induction fields with
    | nil => rfl
    | cons field fields ih =>
      simp only [modify, get, List.map_cons, List.find?_cons] at ih ⊢
      by_cases hother : field.1 = other
      · simp [hother, hne]
      · have hbeq : (field.1 == other) = false := by simpa using hother
        have hsame : ((if field.1 = key then (field.1, f field.2) else field).1 == other) =
            false := by split_ifs <;> exact hbeq
        simp only [hsame, hbeq]
        exact ih
  | _ => rfl

lemma get_remove_ne (hne : other ≠ key) (value : Value) :
    (value.remove key).get other = value.get other := by
  cases value with
  | object fields =>
    simp only [remove, get, List.find?_filter]
    congr 2
    funext field
    by_cases hother : field.1 = other
    · simp [hother, hne]
    · simp [hother]
  | _ => rfl

end Value

lemma redactUrlText_idem (url : String) :
    redactUrlText (redactUrlText url) = redactUrlText url := by
  rw [redactUrlText, redactUrlText, String.toList_ofList, redactUrl_idem]

lemma get_baseUrl (endpoint : ModelEndpoint) :
    (endpoint.toValue.remove "api_key").get "base_url" =
      optional string (endpoint.baseUrl.map redactUrlText) := by
  rw [Value.get_remove_ne (by decide), ModelEndpoint.toValue]
  simp

lemma get_url (server : McpServerSettings) :
    (strippedServer server.toValue).get "url" =
      optional string (server.url.map redactUrlText) := by
  have hget : server.toValue.get "url" = optional string (server.url.map redactUrlText) := by
    rw [McpServerSettings.toValue]
    simp
  rw [strippedServer, Value.get_modify_ne (by decide), hget]
  cases hurl : server.url with
  | none =>
    rw [hurl] at hget
    exact hget
  | some url =>
    dsimp only [Option.map_some, Value.optional]
    rw [redactUrlText_idem]
    exact Value.get_insertField_self _ _ _

/-- The URLs of the endpoints are in what is printed. -/
lemma get_endpoints (config : RuntimeConfig) :
    config.printedTree.get "endpoints" =
      some (array (config.endpoints.map fun endpoint => endpoint.toValue.remove "api_key")) := by
  rw [RuntimeConfig.printedTree, Value.get_modify_ne (by decide), Value.get_modify_self,
    RuntimeConfig.toValue]
  simp [Value.modifyItems, Function.comp_def]

/-- The URLs of the servers are in what is printed. -/
lemma get_mcpServers (config : RuntimeConfig) :
    config.printedTree.get "mcp_servers" =
      some (array (config.mcpServers.map fun server => strippedServer server.toValue)) := by
  rw [RuntimeConfig.printedTree, Value.get_modify_self, Value.get_modify_ne (by decide),
    RuntimeConfig.toValue]
  simp [Value.modifyItems, Function.comp_def]

variable {config config' : RuntimeConfig}

lemma printed_baseUrls (h : config.printedTree = config'.printedTree) :
    config.endpoints.map (fun endpoint => endpoint.baseUrl.map redactUrlText) =
      config'.endpoints.map fun endpoint => endpoint.baseUrl.map redactUrlText := by
  have hitems := get_endpoints config
  rw [h, get_endpoints config', Option.some.injEq, array.injEq] at hitems
  refine map_eq_of_map_eq hitems.symm fun x _ y _ hxy => ?_
  have hget : (x.toValue.remove "api_key").get "base_url" =
      (y.toValue.remove "api_key").get "base_url" := by rw [hxy]
  rw [get_baseUrl, get_baseUrl] at hget
  exact Option.map_injective (fun _ _ heq => string.inj heq) hget

lemma printed_urls (h : config.printedTree = config'.printedTree) :
    config.mcpServers.map (fun server => server.url.map redactUrlText) =
      config'.mcpServers.map fun server => server.url.map redactUrlText := by
  have hitems := get_mcpServers config
  rw [h, get_mcpServers config', Option.some.injEq, array.injEq] at hitems
  refine map_eq_of_map_eq hitems.symm fun x _ y _ hxy => ?_
  have hget : (strippedServer x.toValue).get "url" = (strippedServer y.toValue).get "url" := by
    rw [hxy]
  rw [get_url, get_url] at hget
  exact Option.map_injective (fun _ _ heq => string.inj heq) hget

/-- A URL is closed if every configuration with a variant of it is printed alike. -/
lemma closed_of_printed {url : String}
    (h : ∀ url', publicUrl url = publicUrl url' → redactUrlText url = redactUrlText url') :
    (Url.parse url.toList).Closed := by
  refine (redactUrl_const_iff url.toList).1 fun url' hsame => ?_
  have htext := h (String.ofList url') (by rwa [publicUrl, publicUrl, String.toList_ofList])
  rw [redactUrlText, redactUrlText, String.toList_ofList] at htext
  exact String.ofList_injective htext

end Shown

/-! ### There are no fractions in a configuration -/

section Integral

namespace Value

@[simp] lemma integral_string (text : String) : (string text).integral = true := rfl

@[simp] lemma integral_bool (b : Bool) : (bool b).integral = true := rfl

@[simp] lemma integral_ofNat (n : Nat) : (ofNat n).integral = true := rfl

@[simp] lemma integral_array (items : List Value) :
    (array items).integral = true ↔ ∀ item ∈ items, item.integral = true := integralItems_iff

@[simp] lemma integral_object (fields : List (String × Value)) :
    (object fields).integral = true ↔ ∀ field ∈ fields, field.2.integral = true :=
  integralFields_iff

/-- A field without fractions, if it is there. -/
def IntegralField (field : Option Value) : Prop := ∀ value ∈ field, value.integral = true

@[simp] lemma integralField_none : IntegralField none := by simp [IntegralField]

@[simp] lemma integralField_some (value : Value) :
    IntegralField (some value) ↔ value.integral = true := by simp [IntegralField]

lemma integralField_optional {encode : α → Value} (h : ∀ a, (encode a).integral = true)
    (value : Option α) : IntegralField (optional encode value) := by
  cases value <;> simp [optional, h]

@[simp] lemma integralField_string (value : Option String) :
    IntegralField (optional string value) := integralField_optional (fun _ => rfl) value

@[simp] lemma integralField_bool (value : Option Bool) :
    IntegralField (optional bool value) := integralField_optional (fun _ => rfl) value

@[simp] lemma integralField_ofNat (value : Option Nat) :
    IntegralField (optional ofNat value) := integralField_optional (fun _ => rfl) value

lemma integral_modify {key : String} {f : Value → Value} {value : Value}
    (hf : ∀ v : Value, v.integral = true → (f v).integral = true) (h : value.integral = true) :
    (value.modify key f).integral = true := by
  cases value with
  | object fields =>
    rw [modify, integral_object]
    intro field hfield
    obtain ⟨other, hother, rfl⟩ := List.mem_map.1 hfield
    have hvalue := (integral_object fields).1 h other hother
    split_ifs
    · exact hf _ hvalue
    · exact hvalue
  | _ => exact h

lemma integral_modifyItems {f : Value → Value} {value : Value}
    (hf : ∀ v : Value, v.integral = true → (f v).integral = true) (h : value.integral = true) :
    (modifyItems f value).integral = true := by
  cases value with
  | array items =>
    rw [modifyItems, integral_array]
    intro item hitem
    obtain ⟨other, hother, rfl⟩ := List.mem_map.1 hitem
    exact hf _ ((integral_array items).1 h other hother)
  | _ => exact h

lemma integral_modifyValues {f : Value → Value} {value : Value}
    (hf : ∀ v : Value, (f v).integral = true) (h : value.integral = true) :
    (modifyValues f value).integral = true := by
  cases value with
  | object fields =>
    rw [modifyValues, integral_object]
    intro field hfield
    obtain ⟨other, -, rfl⟩ := List.mem_map.1 hfield
    exact hf _
  | _ => exact h

lemma integral_remove {key : String} {value : Value} (h : value.integral = true) :
    (value.remove key).integral = true := by
  cases value with
  | object fields =>
    rw [remove, integral_object]
    exact fun field hfield => (integral_object fields).1 h field (List.mem_of_mem_filter hfield)
  | _ => exact h

lemma mem_or_eq_of_mem_insertField {key : String} {value : Value} {fields : List (String × Value)}
    {field : String × Value} (h : field ∈ insertField key value fields) :
    field = (key, value) ∨ field ∈ fields := by
  induction fields with
  | nil => exact .inl (by simpa [insertField] using h)
  | cons other fields ih =>
    rw [insertField] at h
    split_ifs at h
    · exact (List.mem_cons.1 h).imp_right (List.mem_cons_of_mem _)
    · exact List.mem_cons.1 h
    · rcases List.mem_cons.1 h with rfl | h
      · exact .inr List.mem_cons_self
      · exact (ih h).imp_right (List.mem_cons_of_mem _)

lemma integral_setField {key : String} {value field : Value} (h : value.integral = true)
    (hfield : field.integral = true) : (value.setField key field).integral = true := by
  cases value with
  | object fields =>
    rw [setField, integral_object]
    intro other hother
    rcases mem_or_eq_of_mem_insertField hother with rfl | hother
    · exact hfield
    · exact (integral_object fields).1 h other hother
  | _ => exact h

/-- An object without fractions, by its fields. -/
lemma integral_fields {fields : List (String × Option Value)}
    (h : ∀ field ∈ fields, IntegralField field.2) : (ofObject fields).integral = true :=
  integral_ofObject h

end Value

lemma integral_textItems (items : List String) : (textItems items).integral = true := by
  simp [textItems]

lemma integral_redactedValues (entries : Entries) : (redactedValues entries).integral = true :=
  integral_fields fun field hfield => by
    obtain ⟨entry, -, rfl⟩ := List.mem_map.1 hfield
    simp [redacted]

lemma integralField_unlessEmpty {encode : List α → Value}
    (h : ∀ items, (encode items).integral = true) (items : List α) :
    IntegralField (unlessEmpty encode items) := by
  rw [unlessEmpty]
  split_ifs <;> simp [h]

lemma integralField_if {c : Prop} [Decidable c] {value : Value} (h : value.integral = true) :
    IntegralField (if c then none else some value) := by
  split_ifs <;> simp [h]

lemma integral_capabilities (capabilities : ModelCapabilities) :
    capabilities.toValue.integral = true := by
  have hexposure : capabilities.exposedReasoning.toValue.integral = true := by
    cases capabilities.exposedReasoning <;> rfl
  refine integral_fields ?_
  simp [hexposure]

lemma integral_options (options : OpenAiCompatOptions) : options.toValue.integral = true := by
  have hmax : ∀ a : OpenAiMaxTokensField, a.toValue.integral = true := by rintro ⟨⟩ <;> rfl
  have hinput : ∀ a : OpenAiThinkingInput, a.toValue.integral = true := by rintro ⟨⟩ <;> rfl
  have hdisable : ∀ a : OpenAiThinkingDisable, a.toValue.integral = true := by rintro ⟨⟩ <;> rfl
  have hstrict : ∀ a : OpenAiStrictToolSchemaSupport, a.toValue.integral = true := by
    rintro ⟨⟩ <;> rfl
  have hreasoning :
      IntegralField (if options.preserveReasoning then some (bool true) else none) := by
    split_ifs <;> simp
  refine integral_fields ?_
  simp [integralField_optional, integralField_unlessEmpty, integral_redactedValues, hmax, hinput,
    hdisable, hstrict, hreasoning]

lemma integral_endpoint (endpoint : ModelEndpoint) : endpoint.toValue.integral = true := by
  refine integral_fields ?_
  simp [integral_capabilities, integralField_if, integral_options]

lemma integral_server (server : McpServerSettings) : server.toValue.integral = true := by
  refine integral_fields ?_
  simp [integral_textItems, integral_redactedValues, integralField_unlessEmpty]

lemma integral_strippedServer {server : Value} (h : server.integral = true) :
    (strippedServer server).integral = true := by
  refine integral_modify (fun v hv => integral_modifyValues (fun _ => rfl) hv) ?_
  split
  · exact integral_setField h rfl
  · exact h

lemma integral_config (config : RuntimeConfig) : config.toValue.integral = true := by
  have hprofile : config.contextProfile.toValue.integral = true := by
    cases config.contextProfile <;> rfl
  have hthinking : config.thinking.toValue.integral = true := by
    cases config.thinking <;> rfl
  have hoverrides : ∀ overrides : ContextOverrides, overrides.toValue.integral = true := by
    intro overrides
    refine integral_fields ?_
    simp
  have htools : config.tools.toValue.integral = true := by
    refine integral_fields ?_
    simp [integral_textItems]
  have hui : config.ui.toValue.integral = true := by
    refine integral_fields ?_
    simp
  have hlimits : config.limits.toValue.integral = true := by
    refine integral_fields ?_
    simp [integralField_unlessEmpty, integral_textItems]
  have htrace : config.trace.toValue.integral = true := by
    have hcapture : config.trace.rawPayload.toValue.integral = true := by
      cases config.trace.rawPayload <;> rfl
    have hcompression : config.trace.compression.toValue.integral = true := by
      cases config.trace.compression <;> rfl
    refine integral_fields ?_
    simp [integralField_if, hcapture, hcompression]
  have hredaction : config.redaction.toValue.integral = true := by
    refine integral_fields ?_
    simp
  have hmodel : ∀ model : ModelRef, model.toValue.integral = true := fun _ => rfl
  refine integral_fields ?_
  simp [integralField_optional, integral_endpoint, integral_server, hprofile, hthinking, hoverrides,
    htools, hui, hlimits, htrace, hredaction, hmodel]

lemma integral_printedTree (config : RuntimeConfig) : config.printedTree.integral = true :=
  integral_modify (fun _ hv => integral_modifyItems (fun _ h => integral_strippedServer h) hv)
    (integral_modify (fun _ hv => integral_modifyItems (fun _ h => integral_remove h) hv)
      (integral_config config))

end Integral

open RuntimeConfig

/-- Configurations that differ only in secret parts have the same URLs, but for those parts. -/
lemma publicUrl_urls {config config' : RuntimeConfig} (h : SameButSecrets config config') :
    config.urls.map publicUrl = config'.urls.map publicUrl := by
  obtain ⟨-, hparts⟩ := Prod.mk.inj h
  obtain ⟨hendpoints, hservers⟩ := Prod.mk.inj hparts
  have hurls : ∀ config : RuntimeConfig, config.urls.map publicUrl =
      (config.endpoints.map ModelEndpoint.publicPart).filterMap Prod.snd ++
        (config.mcpServers.map McpServerSettings.publicPart).filterMap Prod.snd := by
    intro config
    rw [urls, List.map_append, List.map_filterMap, List.map_filterMap, List.filterMap_map,
      List.filterMap_map]
    rfl
  rw [hurls, hurls, hendpoints, hservers]

/-- Configurations that differ only in secret parts are printed alike. -/
def PrintsAlike (config : RuntimeConfig) : Prop :=
  ∀ config', SameButSecrets config config' → config.toJsonString = config'.toJsonString

/-- **When printing a configuration hides its secrets.** Two configurations that differ only in
secret parts are printed alike if in both every URL with userinfo has a scheme and no fragment
without a query in front of it has a `?`; and a configuration is printed like all that differ from
it so exactly if every URL with userinfo has a scheme and every one with a fragment has a query.
Printing a URL twice prints it once. -/
theorem config_printing_exact (config : RuntimeConfig) :
    (∀ config', SameButSecrets config config' →
      (∀ u ∈ config.urls ++ config'.urls, (Url.parse u.toList).Sliced) →
      config.toJsonString = config'.toJsonString) ∧
    (PrintsAlike config ↔ ∀ u ∈ config.urls, (Url.parse u.toList).Closed) ∧
    (∀ url, redactUrlText (redactUrlText url) = redactUrlText url) := by
  have hslicedAlike : ∀ config', SameButSecrets config config' →
      (∀ u ∈ config.urls ++ config'.urls, (Url.parse u.toList).Sliced) →
      config.toJsonString = config'.toJsonString := by
    intro config' hsame hsliced
    rw [toJsonString, toJsonString, printedTree, printedTree,
      toValue_eq_of_sameButSecrets hsame (fun u hu => hsliced u (List.mem_append_left _ hu))
        (fun u hu => hsliced u (List.mem_append_right _ hu))]
  refine ⟨hslicedAlike, ⟨fun halike u hu => ?_, fun hclosed config' hsame => ?_⟩,
    redactUrlText_idem⟩
  · have htree : ∀ config', SameButSecrets config config' →
        config.printedTree = config'.printedTree := fun config' hsame =>
      pretty_injective (integral_printedTree config) (integral_printedTree config')
        (halike config' hsame)
    rcases List.mem_append.1 hu with hu | hu
    · obtain ⟨endpoint, hendpoint, hurl⟩ := List.mem_filterMap.1 hu
      obtain ⟨before, after, hsplit⟩ := List.append_of_mem hendpoint
      refine closed_of_printed fun url' hpublic => ?_
      have hsame : SameButSecrets config
          { config with
            endpoints := before ++ { endpoint with baseUrl := some url' } :: after } := by
        simp [SameButSecrets, RuntimeConfig.publicPart, hsplit, ModelEndpoint.publicPart, hurl,
          hpublic]
      have hprinted := printed_baseUrls (htree _ hsame)
      simpa [hsplit, hurl] using hprinted
    · obtain ⟨server, hserver, hurl⟩ := List.mem_filterMap.1 hu
      obtain ⟨before, after, hsplit⟩ := List.append_of_mem hserver
      refine closed_of_printed fun url' hpublic => ?_
      have hsame : SameButSecrets config
          { config with mcpServers := before ++ { server with url := some url' } :: after } := by
        simp [SameButSecrets, RuntimeConfig.publicPart, hsplit, McpServerSettings.publicPart, hurl,
          hpublic]
      have hprinted := printed_urls (htree _ hsame)
      simpa [hsplit, hurl] using hprinted
  · refine hslicedAlike config' hsame fun u hu => ?_
    rcases List.mem_append.1 hu with hu | hu
    · exact (hclosed u hu).sliced
    · have hpublic : publicUrl u ∈ config.urls.map publicUrl :=
        publicUrl_urls hsame ▸ List.mem_map_of_mem hu
      obtain ⟨other, hother, heq⟩ := List.mem_map.1 hpublic
      exact ((hclosed other hother).of_visible heq).sliced

/-- A configuration with one endpoint of this URL. -/
def configOf (url : String) : RuntimeConfig :=
  { RuntimeConfig.new ⟨"local", "qwen"⟩ "state" with
    endpoints := [ModelEndpoint.ofLocal "local" "qwen" url 32768] }

theorem config_printing_exact_query :
    (configOf "http://h/?key=a").toJsonString = (configOf "http://h/?key=b").toJsonString :=
  (config_printing_exact _).1 _ (by decide +kernel) (by decide +kernel)

/-- What a fragment has before a `?` is printed. -/
theorem fragment_printed :
    ¬ ∀ config config' : RuntimeConfig, SameButSecrets config config' →
      config.toJsonString = config'.toJsonString := by
  intro halike
  have hsame : SameButSecrets (configOf "http://h/#a?x") (configOf "http://h/#b?x") := by
    decide +kernel
  have htree := pretty_injective (integral_printedTree _) (integral_printedTree _)
    (halike _ _ hsame)
  have hshown : ¬ (configOf "http://h/#a?x").endpoints.map
      (fun endpoint => endpoint.baseUrl.map redactUrlText) =
      (configOf "http://h/#b?x").endpoints.map
        fun endpoint => endpoint.baseUrl.map redactUrlText := by decide +kernel
  exact hshown (printed_baseUrls htree)

end Rupi
