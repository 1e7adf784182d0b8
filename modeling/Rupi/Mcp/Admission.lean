import Mathlib
import Rupi.Core.Decode
import Rupi.Lib.Fallible

/-!
Admitting the catalog of an MCP server: names, schemas and sizes.

- `mcpNamespacedToolName`: the name of a tool in the registry.
- `validateMcpToolDefinition`: what a server may advertise, and what it costs.
- `admitCatalog`: the tools of one catalog.
- `admitCatalog_spec`: what is admitted has distinct names and stays within the bounds.
-/

namespace Rupi

open Value Fallible

/-! ### Errors -/

/-- Errors of the protocol, of a transport, or of the execution of a tool. -/
inductive McpError where
  | transport (message : String)
  | protocol (message : String)
  | jsonRpc (code : Int) (message : String) (data : Option Value)
  | serverNotFound (name : String)
  | processExited (code : Option Int)
  | timeout
  | cancelled
  | toolExecution (message : String)
  | negotiationFailed (message : String)
  deriving DecidableEq

/-- The text an error is reported with. -/
def McpError.display : McpError → String
  | .transport message => "MCP transport error: " ++ message
  | .protocol message => "MCP protocol error: " ++ message
  | .jsonRpc code message data =>
    "MCP JSON-RPC error (" ++ code.repr ++ "): " ++ message ++
      match data with
      | some data => " data: " ++ String.ofList data.print
      | none => ""
  | .serverNotFound name => "MCP server '" ++ name ++ "' not found"
  | .processExited (some code) => "MCP process exited with code " ++ code.repr
  | .processExited none => "MCP process exited unexpectedly"
  | .timeout => "MCP operation timed out"
  | .cancelled => "MCP operation was cancelled"
  | .toolExecution message => "MCP tool execution error: " ++ message
  | .negotiationFailed message => "MCP negotiation failed: " ++ message

/-! ### Limits -/

def maxMcpToolsPerServer : Nat := 64

def maxActiveMcpTools : Nat := 128

def maxMcpToolNamePartBytes : Nat := 28

def maxMcpToolDescriptionBytes : Nat := 4 * 1024

def maxMcpToolSchemaBytes : Nat := 16 * 1024

def maxMcpServerMetadataBytes : Nat := 64 * 1024

def maxActiveMcpMetadataBytes : Nat := 128 * 1024

def maxMcpSchemaDepth : Nat := 32

def maxMcpSchemaNodes : Nat := 4096

/-! ### Names -/

/-- The canonical name of a tool of a server. -/
def mcpNamespacedToolName (server tool : String) : String := "mcp__" ++ server ++ "__" ++ tool

/-- The names of the tools of a server tell them apart. -/
lemma mcpNamespacedToolName_injective {server a b : String}
    (h : mcpNamespacedToolName server a = mcpNamespacedToolName server b) : a = b := by
  have htext := congrArg String.toList h
  simp only [mcpNamespacedToolName, String.toList_append, List.append_assoc,
    List.append_cancel_left_eq] at htext
  exact String.toList_inj.mp htext

/-- ASCII letters, digits, `_` and `-`, starting with a letter or digit. -/
def isNamePart (value : String) : Bool :=
  value.toList.head?.any Char.isAlphanum &&
    value.toList.all (fun c => c.isAlphanum || c == '_' || c == '-') &&
      decide (value.utf8ByteSize ≤ maxMcpToolNamePartBytes)

def validateMcpNamePart (value kind : String) : Except McpError Unit :=
  ensure (isNamePart value = true)
    (.protocol ("MCP " ++ kind ++ " name is not a provider-safe identifier (expected 1..=" ++
      maxMcpToolNamePartBytes.repr ++
      " ASCII letters, digits, '_' or '-', starting with a letter or digit)"))

/-! ### Schemas -/

/-- `char::is_control`. -/
def isControl (c : Char) : Bool := c.toNat < 32 || (127 ≤ c.toNat && c.toNat < 160)

def isSupportedType (kind : String) : Bool :=
  kind ∈ ["object", "array", "string", "number", "integer", "boolean", "null"]

/-- The `type` of a schema is a known name, or a list of them. -/
def checkSchemaType (schema : Value) : Except McpError Unit :=
  let supported :=
    match schema.get "type" with
    | none => true
    | some (.string kind) => isSupportedType kind
    | some (.array kinds) => !kinds.isEmpty && kinds.all fun kind => (asText kind).any isSupportedType
    | some _ => false
  ensure (supported = true) (.protocol "MCP tool schema contains an invalid JSON Schema type")

def isObjectSchema : Value → Bool
  | .object _ => true
  | _ => false

def checkSchemaProperties (schema : Value) : Except McpError Unit :=
  match schema.get "properties" with
  | none => .ok ()
  | some (.object properties) =>
    ensure (properties.all (fun field => isObjectSchema field.2) = true)
      (.protocol "each MCP tool property schema must be an object")
  | some _ => .error (.protocol "MCP tool schema 'properties' must be an object")

def checkSchemaRequired (schema : Value) : Except McpError Unit :=
  let named :=
    match schema.get "required" with
    | none => true
    | some (.array items) => items.all fun item => (asText item).isSome
    | some _ => false
  ensure (named = true) (.protocol "MCP tool schema 'required' must be an array of strings")

def checkSchemaKey (key : String) : Except McpError Unit :=
  ensure (key.utf8ByteSize ≤ 256 ∧ key.toList.any isControl = false)
    (.protocol "MCP tool schema contains an invalid or overlong key")

/-- One more node, at this depth. -/
def countSchemaNode (depth nodes : Nat) : Except McpError Nat := do
  ensure (depth ≤ maxMcpSchemaDepth)
    (.protocol ("MCP tool schema exceeds the maximum depth of " ++ maxMcpSchemaDepth.repr))
  ensure (nodes + 1 ≤ maxMcpSchemaNodes)
    (.protocol ("MCP tool schema exceeds the " ++ maxMcpSchemaNodes.repr ++ "-node limit"))
  .ok (nodes + 1)

mutual

/-- `validate_schema_shape`, with the count of the nodes. -/
def validateSchemaShape (depth nodes : Nat) : Value → Except McpError Nat
  | .object fields => do
    let nodes ← countSchemaNode depth nodes
    checkSchemaType (.object fields)
    checkSchemaProperties (.object fields)
    checkSchemaRequired (.object fields)
    validateSchemaFields (depth + 1) nodes fields
  | .array items => do
    let nodes ← countSchemaNode depth nodes
    validateSchemaItems (depth + 1) nodes items
  | _ => countSchemaNode depth nodes

def validateSchemaFields (depth nodes : Nat) : List (String × Value) → Except McpError Nat
  | [] => .ok nodes
  | (key, child) :: fields => do
    checkSchemaKey key
    let nodes ← validateSchemaShape depth nodes child
    validateSchemaFields depth nodes fields

def validateSchemaItems (depth nodes : Nat) : List Value → Except McpError Nat
  | [] => .ok nodes
  | item :: items => do
    let nodes ← validateSchemaShape depth nodes item
    validateSchemaItems depth nodes items

end

/-! ### Definitions -/

/-- A tool as its server advertises it. -/
structure McpToolDefinition where
  name : String
  description : Option String
  inputSchema : Value
  deriving DecidableEq

namespace McpToolDefinition

/-- A schema without a type is that of an object. -/
def normalized (definition : McpToolDefinition) : McpToolDefinition :=
  { definition with
    inputSchema :=
      match definition.inputSchema with
      | .object fields =>
        if ((object fields).get "type").isSome then .object fields
        else .object (insertField "type" (.string "object") fields)
      | schema => schema }

def schemaBytes (definition : McpToolDefinition) : Nat :=
  (compactLine definition.inputSchema).length

end McpToolDefinition

/-- A description is short and has no control characters but line breaks and tabs. -/
def isDescription (description : String) : Bool :=
  decide (description.utf8ByteSize ≤ maxMcpToolDescriptionBytes) &&
    description.toList.all fun c => !isControl c || c == '\n' || c == '\r' || c == '\t'

/-- `mcp_tool_metadata_bytes`. -/
def mcpToolMetadataBytes (server : String) (definition : McpToolDefinition) : Nat :=
  (mcpNamespacedToolName server definition.name).utf8ByteSize + server.utf8ByteSize +
    (definition.description.getD "").utf8ByteSize + definition.schemaBytes

/-- The normalized definition and what it costs. -/
def validateMcpToolDefinition (server : String) (definition : McpToolDefinition) :
    Except McpError (McpToolDefinition × Nat) := do
  validateMcpNamePart server "server"
  validateMcpNamePart definition.name "tool"
  ensure ((mcpNamespacedToolName server definition.name).utf8ByteSize ≤ 64)
    (.protocol "namespaced MCP tool name exceeds the provider limit")
  ensure (definition.description.all isDescription = true)
    (.protocol ("MCP tool '" ++ definition.name ++ "' has an invalid or over-budget description"))
  let definition := definition.normalized
  ensure ((definition.inputSchema.get "type").bind asText = some "object")
    (.protocol ("MCP tool '" ++ definition.name ++
      "' input schema must be a JSON Schema object with top-level type 'object'"))
  let _ ← validateSchemaShape 0 0 definition.inputSchema
  ensure (definition.schemaBytes ≤ maxMcpToolSchemaBytes)
    (.protocol ("MCP tool '" ++ definition.name ++ "' schema exceeds the " ++
      maxMcpToolSchemaBytes.repr ++ "-byte per-tool limit"))
  .ok (definition, mcpToolMetadataBytes server definition)

/-! ### Catalogs -/

/-- The configuration of a server, as far as the manager decides by it. -/
structure McpServerConfig where
  name : String
  readOnlyTools : List String
  deriving DecidableEq, Repr

/-- A connection to a server. -/
abbrev ClientId := Nat

/-- A tool of a server, with the connection it is called on. -/
structure McpTool where
  serverName : String
  definition : McpToolDefinition
  client : ClientId
  readOnly : Bool
  deriving DecidableEq

namespace McpTool

/-- The name in the registry. -/
def name (tool : McpTool) : String := mcpNamespacedToolName tool.serverName tool.definition.name

end McpTool

/-- The bytes of the tools of a server. -/
def metadataBytes (server : String) (tools : List McpTool) : Nat :=
  (tools.map fun tool => mcpToolMetadataBytes server tool.definition).sum

/-- Admit the next definition of a catalog. -/
def admitDefinition (config : McpServerConfig) (client : ClientId) (admitted : Nat × List McpTool)
    (definition : McpToolDefinition) : Except McpError (Nat × List McpTool) := do
  let (normalized, cost) ← validateMcpToolDefinition config.name definition
  ensure (definition.name ∉ admitted.2.map (·.definition.name))
    (.protocol ("MCP server '" ++ config.name ++ "' returned a duplicate tool name"))
  let bytes := admitted.1 + cost
  ensure (bytes ≤ maxMcpServerMetadataBytes)
    (.protocol ("MCP server '" ++ config.name ++ "' tool metadata exceeds the " ++
      maxMcpServerMetadataBytes.repr ++ "-byte admission budget"))
  .ok (bytes, admitted.2 ++
    [⟨config.name, normalized, client, config.readOnlyTools.contains definition.name⟩])

/-- The tools of a catalog and their bytes. -/
def admitCatalog (config : McpServerConfig) (client : ClientId)
    (discovered : List McpToolDefinition) : Except McpError (Nat × List McpTool) := do
  validateMcpNamePart config.name "server"
  ensure (discovered.length ≤ maxMcpToolsPerServer)
    (.protocol ("MCP server '" ++ config.name ++ "' exposes " ++ discovered.length.repr ++
      " tools; the admission limit is " ++ maxMcpToolsPerServer.repr))
  scan (admitDefinition config client) (0, []) discovered

/-! ### What is admitted -/

/-- The admitted tools of a catalog: as advertised, on the connection that advertised them,
with distinct names and within the bounds. -/
structure Admitted (config : McpServerConfig) (client : ClientId) (bytes : Nat)
    (tools : List McpTool) : Prop where
  owner : ∀ tool ∈ tools, tool.serverName = config.name
  connection : ∀ tool ∈ tools, tool.client = client
  distinct : (tools.map (·.definition.name)).Nodup
  cost : bytes = metadataBytes config.name tools
  small : bytes ≤ maxMcpServerMetadataBytes

section Admission

variable {config : McpServerConfig} {client : ClientId} {admitted admitted' : Nat × List McpTool}
  {definition : McpToolDefinition}

lemma validateMcpToolDefinition_eq {server : String} {result : McpToolDefinition × Nat}
    (h : validateMcpToolDefinition server definition = .ok result) :
    result = (definition.normalized, mcpToolMetadataBytes server definition.normalized) := by
  simp only [validateMcpToolDefinition, bind_eq_ok] at h
  obtain ⟨_, -, _, -, _, -, _, -, _, -, _, -, _, -, h⟩ := h
  exact (Except.ok.inj h).symm

/-- One more definition. -/
lemma Admitted.step (h : Admitted config client admitted.1 admitted.2)
    (hstep : admitDefinition config client admitted definition = .ok admitted') :
    Admitted config client admitted'.1 admitted'.2 ∧
      admitted'.2.map (·.definition.name) =
        admitted.2.map (·.definition.name) ++ [definition.name] := by
  obtain ⟨⟨normalized, cost⟩, hvalid, hstep⟩ := bind_eq_ok.mp hstep
  obtain ⟨rfl, rfl⟩ := Prod.mk.inj (validateMcpToolDefinition_eq hvalid)
  obtain ⟨_, hnew, hstep⟩ := bind_eq_ok.mp hstep
  obtain ⟨_, hsmall, hstep⟩ := bind_eq_ok.mp hstep
  rw [ensure_eq_ok] at hnew hsmall
  obtain rfl := Except.ok.inj hstep
  have hname : (admitted.2 ++ [(⟨config.name, definition.normalized, client,
      config.readOnlyTools.contains definition.name⟩ : McpTool)]).map (·.definition.name) =
        admitted.2.map (·.definition.name) ++ [definition.name] := by
    simp [McpToolDefinition.normalized]
  refine ⟨⟨?_, ?_, ?_, ?_, hsmall⟩, hname⟩
  · intro tool htool
    rcases List.mem_append.mp htool with htool | htool
    · exact h.owner tool htool
    · rw [List.mem_singleton.mp htool]
  · intro tool htool
    rcases List.mem_append.mp htool with htool | htool
    · exact h.connection tool htool
    · rw [List.mem_singleton.mp htool]
  · rw [hname, List.nodup_append]
    refine ⟨h.distinct, List.nodup_singleton _, fun a ha b hb => ?_⟩
    rintro rfl
    exact hnew (List.mem_singleton.mp hb ▸ ha)
  · simp [metadataBytes, h.cost]

lemma Admitted.scan {discovered : List McpToolDefinition}
    (h : Admitted config client admitted.1 admitted.2)
    (hscan : Fallible.scan (admitDefinition config client) admitted discovered = .ok admitted') :
    Admitted config client admitted'.1 admitted'.2 ∧
      admitted'.2.map (·.definition.name) =
        admitted.2.map (·.definition.name) ++ discovered.map (·.name) := by
  induction discovered generalizing admitted with
  | nil =>
    obtain rfl := Except.ok.inj hscan
    exact ⟨h, by simp⟩
  | cons definition discovered ih =>
    obtain ⟨next, hstep, hscan⟩ := bind_eq_ok.mp hscan
    obtain ⟨hnext, hnames⟩ := h.step hstep
    obtain ⟨hrest, hall⟩ := ih hnext hscan
    refine ⟨hrest, ?_⟩
    rw [hall, hnames, List.append_assoc, List.map_cons, List.singleton_append]

/-- **What a catalog leaves**: its tools under their names, within the bounds of a server. -/
theorem admitCatalog_spec {discovered : List McpToolDefinition} {bytes : Nat}
    {tools : List McpTool} (h : admitCatalog config client discovered = .ok (bytes, tools)) :
    Admitted config client bytes tools ∧ tools.length ≤ maxMcpToolsPerServer ∧
      tools.map (·.definition.name) = discovered.map (·.name) := by
  obtain ⟨_, -, h⟩ := bind_eq_ok.mp h
  obtain ⟨_, hcount, h⟩ := bind_eq_ok.mp h
  rw [ensure_eq_ok] at hcount
  have hnone : Admitted config client 0 [] :=
    ⟨by simp, by simp, List.nodup_nil, rfl, Nat.zero_le _⟩
  obtain ⟨hadmitted, hnames⟩ := @Admitted.scan config client (0, []) (bytes, tools) discovered hnone h
  refine ⟨hadmitted, ?_, hnames⟩
  have hlength := congrArg List.length hnames
  rw [List.length_map, List.length_append, List.length_map, List.length_map] at hlength
  exact (hlength.trans (Nat.zero_add _)).trans_le hcount

end Admission

end Rupi
