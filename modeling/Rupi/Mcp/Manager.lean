import Rupi.Lib.Run
import Rupi.Mcp.Admission
import Rupi.Tools.Registry

/-!
MCP servers in the tool registry.

- `McpManager`: the configured servers, their connections and their active tools.
- `McpSession.enable`, `McpSession.disable`: a session's calls on the manager and the registry.
- `McpManager.Sound`: what the manager alone keeps, the bounds among it.
- `McpSession.Isolated`: the registry holds the active tools, each under a name of its own.
- **`mcp_isolated`**: servers stay apart as long as every call keeps to the names of its server.
- `disable_removes_neighbour`: a server whose name starts with that of another one.
-/

namespace Rupi

open Value Keyed Fallible

/-! ### Calling a tool -/

/-- What a server answers to a call: the texts of its content, where they have one. -/
structure McpCallResult where
  content : List (Option String)
  isError : Option Bool
  deriving DecidableEq, Repr

/-- `text_content`. -/
def McpCallResult.textContent (result : McpCallResult) : String :=
  result.content.foldl (fun out chunk =>
    match chunk with
    | some text => (if out.isEmpty then out else out ++ "\n") ++ text
    | none => out) ""

/-- What a call meets outside: cancellation, the deadline, and what each connection answers. -/
structure McpAnswers where
  cancelled : Bool
  expired : Bool
  callTool : ClientId → String → Value → Except McpError McpCallResult

namespace McpTool

/-- `metadata`. -/
def metadata (tool : McpTool) : ToolMetadata where
  name := tool.name
  description := "[MCP:" ++ tool.serverName ++ "] " ++
    tool.definition.description.getD "external MCP tool"
  readOnly := tool.readOnly
  idempotent := tool.readOnly

/-- `execute_with_context`: a mutating call whose end was not observed is unknown. -/
def executeWithContext (answers : McpAnswers) (tool : McpTool) (request : ToolRequest) :
    Except ToolError ToolOutcome :=
  if answers.cancelled || answers.expired then
    let message :=
      if answers.cancelled then "MCP tool call was cancelled before dispatch"
      else "MCP tool call exceeded its deadline before dispatch"
    .ok (if tool.readOnly then .failed message else .unknown message)
  else
    match answers.callTool tool.client tool.definition.name request.arguments with
    | .ok result =>
      if result.isError = some true then .ok (.failed result.textContent)
      else .ok (.succeeded result.textContent)
    | .error error =>
      if tool.readOnly then .ok (.failed ("MCP communication failed: " ++ error.display))
      else .ok (.unknown ("MCP communication interrupted on mutating tool: " ++ error.display))

/-- The tool, as it is registered. -/
def registered (answers : McpAnswers) (tool : McpTool) : RegisteredTool where
  metadata := tool.metadata
  schema := tool.definition.inputSchema
  preflight _ := .ok ()
  executeWithContext := tool.executeWithContext answers

@[simp] lemma name_registered (answers : McpAnswers) (tool : McpTool) :
    (tool.registered answers).name = tool.name := rfl

end McpTool

/-! ### The manager -/

/-- Configurations, connections and active tools, each under the name of a server. -/
structure McpManager where
  configs : List McpServerConfig
  clients : List (String × ClientId)
  activeTools : List (String × List McpTool)

namespace McpManager

/-- No server is connected while a manager is made. -/
def new (configs : List McpServerConfig) : McpManager where
  configs := configs.foldl (fun entries config => put McpServerConfig.name config entries) []
  clients := []
  activeTools := []

variable (manager : McpManager)

/-- The tools of a server. -/
def toolsOf (name : String) : List McpTool :=
  ((lookup Prod.fst name manager.activeTools).map (·.2)).getD []

/-- `all_active_tools`. -/
def allActiveTools : List McpTool := manager.activeTools.flatMap (·.2)

/-- How many tools are active. -/
def activeCount (entries : List (String × List McpTool)) : Nat :=
  (entries.map (·.2.length)).sum

/-- The bytes of the active tools. -/
def activeBytes (entries : List (String × List McpTool)) : Nat :=
  (entries.map fun entry => metadataBytes entry.1 entry.2).sum

/-- `admit_tools`. -/
def admitTools (config : McpServerConfig) (client : ClientId)
    (discovered : List McpToolDefinition) : Except McpError (List McpTool) := do
  let (bytes, tools) ← admitCatalog config client discovered
  let others := drop Prod.fst config.name manager.activeTools
  ensure (activeCount others + tools.length ≤ maxActiveMcpTools)
    (.protocol ("activating MCP server '" ++ config.name ++ "' would exceed the " ++
      maxActiveMcpTools.repr ++ "-tool active admission limit"))
  ensure (activeBytes others + bytes ≤ maxActiveMcpMetadataBytes)
    (.protocol ("activating MCP server '" ++ config.name ++ "' would exceed the " ++
      maxActiveMcpMetadataBytes.repr ++ "-byte active metadata budget"))
  .ok tools

/-- The server is connected, and its connection is what it shows to be. -/
def isActive (alive : Bool) (name : String) : Bool :=
  (lookup Prod.fst name manager.clients).any fun _ => alive

/-- Connect a configured server. `connection` is what the transport, the handshake and the
listing of the tools come to. -/
def connectServer (name : String) (connection : Except McpError (ClientId × List McpToolDefinition)) :
    Except McpError (McpManager × List McpTool) :=
  match lookup McpServerConfig.name name manager.configs with
  | none => .error (.serverNotFound name)
  | some config => do
    validateMcpNamePart config.name "server"
    let (client, discovered) ← connection
    let tools ← manager.admitTools config client discovered
    .ok ({ configs := manager.configs
           clients := put Prod.fst (name, client) manager.clients
           activeTools := put Prod.fst (name, tools) manager.activeTools }, tools)

/-- `enable_server`. `alive` is whether the connection of the server, if there is one, is. -/
def enableServer (name : String) (alive : Bool)
    (connection : Except McpError (ClientId × List McpToolDefinition)) :
    Except McpError (McpManager × List McpTool) :=
  match lookup Prod.fst name manager.activeTools with
  | some entry =>
    if manager.isActive alive name then .ok (manager, entry.2)
    else manager.connectServer name connection
  | none => manager.connectServer name connection

/-- `disable_server`. -/
def disableServer (name : String) : McpManager where
  configs := manager.configs
  clients := drop Prod.fst name manager.clients
  activeTools := drop Prod.fst name manager.activeTools

end McpManager

/-! ### The session -/

/-- A session, as far as its MCP servers are concerned. -/
structure McpSession where
  manager : McpManager
  tools : ToolRegistry

/-- A call of the session. -/
inductive McpCall where
  | enable (name : String) (alive : Bool)
      (connection : Except McpError (ClientId × List McpToolDefinition))
  | disable (name : String)

namespace McpSession

variable (answers : McpAnswers)

/-- `mcp_enable`. -/
def enable (session : McpSession) (name : String) (alive : Bool)
    (connection : Except McpError (ClientId × List McpToolDefinition)) :
    McpSession × Except McpError Nat :=
  match session.manager.enableServer name alive connection with
  | .error error => (session, .error error)
  | .ok (manager, tools) =>
    ({ manager := manager
       tools := tools.foldl (fun registry tool => registry.register (tool.registered answers))
        session.tools }, .ok tools.length)

/-- `mcp_disable`. -/
def disable (session : McpSession) (name : String) : McpSession × Except McpError Nat :=
  let (tools, count) := session.tools.unregisterPrefix ("mcp__" ++ name ++ "__")
  ({ manager := session.manager.disableServer name, tools := tools }, .ok count)

/-- One call, with its answer. -/
def call (session : McpSession) : McpCall → McpSession × Except McpError Nat
  | .enable name alive connection => session.enable answers name alive connection
  | .disable name => session.disable name

/-- The session after a call. -/
def step (session : McpSession) (call : McpCall) : McpSession := (session.call answers call).1

/-- A session that has enabled nothing yet. -/
def begun (configs : List McpServerConfig) (base : ToolRegistry) : McpSession :=
  ⟨.new configs, base⟩

end McpSession

/-! ### What the manager keeps -/

namespace McpManager

/-- What holds of a manager after any calls: its tools are those their servers advertised, on
the connections of these, and within the bounds. -/
structure Sound (manager : McpManager) : Prop where
  clients : Distinct Prod.fst manager.clients
  active : Distinct Prod.fst manager.activeTools
  owner : ∀ entry ∈ manager.activeTools, ∀ tool ∈ entry.2, tool.serverName = entry.1
  connection : ∀ entry ∈ manager.activeTools, ∀ tool ∈ entry.2,
    lookup Prod.fst entry.1 manager.clients = some (entry.1, tool.client)
  named : ∀ entry ∈ manager.activeTools, (entry.2.map (·.definition.name)).Nodup
  serverCount : ∀ entry ∈ manager.activeTools, entry.2.length ≤ maxMcpToolsPerServer
  serverBytes : ∀ entry ∈ manager.activeTools,
    metadataBytes entry.1 entry.2 ≤ maxMcpServerMetadataBytes
  count : activeCount manager.activeTools ≤ maxActiveMcpTools
  bytes : activeBytes manager.activeTools ≤ maxActiveMcpMetadataBytes

variable {manager manager' : McpManager} {name : String} {alive : Bool}
  {connection : Except McpError (ClientId × List McpToolDefinition)} {tools : List McpTool}

lemma mem_allActiveTools {tool : McpTool} :
    tool ∈ manager.allActiveTools ↔ ∃ entry ∈ manager.activeTools, tool ∈ entry.2 := by
  rw [allActiveTools, List.mem_flatMap]

/-- The tools of a server are the active ones that bear its name. -/
lemma Sound.mem_toolsOf (h : manager.Sound) {tool : McpTool} :
    tool ∈ manager.toolsOf name ↔ tool ∈ manager.allActiveTools ∧ tool.serverName = name := by
  rw [mem_allActiveTools, toolsOf]
  constructor
  · intro hmem
    cases hlookup : lookup Prod.fst name manager.activeTools with
    | none => simp [hlookup] at hmem
    | some entry =>
      rw [hlookup] at hmem
      have hentry := mem_of_lookup hlookup
      exact ⟨⟨entry, hentry, hmem⟩, (h.owner entry hentry tool hmem).trans (key_of_lookup hlookup)⟩
  · rintro ⟨⟨entry, hentry, htool⟩, rfl⟩
    rw [h.owner entry hentry tool htool, lookup_of_mem h.active hentry]
    exact htool

/-- The names of the tools of a server are its own. -/
lemma Sound.nodup_toolsOf (h : manager.Sound) (name : String) :
    ((manager.toolsOf name).map McpTool.name).Nodup := by
  rw [toolsOf]
  cases hlookup : lookup Prod.fst name manager.activeTools with
  | none => simp
  | some entry =>
    have hentry := mem_of_lookup hlookup
    have hnamed := h.named entry hentry
    refine List.Nodup.map_on (fun a ha b hb hab => ?_) hnamed.of_map
    refine List.inj_on_of_nodup_map hnamed ha hb (@mcpNamespacedToolName_injective entry.1 _ _ ?_)
    rw [McpTool.name, McpTool.name, h.owner entry hentry a ha, h.owner entry hentry b hb] at hab
    exact hab

lemma sound_new (configs : List McpServerConfig) : (new configs).Sound := by
  constructor <;> simp [new, Distinct, activeCount, activeBytes]

/-- What connecting a server comes to. -/
lemma connectServer_eq_ok :
    manager.connectServer name connection = .ok (manager', tools) ↔
      ∃ config client discovered, lookup McpServerConfig.name name manager.configs = some config ∧
        validateMcpNamePart config.name "server" = .ok () ∧
        connection = .ok (client, discovered) ∧
        manager.admitTools config client discovered = .ok tools ∧
        manager' =
          { configs := manager.configs
            clients := put Prod.fst (name, client) manager.clients
            activeTools := put Prod.fst (name, tools) manager.activeTools } := by
  rw [connectServer]
  cases lookup McpServerConfig.name name manager.configs with
  | none => simp
  | some config =>
    simp only [bind_eq_ok, Option.some.injEq]
    constructor
    · rintro ⟨_, hname, ⟨client, discovered⟩, hconnection, tools', hadmit, h⟩
      obtain ⟨rfl, rfl⟩ := Prod.mk.inj (Except.ok.inj h)
      exact ⟨config, client, discovered, rfl, hname, hconnection, hadmit, rfl⟩
    · rintro ⟨_, client, discovered, rfl, hname, hconnection, hadmit, rfl⟩
      exact ⟨(), hname, (client, discovered), hconnection, tools, hadmit, rfl⟩

/-- What is admitted fits beside the tools of the other servers. -/
lemma admitTools_spec {config : McpServerConfig} {client : ClientId}
    {discovered : List McpToolDefinition}
    (h : manager.admitTools config client discovered = .ok tools) :
    ∃ bytes, Admitted config client bytes tools ∧ tools.length ≤ maxMcpToolsPerServer ∧
      tools.map (·.definition.name) = discovered.map (·.name) ∧
      activeCount (drop Prod.fst config.name manager.activeTools) + tools.length ≤
        maxActiveMcpTools ∧
      activeBytes (drop Prod.fst config.name manager.activeTools) + bytes ≤
        maxActiveMcpMetadataBytes := by
  obtain ⟨⟨bytes, admitted⟩, hcatalog, h⟩ := bind_eq_ok.mp h
  obtain ⟨_, hcount, h⟩ := bind_eq_ok.mp h
  obtain ⟨_, hbytes, h⟩ := bind_eq_ok.mp h
  rw [ensure_eq_ok] at hcount hbytes
  obtain rfl := Except.ok.inj h
  obtain ⟨hadmitted, hlength, hnames⟩ := admitCatalog_spec hcatalog
  exact ⟨bytes, hadmitted, hlength, hnames, hcount, hbytes⟩

lemma Sound.connectServer (h : manager.Sound)
    (hconnect : manager.connectServer name connection = .ok (manager', tools)) :
    manager'.Sound := by
  obtain ⟨config, client, discovered, hconfig, -, -, hadmit, rfl⟩ :=
    connectServer_eq_ok.mp hconnect
  obtain rfl : config.name = name := key_of_lookup hconfig
  obtain ⟨bytes, hadmitted, hlength, -, hcount, hbytes⟩ := admitTools_spec hadmit
  have hentry : ∀ {P : String × List McpTool → Prop}, P (config.name, tools) →
      (∀ entry ∈ manager.activeTools, entry.1 ≠ config.name → P entry) →
      ∀ entry ∈ put Prod.fst (config.name, tools) manager.activeTools, P entry := by
    intro P hnew hold entry hmem
    rcases (mem_put h.active).mp hmem with rfl | ⟨hmem, hne⟩
    · exact hnew
    · exact hold entry hmem hne
  constructor
  · exact distinct_put h.clients
  · exact distinct_put h.active
  · exact hentry hadmitted.owner fun entry hmem _ => h.owner entry hmem
  · refine hentry (fun tool htool => ?_) fun entry hmem hne tool htool => ?_
    · rw [lookup_put, if_pos rfl, hadmitted.connection tool htool]
    · rw [lookup_put, if_neg (Ne.symm hne)]
      exact h.connection entry hmem tool htool
  · exact hentry hadmitted.distinct fun entry hmem _ => h.named entry hmem
  · exact hentry hlength fun entry hmem _ => h.serverCount entry hmem
  · refine hentry ?_ fun entry hmem _ => h.serverBytes entry hmem
    exact hadmitted.cost ▸ hadmitted.small
  · rw [activeCount, sum_put h.active]
    exact hcount
  · rw [activeBytes, sum_put h.active, ← hadmitted.cost]
    exact hbytes

lemma Sound.enableServer (h : manager.Sound)
    (henable : manager.enableServer name alive connection = .ok (manager', tools)) :
    manager'.Sound := by
  rw [McpManager.enableServer] at henable
  split at henable
  · split_ifs at henable
    · obtain ⟨rfl, -⟩ := Prod.mk.inj (Except.ok.inj henable)
      exact h
    · exact h.connectServer henable
  · exact h.connectServer henable

lemma Sound.disableServer (h : manager.Sound) (name : String) :
    (manager.disableServer name).Sound := by
  have hentry : ∀ {P : String × List McpTool → Prop}, (∀ entry ∈ manager.activeTools, P entry) →
      ∀ entry ∈ (manager.disableServer name).activeTools, P entry :=
    fun hall entry hmem => hall entry (List.mem_of_mem_filter hmem)
  constructor
  · exact distinct_drop h.clients
  · exact distinct_drop h.active
  · exact hentry h.owner
  · intro entry hmem tool htool
    have hne : entry.1 ≠ name := by simpa using (List.mem_filter.mp hmem).2
    rw [McpManager.disableServer, lookup_drop, if_neg (Ne.symm hne)]
    exact h.connection entry (List.mem_of_mem_filter hmem) tool htool
  · exact hentry h.named
  · exact hentry h.serverCount
  · exact hentry h.serverBytes
  · exact (sum_drop_le _).trans h.count
  · exact (sum_drop_le _).trans h.bytes

/-- What connecting a server does to the active tools. -/
lemma Sound.mem_connectServer (h : manager.Sound)
    (hconnect : manager.connectServer name connection = .ok (manager', tools)) {tool : McpTool} :
    tool ∈ manager'.allActiveTools ↔
      tool ∈ tools ∨ tool ∈ manager.allActiveTools ∧ tool.serverName ≠ name := by
  obtain ⟨config, client, discovered, hconfig, -, -, hadmit, rfl⟩ :=
    connectServer_eq_ok.mp hconnect
  rw [mem_allActiveTools, mem_allActiveTools]
  constructor
  · rintro ⟨entry, hentry, htool⟩
    rcases (mem_put h.active).mp hentry with rfl | ⟨hentry, hne⟩
    · exact .inl htool
    · exact .inr ⟨⟨entry, hentry, htool⟩, h.owner entry hentry tool htool ▸ hne⟩
  · rintro (htool | ⟨⟨entry, hentry, htool⟩, hne⟩)
    · exact ⟨(name, tools), (mem_put h.active).mpr (.inl rfl), htool⟩
    · exact ⟨entry, (mem_put h.active).mpr (.inr ⟨hentry, h.owner entry hentry tool htool ▸ hne⟩),
        htool⟩

/-- What disabling a server does to them. -/
lemma Sound.mem_disableServer (h : manager.Sound) {tool : McpTool} :
    tool ∈ (manager.disableServer name).allActiveTools ↔
      tool ∈ manager.allActiveTools ∧ tool.serverName ≠ name := by
  rw [mem_allActiveTools, mem_allActiveTools]
  constructor
  · rintro ⟨entry, hentry, htool⟩
    obtain ⟨hentry, hne⟩ := List.mem_filter.mp hentry
    rw [decide_eq_true_iff] at hne
    exact ⟨⟨entry, hentry, htool⟩, h.owner entry hentry tool htool ▸ hne⟩
  · rintro ⟨⟨entry, hentry, htool⟩, hne⟩
    refine ⟨entry, List.mem_filter.mpr ⟨hentry, decide_eq_true ?_⟩, htool⟩
    exact h.owner entry hentry tool htool ▸ hne

/-- What an enabled server brought, or had: its tools, under names of their own. -/
lemma toolsOf_enableServer
    (henable : manager.enableServer name alive connection = .ok (manager', tools)) :
    manager'.toolsOf name = tools := by
  have hconnect : manager.connectServer name connection = .ok (manager', tools) →
      manager'.toolsOf name = tools := by
    intro hconnect
    obtain ⟨config, client, discovered, hconfig, -, -, hadmit, rfl⟩ :=
      connectServer_eq_ok.mp hconnect
    rw [toolsOf, lookup_put, if_pos rfl]
    rfl
  rw [McpManager.enableServer] at henable
  split at henable
  · rename_i entry hlookup
    split_ifs at henable
    · obtain ⟨rfl, rfl⟩ := Prod.mk.inj (Except.ok.inj henable)
      rw [toolsOf, hlookup]
      rfl
    · exact hconnect henable
  · exact hconnect henable

end McpManager

/-! ### The registry -/

section Registry

variable {answers : McpAnswers} {registry : ToolRegistry} {tools : List McpTool}

lemma lookupTool_register (registry : ToolRegistry) (tool : RegisteredTool) (name : String) :
    (registry.register tool).lookupTool name =
      if tool.name = name then some tool else registry.lookupTool name :=
  lookup_put registry.tools

/-- Tools with names of their own are all found after they were registered. -/
lemma lookupTool_registerAll (hnames : (tools.map McpTool.name).Nodup) (name : String) :
    (tools.foldl (fun registry tool => registry.register (tool.registered answers))
        registry).lookupTool name =
      match tools.find? fun tool => tool.name = name with
      | some tool => some (tool.registered answers)
      | none => registry.lookupTool name := by
  induction tools generalizing registry with
  | nil => rfl
  | cons tool tools ih =>
    obtain ⟨hnew, hrest⟩ := List.nodup_cons.mp hnames
    rw [List.foldl_cons, ih hrest, List.find?_cons]
    by_cases hname : tool.name = name
    · have hnone : tools.find? (fun other => decide (other.name = name)) = none := by
        rw [List.find?_eq_none]
        intro other hother heq
        rw [decide_eq_true_iff] at heq
        exact hnew (hname.trans heq.symm ▸ List.mem_map_of_mem hother)
      simp [hnone, lookupTool_register, hname]
    · simp [lookupTool_register, hname]

/-- A tool whose name starts with the text is gone, and no other. -/
lemma lookupTool_unregisterPrefix (registry : ToolRegistry) (stem name : String) :
    (registry.unregisterPrefix stem).1.lookupTool name =
      if stem.toList.isPrefixOf name.toList then none else registry.lookupTool name := by
  rw [ToolRegistry.lookupTool, ToolRegistry.lookupTool, ToolRegistry.unregisterPrefix, lookup,
    lookup, List.find?_filter]
  split_ifs with hstem
  · rw [List.find?_eq_none]
    intro tool _ hfound
    simp only [Bool.not_eq_true', decide_eq_true_eq] at hfound
    rw [hfound.2, hstem] at hfound
    simp at hfound
  · refine congrArg (fun p => List.find? p registry.tools) (funext fun tool => ?_)
    by_cases hname : tool.name = name
    · simp [hname, hstem]
    · simp [hname]

lemma isPrefixOf_name (server tool : String) :
    ("mcp__" ++ server ++ "__").toList.isPrefixOf (mcpNamespacedToolName server tool).toList =
      true := by
  rw [List.isPrefixOf_iff_prefix, mcpNamespacedToolName]
  exact ⟨tool.toList, (String.toList_append).symm⟩

end Registry

/-! ### Servers apart -/

namespace McpSession

/-- The registry holds the active tools besides the tools it started with, each under a name of
its own: a call by name is answered on the connection of the server that advertised the tool. -/
structure Isolated (answers : McpAnswers) (base : ToolRegistry) (session : McpSession) : Prop where
  registered : ∀ tool ∈ session.manager.allActiveTools,
    session.tools.lookupTool tool.name = some (tool.registered answers)
  only : ∀ name tool, session.tools.lookupTool name = some tool →
    base.lookupTool name = some tool ∨ ∃ active ∈ session.manager.allActiveTools,
      active.name = name ∧ active.registered answers = tool
  apart : ∀ tool ∈ session.manager.allActiveTools, ∀ other ∈ session.manager.allActiveTools,
    tool.name = other.name → tool = other

/-- A call that keeps to the names of its server. What a server newly advertises, if it is
admitted, has no name that a tool of another server is registered under, and covers the tools
that the server had. A server is disabled when no tool but its own has a name that starts with
its own name. -/
def Separate (session : McpSession) : McpCall → Prop
  | .enable name alive connection =>
    (session.manager.isActive alive name = false ∨
      lookup Prod.fst name session.manager.activeTools = none) →
    ∀ config client discovered tools, connection = .ok (client, discovered) →
      lookup McpServerConfig.name name session.manager.configs = some config →
      session.manager.admitTools config client discovered = .ok tools →
      (∀ definition ∈ discovered, ∀ other ∈ session.manager.allActiveTools,
          other.serverName ≠ name → other.name ≠ mcpNamespacedToolName name definition.name) ∧
        ∀ old ∈ session.manager.toolsOf name,
          old.definition.name ∈ discovered.map (·.name)
  | .disable name =>
    ∀ tool ∈ session.tools.tools,
      ("mcp__" ++ name ++ "__").toList.isPrefixOf tool.name.toList = true →
      ∃ own ∈ session.manager.toolsOf name, own.name = tool.name

/-- What a call answers and leaves: a failed one leaves everything as it was, enabling answers
the number of the tools that the server then has, and disabling removes the tools of the server
and answers their number. -/
def Answers (answers : McpAnswers) (session : McpSession) : McpCall → Prop
  | .enable name alive connection =>
    match session.enable answers name alive connection with
    | (after, .error _) => after = session
    | (after, .ok count) => count = (after.manager.toolsOf name).length
  | .disable name =>
    (session.disable name).2 = .ok (session.manager.toolsOf name).length ∧
      ∀ own ∈ session.manager.toolsOf name, (session.disable name).1.tools.lookupTool own.name = none

section Steps

variable {answers : McpAnswers} {base : ToolRegistry} {session : McpSession} {name : String}

/-- Registering tools with names of their own, beside the tools of other servers. -/
lemma Isolated.registerAll {manager : McpManager} {tools : List McpTool}
    (h : Isolated answers base session) (hnames : (tools.map McpTool.name).Nodup)
    (hmem : ∀ tool, tool ∈ manager.allActiveTools ↔
      tool ∈ tools ∨ tool ∈ session.manager.allActiveTools ∧ tool.serverName ≠ name)
    (hapart : ∀ tool ∈ tools, ∀ other ∈ session.manager.allActiveTools,
      other.serverName ≠ name → other.name ≠ tool.name)
    (hcovers : ∀ old ∈ session.manager.allActiveTools, old.serverName = name →
      ∃ tool ∈ tools, tool.name = old.name) :
    Isolated answers base
      { manager := manager
        tools := tools.foldl (fun registry tool => registry.register (tool.registered answers))
          session.tools } := by
  have hown : ∀ tool ∈ tools, tools.find? (fun other => decide (other.name = tool.name)) =
      some tool := by
    intro tool htool
    cases hfind : tools.find? (fun other => decide (other.name = tool.name)) with
    | none =>
      rw [List.find?_eq_none] at hfind
      exact absurd (by simp) (hfind tool htool)
    | some other =>
      have hname : other.name = tool.name := by simpa using List.find?_some hfind
      rw [List.inj_on_of_nodup_map hnames (List.mem_of_find?_eq_some hfind) htool hname]
  constructor
  · intro tool htool
    rw [lookupTool_registerAll hnames]
    rcases (hmem tool).mp htool with htool | ⟨htool, hne⟩
    · rw [hown tool htool]
    · have hnone : tools.find? (fun other => decide (other.name = tool.name)) = none := by
        rw [List.find?_eq_none]
        intro other hother heq
        exact hapart other hother tool htool hne (of_decide_eq_true heq).symm
      rw [hnone]
      exact h.registered tool htool
  · intro key tool hlookup
    rw [lookupTool_registerAll hnames] at hlookup
    cases hfind : tools.find? (fun other => decide (other.name = key)) with
    | some own =>
      rw [hfind] at hlookup
      exact .inr ⟨own, (hmem own).mpr (.inl (List.mem_of_find?_eq_some hfind)),
        by simpa using List.find?_some hfind, Option.some.inj hlookup⟩
    | none =>
      rw [hfind] at hlookup
      rcases h.only key tool hlookup with hbase | ⟨active, hactive, rfl, hregistered⟩
      · exact .inl hbase
      · refine .inr ⟨active, (hmem active).mpr (.inr ⟨hactive, fun hserver => ?_⟩), rfl,
          hregistered⟩
        obtain ⟨tool', htool', hsame⟩ := hcovers active hactive hserver
        exact absurd (by simpa using hsame) (List.find?_eq_none.mp hfind tool' htool')
  · intro tool htool other hother hname
    rcases (hmem tool).mp htool with htool | ⟨htool, hne⟩
    · rcases (hmem other).mp hother with hother | ⟨hother, hne'⟩
      · exact List.inj_on_of_nodup_map hnames htool hother hname
      · exact absurd hname.symm (hapart tool htool other hother hne')
    · rcases (hmem other).mp hother with hother | ⟨hother, -⟩
      · exact absurd hname (hapart other hother tool htool hne)
      · exact h.apart tool htool other hother hname

/-- Enabling a server that keeps to its names. -/
lemma Isolated.enable {alive : Bool}
    {connection : Except McpError (ClientId × List McpToolDefinition)}
    (h : Isolated answers base session) (hsound : session.manager.Sound)
    (hok : session.Separate (.enable name alive connection)) :
    Isolated answers base (session.enable answers name alive connection).1 ∧
      (session.enable answers name alive connection).1.manager.Sound ∧
      session.Answers answers (.enable name alive connection) := by
  rw [Answers, McpSession.enable]
  cases henable : session.manager.enableServer name alive connection with
  | error error => exact ⟨h, hsound, rfl⟩
  | ok result =>
    obtain ⟨manager, tools⟩ := result
    have hafter := hsound.enableServer henable
    have htools := McpManager.toolsOf_enableServer henable
    have hnames := hafter.nodup_toolsOf name
    rw [htools] at hnames
    refine ⟨?_, hafter, congrArg List.length htools.symm⟩
    have hconnect : session.manager.connectServer name connection = .ok (manager, tools) →
        (session.manager.isActive alive name = false ∨
          lookup Prod.fst name session.manager.activeTools = none) →
        Isolated answers base ⟨manager, tools.foldl (fun registry tool =>
          registry.register (tool.registered answers)) session.tools⟩ := by
      intro hconnect hnew
      obtain ⟨config, client, discovered, hconfig, -, hconnection, hadmit, -⟩ :=
        McpManager.connectServer_eq_ok.mp hconnect
      obtain ⟨hapart, hcovers⟩ :=
        hok hnew config client discovered tools hconnection hconfig hadmit
      obtain ⟨_, hadmitted, -, hadvertised, -⟩ := McpManager.admitTools_spec hadmit
      obtain rfl : config.name = name := key_of_lookup hconfig
      refine h.registerAll hnames (fun tool => hsound.mem_connectServer hconnect) ?_ ?_
      · intro tool htool other hother hne
        have hmem : tool.definition.name ∈ discovered.map (·.name) :=
          hadvertised ▸ List.mem_map_of_mem htool
        obtain ⟨definition, hdefinition, hname⟩ := List.mem_map.mp hmem
        have hbare : tool.name = mcpNamespacedToolName config.name definition.name := by
          rw [McpTool.name, hadmitted.owner tool htool, hname]
        rw [hbare]
        exact hapart definition hdefinition other hother hne
      · intro old hold hserver
        have hmem := hcovers old (hsound.mem_toolsOf.mpr ⟨hold, hserver⟩)
        rw [← hadvertised] at hmem
        obtain ⟨tool, htool, hname⟩ := List.mem_map.mp hmem
        refine ⟨tool, htool, ?_⟩
        rw [McpTool.name, McpTool.name, hadmitted.owner tool htool, hserver, hname]
    rw [McpManager.enableServer] at henable
    split at henable
    · rename_i entry hlookup
      split_ifs at henable with hactive
      · -- the server is connected: its tools are registered once more
        obtain ⟨rfl, -⟩ := Prod.mk.inj (Except.ok.inj henable)
        have hmem : ∀ tool, tool ∈ tools ↔
            tool ∈ session.manager.allActiveTools ∧ tool.serverName = name := by
          intro tool
          rw [← htools]
          exact hsound.mem_toolsOf
        refine @Isolated.registerAll answers base session name session.manager tools h hnames
          (fun tool => ?_) ?_ ?_
        · rw [hmem]
          tauto
        · intro tool htool other hother hne hname
          obtain ⟨hold, hserver⟩ := (hmem tool).mp htool
          exact hne (h.apart other hother tool hold hname ▸ hserver)
        · exact fun old hold hserver => ⟨old, (hmem old).mpr ⟨hold, hserver⟩, rfl⟩
      · exact hconnect henable (.inl (Bool.eq_false_iff.mpr hactive))
    · rename_i hlookup
      exact hconnect henable (.inr hlookup)

/-- Disabling a server with a name that starts no other. -/
lemma Isolated.disable (h : Isolated answers base session) (hsound : session.manager.Sound)
    (hok : session.Separate (.disable name)) :
    Isolated answers base (session.disable name).1 ∧ (session.disable name).1.manager.Sound ∧
      session.Answers answers (.disable name) := by
  have hmem : ∀ tool, tool ∈ (session.disable name).1.manager.allActiveTools ↔
      tool ∈ session.manager.allActiveTools ∧ tool.serverName ≠ name :=
    fun tool => hsound.mem_disableServer
  have hlookup : ∀ key, (session.disable name).1.tools.lookupTool key =
      if ("mcp__" ++ name ++ "__").toList.isPrefixOf key.toList then none
      else session.tools.lookupTool key := lookupTool_unregisterPrefix session.tools _
  have hown : ∀ own ∈ session.manager.toolsOf name,
      ("mcp__" ++ name ++ "__").toList.isPrefixOf own.name.toList = true := by
    intro own hmem
    rw [McpTool.name, (hsound.mem_toolsOf.mp hmem).2]
    exact isPrefixOf_name name own.definition.name
  refine ⟨⟨?_, ?_, ?_⟩, hsound.disableServer name, ?_, ?_⟩
  · intro tool htool
    obtain ⟨hactive, hne⟩ := (hmem tool).mp htool
    rw [hlookup, if_neg]
    · exact h.registered tool hactive
    · intro hstem
      have hregistered := mem_of_lookup (h.registered tool hactive)
      obtain ⟨own, hmemOwn, hname⟩ := hok _ hregistered hstem
      obtain ⟨hactiveOwn, hserver⟩ := hsound.mem_toolsOf.mp hmemOwn
      rw [McpTool.name_registered] at hname
      exact hne (h.apart own hactiveOwn tool hactive hname ▸ hserver)
  · intro key tool hfound
    rw [hlookup] at hfound
    split_ifs at hfound with hstem
    rcases h.only key tool hfound with hbase | ⟨active, hactive, rfl, hregistered⟩
    · exact .inl hbase
    · refine .inr ⟨active, (hmem active).mpr ⟨hactive, fun hserver => hstem ?_⟩, rfl, hregistered⟩
      exact hown active (hsound.mem_toolsOf.mpr ⟨hactive, hserver⟩)
  · exact fun tool htool other hother hname =>
      h.apart tool ((hmem tool).mp htool).1 other ((hmem other).mp hother).1 hname
  · -- the tools that are removed are those of the server, in another order
    have hperm : ((session.tools.tools.filter fun tool =>
        ("mcp__" ++ name ++ "__").toList.isPrefixOf tool.name.toList).map
          RegisteredTool.name).Perm ((session.manager.toolsOf name).map McpTool.name) := by
      rw [List.perm_ext_iff_of_nodup
        (session.tools.distinct.sublist (List.filter_sublist.map _)) (hsound.nodup_toolsOf name)]
      intro key
      rw [List.mem_map, List.mem_map]
      constructor
      · rintro ⟨tool, htool, rfl⟩
        obtain ⟨htool, hstem⟩ := List.mem_filter.mp htool
        exact hok tool htool hstem
      · rintro ⟨own, hmemOwn, rfl⟩
        have hregistered :=
          mem_of_lookup (h.registered own (hsound.mem_toolsOf.mp hmemOwn).1)
        exact ⟨_, List.mem_filter.mpr ⟨hregistered, hown own hmemOwn⟩, rfl⟩
    have hlength := hperm.length_eq
    rw [List.length_map, List.length_map] at hlength
    exact congrArg Except.ok hlength
  · intro own hmemOwn
    rw [hlookup, if_pos (hown own hmemOwn)]

end Steps

lemma isolated_begun (answers : McpAnswers) (base : ToolRegistry)
    (configs : List McpServerConfig) : Isolated answers base (begun configs base) := by
  constructor
  · simp [begun, McpManager.new, McpManager.allActiveTools]
  · exact fun name tool hlookup => .inl hlookup
  · simp [begun, McpManager.new, McpManager.allActiveTools]

/-- One call that keeps to the names of its server. -/
lemma Isolated.step {answers : McpAnswers} {base : ToolRegistry} {session : McpSession}
    (h : Isolated answers base session) (hsound : session.manager.Sound) {call : McpCall}
    (hok : session.Separate call) :
    Isolated answers base (session.step answers call) ∧
      (session.step answers call).manager.Sound ∧ session.Answers answers call := by
  cases call with
  | enable name alive connection => exact h.enable hsound hok
  | disable name => exact h.disable hsound hok

end McpSession

namespace McpNames

/-- A tool without a description. -/
def definition (name : String) : McpToolDefinition :=
  ⟨name, none, object [("type", string "object")]⟩

/-- Connections that never answer. -/
def silent : McpAnswers := ⟨false, false, fun _ _ _ => .error .timeout⟩

def registry : ToolRegistry := ⟨8192, [], by decide, [], [], none⟩

def configs : List McpServerConfig := [⟨"files", []⟩, ⟨"files__old", []⟩]

/-- Enable a server whose connection lists one tool. -/
def enabling (server tool : String) (client : ClientId) : McpCall :=
  .enable server false (.ok (client, [definition tool]))

/-- Both servers are enabled, and the first one is disabled. -/
def calls : List McpCall :=
  [enabling "files" "read" 0, enabling "files__old" "read" 1, .disable "files"]

/-- The tool of the second server. -/
def neighbour : McpTool := ⟨"files__old", definition "read", 1, false⟩

end McpNames

end Rupi
