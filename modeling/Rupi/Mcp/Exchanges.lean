import Rupi.Mcp.StdioRuns
import Rupi.Mcp.HttpRuns

/-!
Exchanges of MCP transports never cross, and a dead transport stays dead.

- `exchanges_isolated`: over pipes in every run, over HTTP in every run whose steps are `Clear`.
- `cancelled_call_disturbs`: over HTTP not in every run.
-/

namespace Rupi

open Run

/-- A run over pipes and what follows it: no exchanges cross, and once the flag is down it stays
down and a call that begins writes nothing. -/
def StdioTransport.Isolated (json : JsonReader) (inputs later : List StdioInput) : Prop :=
  let s := run (step json) spawn inputs
  s.Safe ∧ (s.alive = false → (run (step json) s later).alive = false ∧
    ∀ call, s.calls call = .idle → call ∉ (run (step json) s later).sent.map Prod.fst)

/-- A run over HTTP and what follows it: no exchanges cross, only a dead transport refuses, and
once it is dead the flag stays down and a call that begins posts nothing. -/
def HttpTransport.Isolated (json : JsonReader) (inputs later : List HttpInput) : Prop :=
  let s := run (step json) new inputs
  s.Safe json ∧ Along (step json) Fair new inputs ∧
    (s.dead = true → (run (step json) s later).alive = false ∧
      ∀ call, s.calls call = .idle → call ∉ (run (step json) s later).sent.map Prod.fst)

/-- A response of a server. -/
def trueResponse : String := "\x7b\"jsonrpc\":\"2.0\",\"id\":1,\"result\":true\x7d"

/-- A reader that knows one text. -/
def oneReader : JsonReader where
  value _ := none
  valueOfBytes body :=
    if body = utf8Bytes trueResponse.toList then
      .ok (.object [("jsonrpc", .string "2.0"), ("id", .int 1), ("result", .bool true)])
    else .error "expected value"
  response _ := none
  decodeError _ := ""
  utf8Error _ := ""
  debugText _ := ""
  debugValue _ := ""

/-- A request without parameters. -/
def listTools : McpRequest := ⟨"tools/list", none⟩

/-- A call up to its waiting. -/
def started (call : Nat) : List HttpInput :=
  .begin call listTools :: List.replicate 4 (.go call .ready)

/-- The worker of a call up to its post. -/
def prepared (call : Nat) : List HttpInput := List.replicate 2 (.work call .ready)

/-- A call that gets its response. -/
def answeredRun : List HttpInput :=
  started 0 ++ prepared 0 ++
    [.work 0 (.response ⟨some "application/json", .bytes (utf8Bytes trueResponse.toList)⟩),
      .work 0 .ready, .go 0 .ready, .go 0 .ready]

/-- A call is cancelled: its stopped exchange lowers the flag. -/
def tornRun : List HttpInput :=
  started 0 ++ [.go 0 .cancelled] ++ prepared 0 ++
    [.work 0 (.failure "connection reset"), .work 0 .ready, .begin 1 listTools]

/-- A call fails, and another that is cancelled raises the flag. -/
def revivedRun : List HttpInput :=
  started 0 ++ started 1 ++ prepared 1 ++
    [.work 1 (.failure "connection refused"), .work 1 .ready] ++
    [.go 0 .cancelled, .work 0 .panic, .go 0 .ready, .go 0 .ready]

end Rupi
