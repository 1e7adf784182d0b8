import Rupi.Lib.Keyed
import Rupi.Lib.Run
import Rupi.Mcp.JsonRpc
import Rupi.Store.Journal

/-!
The MCP transport over the pipes of a server process, one operation at a time.

- `StdioCall`: where a call is between its operations on shared data.
- `ReaderStage`: where the reader thread is.
- `StdioTransport.step`: one operation of one thread, in any order of the threads.

A section under the lock of the pending map is one step where it touches nothing else; where the
reader sends on channels under that lock, every send is a step of its own, so that the steps
allow more orders than the lock does.
-/

namespace Rupi

open Value

/-- A request of a caller. -/
structure McpRequest where
  method : String
  params : Option Value
  deriving DecidableEq

/-- `JsonRpcRequest::new`, as it is serialized. -/
def McpRequest.line (request : McpRequest) (id : Nat) : List Char :=
  print (object ([("jsonrpc", string "2.0"), ("id", int id), ("method", string request.method)] ++
    (request.params.map fun params => ("params", params)).toList))

/-- `MAX_STDIO_REQUEST_BYTES`. -/
def maxStdioRequestBytes : Nat := 1024 * 1024

/-- What a call does on its way out. -/
inductive Cleanup where
  | unregister
  | lowerFlag
  | takeChild
  deriving DecidableEq

/-- The next operation of a call. -/
inductive StdioCall where
  | idle
  | checkAlive (request : McpRequest)
  | checkContext (request : McpRequest)
  | takeId (request : McpRequest)
  | register (id : Nat) (request : McpRequest)
  | measure (id : Nat) (request : McpRequest)
  | write (id : Nat) (request : McpRequest)
  | wait (id : Nat)
  | leave (id : Option Nat) (todo : List Cleanup) (error : McpError)
  | returned (id : Option Nat) (result : Except McpError Value)
  deriving DecidableEq

/-- What a call meets at its next operation. -/
inductive CallEvent where
  | ready
  | cancelled
  | expired
  /-- The time-out of the transport is over. -/
  | outOfTime
  /-- The pipe refuses the line. -/
  | broken (message : String)
  deriving DecidableEq

/-- The next operation of the reader thread. -/
inductive ReaderStage where
  | reading
  | resolving (response : JsonRpcResponse)
  | delivering (call : Nat) (response : JsonRpcResponse)
  | lowering (error : McpError)
  | locking (error : McpError)
  | draining (rest : List Nat) (error : McpError)
  | ended
  deriving DecidableEq

/-- The senders that the reader has taken out of the pending map. -/
def ReaderStage.holds : ReaderStage → List Nat
  | delivering call _ => [call]
  | draining rest _ => rest
  | _ => []

/-- The transport with the threads in it. `heard` are the responses that the reader has read,
`delivered` says which of them went to which call, and `sent` which call wrote which id. -/
structure StdioTransport where
  nextId : Nat
  pending : List (Nat × Nat)
  alive : Bool
  child : Bool
  reader : ReaderStage
  channels : Nat → Option (Except McpError Value)
  calls : Nat → StdioCall
  heard : List JsonRpcResponse
  delivered : List (Nat × Nat)
  sent : List (Nat × Nat)

/-- What happens next: a call begins or goes on, the reader reads or goes on, a notification is
written or not, or the transport is closed. -/
inductive StdioInput where
  | begin (call : Nat) (request : McpRequest)
  | go (call : Nat) (event : CallEvent)
  | line (text : String)
  | endOfOutput
  | readError (message : String)
  | reader
  | notify (written : Bool)
  | close
  deriving DecidableEq

/-- `MCP request id space is exhausted`, the error of `next_request_id`. -/
def idsExhausted : McpError := .transport "MCP request id space is exhausted"

namespace StdioTransport

/-- `StdioTransport::spawn`, after the process has started. -/
def spawn : StdioTransport where
  nextId := 1
  pending := []
  alive := true
  child := true
  reader := .reading
  channels _ := none
  calls _ := .idle
  heard := []
  delivered := []
  sent := []

variable (json : JsonReader) (s : StdioTransport)

/-- The call is at its next operation. -/
def goto (call : Nat) (stage : StdioCall) : StdioTransport :=
  { s with calls := Function.update s.calls call stage }

/-- Something can still be sent on the channel of a call. -/
def senderLives (call : Nat) : Bool := call ∈ s.pending.map Prod.snd ++ s.reader.holds

/-- One operation on the way out; `terminate_child` is the last two. -/
def clean (id : Option Nat) : Cleanup → StdioTransport
  | .unregister =>
    match id with
    | some id => { s with pending := Keyed.drop Prod.fst id s.pending }
    | none => s
  | .lowerFlag => { s with alive := false }
  | .takeChild => { s with child := false }

/-- One operation of `call_with_context`. -/
def callStep (call : Nat) (event : CallEvent) : StdioTransport :=
  match s.calls call with
  | .idle | .returned _ _ => s
  | .checkAlive request =>
    if s.alive then s.goto call (.checkContext request)
    else s.goto call (.returned none (.error (.processExited none)))
  | .checkContext request =>
    match event with
    | .cancelled => s.goto call (.leave none [.lowerFlag, .takeChild] .cancelled)
    | .expired => s.goto call (.leave none [.lowerFlag, .takeChild] .timeout)
    | _ => s.goto call (.takeId request)
  | .takeId request =>
    if s.nextId < u64Max then
      { s with nextId := s.nextId + 1 }.goto call (.register s.nextId request)
    else s.goto call (.returned none (.error idsExhausted))
  | .register id request =>
    { s with pending := Keyed.put Prod.fst (id, call) s.pending }.goto call (.measure id request)
  | .measure id request =>
    if maxStdioRequestBytes < (utf8Bytes (request.line id)).length then
      s.goto call (.leave (some id) [.unregister]
        (.protocol ("MCP stdio request exceeds " ++ maxStdioRequestBytes.repr ++ " bytes")))
    else s.goto call (.write id request)
  | .write id _ =>
    let s := { s with sent := s.sent ++ [(call, id)] }
    match event with
    | .broken message =>
      s.goto call (.leave (some id) [.unregister, .lowerFlag, .lowerFlag, .takeChild]
        (.transport ("failed to write to child stdin: " ++ message)))
    | _ => s.goto call (.wait id)
  | .wait id =>
    match event with
    | .cancelled =>
      s.goto call (.leave (some id) [.unregister, .lowerFlag, .takeChild] .cancelled)
    | .expired | .outOfTime =>
      s.goto call (.leave (some id) [.unregister, .lowerFlag, .takeChild] .timeout)
    | _ =>
      match s.channels call with
      | some result => s.goto call (.returned (some id) result)
      | none =>
        if s.senderLives call then s
        else s.goto call (.leave (some id) [.lowerFlag] (.processExited none))
  | .leave id [] error => s.goto call (.returned id (.error error))
  | .leave id (cleanup :: todo) error =>
    (s.clean id cleanup).goto call (.leave id todo error)

/-- One operation of the reader thread. -/
def readerStep : StdioTransport :=
  match s.reader with
  | .reading | .ended => s
  | .resolving response =>
    match response.id.asNat.bind fun id => Keyed.lookup Prod.fst id s.pending with
    | some (id, call) =>
      { s with pending := Keyed.drop Prod.fst id s.pending, reader := .delivering call response }
    | none => { s with reader := .reading }
  | .delivering call response =>
    { s with
      channels := Function.update s.channels call (some (response.outcome json))
      delivered := s.delivered ++ [(s.heard.length - 1, call)]
      reader := .reading }
  | .lowering error => { s with alive := false, reader := .locking error }
  | .locking error => { s with pending := [], reader := .draining (s.pending.map Prod.snd) error }
  | .draining [] _ => { s with reader := .ended }
  | .draining (call :: rest) error =>
    { s with
      channels := Function.update s.channels call (some (.error error))
      reader := .draining rest error }

/-- The reader reads a line of the server. -/
def readLine (text : String) : StdioTransport :=
  match json.response (String.ofList (trimChars text.toList)) with
  | some response =>
    if response.id.asNat.isSome then
      { s with heard := s.heard ++ [response], reader := .resolving response }
    else s
  | none => s

/-- One step of the whole. -/
def step (s : StdioTransport) : StdioInput → StdioTransport
  | .begin call request =>
    match s.calls call with
    | .idle => s.goto call (.checkAlive request)
    | _ => s
  | .go call event => s.callStep call event
  | .line text => if s.reader = .reading then s.readLine json text else s
  | .endOfOutput =>
    if s.reader = .reading then { s with reader := .lowering (.processExited none) } else s
  | .readError message =>
    if s.reader = .reading then
      { s with
        reader := .lowering (.protocol ("bounded MCP stdout read failed: " ++ message)) }
    else s
  | .reader => s.readerStep json
  | .notify written => if s.alive && !written then { s with alive := false } else s
  | .close => { s with alive := false, child := false }

end StdioTransport

end Rupi
