import Rupi.Mcp.StdioTransport

/-!
The MCP transport over HTTP, one operation at a time.

- `HttpCall`, `HttpWorker`: where a call and its worker thread are between their operations on
  shared data.
- `HttpTransport.step`: one operation of one thread, in any order of the threads.
-/

namespace Rupi

open Value

/-- `MAX_HTTP_REQUEST_BYTES`. -/
def maxHttpRequestBytes : Nat := 8 * 1024 * 1024

/-- The next operation of a worker. In `lowering`, `torn` says that the exchange failed because
its relay was stopped. -/
inductive HttpWorker where
  | checkSize
  | checkAlive
  | post
  | lowering (message : String) (torn : Bool)
  | report (result : Except McpError Value)
  | done
  | panicked
  deriving DecidableEq

/-- What a call does when its worker has been joined. -/
inductive AfterJoin where
  | restore (error : McpError)
  | give (result : Except McpError Value)
  deriving DecidableEq

/-- The next operation of a call. -/
inductive HttpCall where
  | idle
  | checkAlive (request : McpRequest)
  | checkContext (request : McpRequest)
  | takeId (request : McpRequest)
  | prepare (id : Nat) (request : McpRequest)
  | waiting (id : Nat) (request : McpRequest) (worker : HttpWorker)
  | lowering (id : Nat) (request : McpRequest) (worker : HttpWorker)
  | stopped (id : Nat) (request : McpRequest) (worker : HttpWorker) (after : AfterJoin)
  | restoring (id : Nat) (error : McpError)
  | returned (id : Option Nat) (result : Except McpError Value)
  deriving DecidableEq

/-- What a worker meets at its next operation. -/
inductive HttpWorkerEvent where
  | ready
  | response (response : HttpResponse)
  | status (message : String)
  | timeout
  | failure (message : String)
  | panic
  deriving DecidableEq

/-- The transport with the threads in it. `dead` remembers that the transport has failed or was
closed, `torn` the calls whose stopped exchange has lowered the flag that they will raise again,
`exchanges` which call got which response, and `sent` which call posted which id. -/
structure HttpTransport where
  nextId : Nat
  alive : Bool
  channels : Nat → Option (Except McpError Value)
  calls : Nat → HttpCall
  begun : List Nat
  dead : Bool
  torn : List Nat
  exchanges : List (Nat × HttpResponse)
  sent : List (Nat × Nat)

/-- What happens next: a call begins or goes on, its worker goes on, a notification is posted
or fails, or the transport is closed. -/
inductive HttpInput where
  | begin (call : Nat) (request : McpRequest)
  | go (call : Nat) (event : CallEvent)
  | work (call : Nat) (event : HttpWorkerEvent)
  | notify (posted : Bool)
  | close
  deriving DecidableEq

/-- The refusal of a transport whose flag is down. -/
def httpClosed : McpError := .transport "MCP HTTP transport is closed"

/-- A worker that has ended. -/
def HttpWorker.ended : HttpWorker → Bool
  | done | panicked => true
  | _ => false

namespace HttpTransport

/-- `HttpTransport::new`. -/
def new : HttpTransport where
  nextId := 1
  alive := true
  channels _ := none
  calls _ := .idle
  begun := []
  dead := false
  torn := []
  exchanges := []
  sent := []

variable (json : JsonReader) (s : HttpTransport)

/-- The call is at its next operation. -/
def goto (call : Nat) (stage : HttpCall) : HttpTransport :=
  { s with calls := Function.update s.calls call stage }

/-- One operation of `call_with_context`. -/
def callStep (call : Nat) (event : CallEvent) : HttpTransport :=
  match s.calls call with
  | .idle | .returned _ _ => s
  | .checkAlive request =>
    if s.alive then s.goto call (.checkContext request)
    else s.goto call (.returned none (.error httpClosed))
  | .checkContext request =>
    match event with
    | .cancelled => s.goto call (.returned none (.error .cancelled))
    | .expired => s.goto call (.returned none (.error .timeout))
    | _ => s.goto call (.takeId request)
  | .takeId request =>
    if s.nextId < u64Max then
      { s with nextId := s.nextId + 1 }.goto call (.prepare s.nextId request)
    else s.goto call (.returned none (.error idsExhausted))
  | .prepare id request =>
    match event with
    | .broken message =>
      s.goto call (.returned (some id)
        (.error (.transport ("MCP cancellation relay failed to start: " ++ message))))
    | _ => s.goto call (.waiting id request .checkSize)
  | .waiting id request worker =>
    match event with
    | .cancelled => s.goto call (.stopped id request worker (.restore .cancelled))
    | .expired => s.goto call (.stopped id request worker (.restore .timeout))
    | _ =>
      match s.channels call with
      | some result => s.goto call (.stopped id request worker (.give result))
      | none =>
        if worker = .panicked then s.goto call (.lowering id request worker) else s
  | .lowering id request worker =>
    { s with alive := false, dead := true }.goto call (.stopped id request worker
      (.give (.error (.transport "MCP HTTP worker exited without a result"))))
  | .stopped id _ worker after =>
    if worker.ended then
      match after with
      | .restore error => s.goto call (.restoring id error)
      | .give result => s.goto call (.returned (some id) result)
    else s
  | .restoring id error =>
    { s with alive := true, torn := s.torn.filter (· ≠ call) }.goto call
      (.returned (some id) (.error error))

/-- One operation of a worker: `HttpTransport::send`, then `decode_http_response`, then the
channel. `at'` is its call with the worker behind the operation, and `torn` says that the relay
was stopped. -/
def workerStep (call id : Nat) (request : McpRequest) (torn : Bool) (at' : HttpWorker → HttpCall)
    (event : HttpWorkerEvent) (worker : HttpWorker) : HttpTransport :=
  let goto (s : HttpTransport) (worker : HttpWorker) := s.goto call (at' worker)
  if worker.ended then s
  else if event = .panic then goto s .panicked
  else
    match worker with
    | .checkSize =>
      if maxHttpRequestBytes < (utf8Bytes (request.line id)).length then
        goto s (.report (.error (.protocol
          ("MCP HTTP request exceeds " ++ maxHttpRequestBytes.repr ++ " bytes"))))
      else goto s .checkAlive
    | .checkAlive => if s.alive then goto s .post else goto s (.report (.error httpClosed))
    | .post =>
      let s := { s with sent := s.sent ++ [(call, id)] }
      match event with
      | .response response =>
        goto { s with exchanges := s.exchanges ++ [(call, response)] }
          (.report (decodeHttpResponse json response id))
      | .status message =>
        goto s (.report (.error (.transport ("MCP HTTP status " ++ message))))
      | .failure message => goto s (.lowering message torn)
      | _ => goto s (.report (.error .timeout))
    | .lowering message torn =>
      let s := { s with
        alive := false
        dead := s.dead || !torn
        torn := if torn then s.torn ++ [call] else s.torn }
      goto s (.report (.error (.transport ("MCP HTTP request failed: " ++ message))))
    | .report result =>
      goto { s with channels := Function.update s.channels call (some result) } .done
    | .done | .panicked => s

/-- One step of the whole; `close` has the transport for itself. -/
def step (s : HttpTransport) : HttpInput → HttpTransport
  | .begin call request =>
    match s.calls call with
    | .idle => { s with begun := s.begun ++ [call] }.goto call (.checkAlive request)
    | _ => s
  | .go call event => s.callStep call event
  | .work call event =>
    match s.calls call with
    | .waiting id request worker =>
      s.workerStep json call id request false (.waiting id request) event worker
    | .stopped id request worker after =>
      s.workerStep json call id request true (.stopped id request · after) event worker
    | _ => s
  | .notify posted => if s.alive && !posted then { s with alive := false, dead := true } else s
  | .close =>
    if s.begun.all fun call => (s.calls call) matches .returned _ _ then
      { s with alive := false, dead := true }
    else s

end HttpTransport

end Rupi
