import Rupi.Core.Redact
import Rupi.Mcp.Admission
import Rupi.Store.Trace

/-!
JSON-RPC messages of an MCP server.

- `JsonRpcResponse.outcome`: what a call gets from a response.
- `decodeHttpResponse`: what it gets from an HTTP response.
- `outcome_eq_ok`, `decodeHttpResponse_eq_ok`: a result comes from a well-formed response, over
  HTTP from one with the id of the request.
-/

namespace Rupi

open Value Fallible

/-- `JsonRpcErrorObject`. -/
structure JsonRpcErrorObject where
  code : Int
  message : String
  data : Option Value
  deriving DecidableEq

/-- `JsonRpcResponse`. -/
structure JsonRpcResponse where
  jsonrpc : String
  id : Value
  result : Option Value
  error : Option JsonRpcErrorObject
  deriving DecidableEq

namespace JsonRpcResponse

/-- The derived reader. -/
def decode (value : Value) : Option JsonRpcResponse := do
  let decodeError (value : Value) : Option JsonRpcErrorObject := do
    return {
      code := ← required asInt value "code"
      message := ← required asText value "message"
      data := ← optionally some value "data" }
  return {
    jsonrpc := ← required asText value "jsonrpc"
    id := ← required some value "id"
    result := ← optionally some value "result"
    error := ← optionally decodeError value "error" }

/-- Version 2.0, and exactly one of a result and an error. -/
def WellFormed (response : JsonRpcResponse) : Prop :=
  response.jsonrpc = "2.0" ∧ response.result.isSome ≠ response.error.isSome

instance (response : JsonRpcResponse) : Decidable response.WellFormed :=
  inferInstanceAs (Decidable (_ ∧ _))

end JsonRpcResponse

/-- `serde_json` and the texts of the standard library, as the transports use them. -/
structure JsonReader where
  /-- `from_str::<Value>` -/
  value : String → Option Value
  /-- `from_slice::<Value>`, with the text of its error. -/
  valueOfBytes : Bytes → Except String Value
  /-- `from_str::<JsonRpcResponse>` -/
  response : String → Option JsonRpcResponse
  decodeError : Value → String
  utf8Error : Bytes → String
  debugText : String → String
  debugValue : Value → String

section Response

variable (reader : JsonReader)

/-- `validate_jsonrpc_response`. -/
def validateJsonRpcResponse (response : JsonRpcResponse) : Except McpError Unit := do
  ensure (response.jsonrpc = "2.0")
    (.protocol ("MCP JSON-RPC response has unsupported version " ++
      reader.debugText response.jsonrpc))
  ensure (response.result.isSome ≠ response.error.isSome)
    (.protocol "MCP JSON-RPC response must contain exactly one of result or error")

/-- The result or the error of a response. -/
def JsonRpcResponse.resultOrError (response : JsonRpcResponse) : Except McpError Value :=
  match response.error with
  | some error => .error (.jsonRpc error.code error.message error.data)
  | none => .ok (response.result.getD .null)

/-- What a call on a pipe gets from its response. -/
def JsonRpcResponse.outcome (response : JsonRpcResponse) : Except McpError Value := do
  validateJsonRpcResponse reader response
  response.resultOrError

/-! ### Responses over HTTP -/

/-- `MAX_HTTP_RESPONSE_BYTES`. -/
def maxHttpResponseBytes : Nat := 8 * 1024 * 1024

/-- What reading the body gives. -/
inductive HttpBody where
  | bytes (body : Bytes)
  | timedOut
  | failed (message : String)
  deriving DecidableEq

/-- An HTTP response: its content type, if it has one, and its body. -/
structure HttpResponse where
  contentType : Option String
  body : HttpBody
  deriving DecidableEq

/-- `read_http_body_with_limit`. -/
def readHttpBody (limit : Nat) : HttpBody → Except McpError Bytes
  | .timedOut => .error .timeout
  | .failed message => .error (.transport ("cannot read MCP HTTP response: " ++ message))
  | .bytes body =>
    if body.length > limit then
      .error (.protocol ("MCP HTTP response exceeds " ++ limit.repr ++ " bytes"))
    else .ok body

/-- The message of one line of an event stream, if it has the id. -/
def sseMessage (expectedId : Nat) (line : String) : Option Value := do
  let data ← stripFront "data:".toList line.toList
  let data := String.ofList (trimChars data)
  if data = "" || data = "[DONE]" then none
  else
    let value ← reader.value data
    if (value.get "id").bind asNat = some expectedId then some value else none

/-- `parse_sse_json`: the first message with the id. -/
def parseSseJson (body : Bytes) (expectedId : Nat) : Except McpError Value :=
  match fromUtf8 body with
  | none => .error (.protocol ("MCP SSE response is not UTF-8: " ++ reader.utf8Error body))
  | some text =>
    match (textLines text).findSome? (sseMessage reader expectedId) with
    | some value => .ok value
    | none => .error (.protocol "MCP SSE response contained no data message")

/-- The JSON of a response. -/
def httpValue (response : HttpResponse) (expectedId : Nat) : Except McpError Value := do
  let body ← readHttpBody maxHttpResponseBytes response.body
  if containsText "text/event-stream".toList
      ((response.contentType.getD "").toList.map Char.toLower) then
    parseSseJson reader body expectedId
  else
    match reader.valueOfBytes body with
    | .ok value => .ok value
    | .error error => .error (.protocol ("invalid MCP HTTP JSON response: " ++ error))

/-- `decode_http_response`. -/
def decodeHttpResponse (response : HttpResponse) (expectedId : Nat) : Except McpError Value := do
  let value ← httpValue reader response expectedId
  match JsonRpcResponse.decode value with
  | none =>
    .error (.protocol ("invalid MCP JSON-RPC response: " ++ reader.decodeError value))
  | some response =>
    validateJsonRpcResponse reader response
    ensure (response.id.asNat = some expectedId)
      (.protocol ("MCP JSON-RPC response id " ++ reader.debugValue response.id ++
        " does not match request id " ++ expectedId.repr))
    response.resultOrError

/-! ### Where a result comes from -/

variable {reader} {value : Value}

lemma validateJsonRpcResponse_eq_ok {response : JsonRpcResponse} {u : Unit} :
    validateJsonRpcResponse reader response = .ok u ↔ response.WellFormed := by
  simp [validateJsonRpcResponse, bind_eq_ok, JsonRpcResponse.WellFormed]

lemma resultOrError_eq_ok {response : JsonRpcResponse} (h : response.WellFormed) :
    response.resultOrError = .ok value ↔ response.result = some value := by
  obtain ⟨jsonrpc, id, result, error⟩ := response
  have hone : result.isSome ≠ error.isSome := h.2
  cases result <;> cases error <;> simp_all [JsonRpcResponse.resultOrError]

/-- **A result on a pipe** is that of a well-formed response. -/
lemma outcome_eq_ok {response : JsonRpcResponse} :
    response.outcome reader = .ok value ↔ response.WellFormed ∧ response.result = some value := by
  rw [JsonRpcResponse.outcome, bind_eq_ok]
  constructor
  · rintro ⟨_, hvalid, hresult⟩
    have hw := validateJsonRpcResponse_eq_ok.1 hvalid
    exact ⟨hw, (resultOrError_eq_ok hw).1 hresult⟩
  · rintro ⟨hw, hresult⟩
    exact ⟨(), validateJsonRpcResponse_eq_ok.2 hw, (resultOrError_eq_ok hw).2 hresult⟩

/-- **A result over HTTP** is that of a well-formed response with the id of the request, which
the body holds. -/
lemma decodeHttpResponse_eq_ok {http : HttpResponse} {expectedId : Nat}
    (h : decodeHttpResponse reader http expectedId = .ok value) :
    ∃ json response, httpValue reader http expectedId = .ok json ∧
      JsonRpcResponse.decode json = some response ∧ response.WellFormed ∧
      response.id.asNat = some expectedId ∧ response.result = some value := by
  obtain ⟨json, hjson, h⟩ := bind_eq_ok.1 h
  cases hresponse : JsonRpcResponse.decode json with
  | none => simp [hresponse] at h
  | some response =>
    simp only [hresponse] at h
    obtain ⟨_, hvalid, h⟩ := bind_eq_ok.1 h
    obtain ⟨_, hid, h⟩ := bind_eq_ok.1 h
    have hw := validateJsonRpcResponse_eq_ok.1 hvalid
    exact ⟨json, response, hjson, hresponse, hw, ensure_eq_ok.1 hid, (resultOrError_eq_ok hw).1 h⟩

end Response

end Rupi
