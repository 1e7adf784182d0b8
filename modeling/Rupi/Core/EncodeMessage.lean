import Rupi.Core.Encode
import Rupi.Core.Redact

/-!
The durable form of a message record, and how a model reference is read.

- `SessionMessage.toValue`: the tree of one message line of the session log.
- `ModelRef.parse`: reading `provider/model`; `ModelRef.Parsed` is a reference a
  line gave back.
-/

namespace Rupi

open Value

/-! ### Objects -/

namespace Value

@[simp] lemma get_ofObject_nil (key : String) : (ofObject []).get key = none := rfl

@[simp] lemma get_ofObject_cons (key other : String) (value : Option Value)
    (fields : List (String × Option Value)) :
    (ofObject ((other, value) :: fields)).get key =
      if other = key then value.or ((ofObject fields).get key) else (ofObject fields).get key :=
  get_ofFields_cons key other value fields

@[simp] lemma get_ofObject_append (key : String) (fields fields' : List (String × Option Value)) :
    (ofObject (fields ++ fields')).get key =
      ((ofObject fields).get key).or ((ofObject fields').get key) :=
  get_ofFields_append key fields fields'

end Value

/-! ### Message lines -/

def Role.toValue : Role → Value
  | .system => tag "system"
  | .user => tag "user"
  | .assistant => tag "assistant"
  | .tool => tag "tool"

/-- The tag of a role. -/
def Role.tagText : Role → String
  | .system => "system"
  | .user => "user"
  | .assistant => "assistant"
  | .tool => "tool"

lemma Role.toValue_eq (role : Role) : role.toValue = string role.tagText := by
  cases role <;> rfl

/-- The fields of a block, its `type` first. -/
def ContentBlock.fields : ContentBlock → List (String × Option Value)
  | .text body => [("type", some (tag "text")), ("text", some (string body))]
  | .image mime dataBase64 =>
    [("type", some (tag "image")), ("mime", some (string mime)),
      ("data_base64", some (string dataBase64))]
  | .reasoning chunk =>
    [("type", some (tag "reasoning")), ("text", some (string chunk.text)),
      ("provenance", some chunk.provenance.toValue), ("source", optional string chunk.source)]
  | .toolCall call =>
    [("type", some (tag "tool_call")), ("id", some (string call.id)),
      ("name", some (string call.name)), ("arguments", some call.arguments)]
  | .toolResult result =>
    [("type", some (tag "tool_result")), ("id", some (string result.id)),
      ("name", some (string result.name)), ("state", some result.state.toValue),
      ("text", some (string result.text)), ("is_error", some (bool result.isError)),
      ("reduced", some (bool result.reduced))]

def ContentBlock.toValue (block : ContentBlock) : Value := ofObject block.fields

def Message.toValue (message : Message) : Value :=
  ofObject
    [("role", some message.role.toValue),
      ("content", some (array (message.content.map ContentBlock.toValue)))]

def ExternalContextRef.toValue (context : ExternalContextRef) : Value :=
  ofObject
    [("provider", some (string context.provider)),
      ("resource_id", some (string context.resourceId)),
      ("citation", optional string context.citation),
      ("provenance", some (string context.provenance)),
      ("metadata", metadataValue context.metadata)]

/-- The tree of one message line. -/
def SessionMessage.toValue (record : SessionMessage) : Value :=
  ofObject
    [("type", some (tag "message")), ("turn_id", some (string record.turnId)),
      ("role", some record.role.toValue), ("message", some record.message.toValue),
      ("epoch", some (ofNat record.epoch)), ("model", some record.model.toValue),
      ("event_id", some (string record.eventId)), ("seq", optional ofNat record.seq),
      ("external_context", optional ExternalContextRef.toValue record.externalContext)]

/-! ### Model references -/

/-- `ModelRef::parse`. -/
def ModelRef.parse (key : String) : Option ModelRef :=
  let provider := trimChars (key.toList.takeWhile (· ≠ '/'))
  match key.toList.dropWhile (· ≠ '/') with
  | [] => none
  | _ :: rest =>
    let model := trimChars rest
    if provider.isEmpty || model.isEmpty then none
    else some ⟨String.ofList provider, String.ofList model⟩

/-- The reference is one that a line gave back. -/
def ModelRef.Parsed (model : ModelRef) : Prop := ModelRef.parse model.asKey = some model

/-- References that lines gave back agree when their keys do. -/
lemma ModelRef.Parsed.eq_of_asKey {a b : ModelRef} (ha : a.Parsed) (hb : b.Parsed)
    (h : a.asKey = b.asKey) : a = b := by
  rw [ModelRef.Parsed, h, hb] at ha
  exact (Option.some.inj ha).symm

end Rupi
