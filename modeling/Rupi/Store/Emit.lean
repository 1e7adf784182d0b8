import Rupi.Core.Session
import Rupi.Lib.Fallible

/-!
The session record of a message that is emitted with its event.

- `validateMessageEnvelope`, `messageRecord`: the attribution a message record
  takes from its event.
- `messageRecord_eq_ok`: what a record that was made says.
-/

namespace Rupi

open Fallible

/-- `validate_message_envelope`. -/
def validateMessageEnvelope (envelope : EventEnvelope) : Except StoreError Unit := do
  ensure envelope.eventMeta.turnId.isSome (.invalid "a persisted message must belong to a turn")
  ensure envelope.eventMeta.modelEpoch.isSome
    (.invalid "a persisted message must carry a model epoch")
  ensure envelope.eventMeta.model.isSome (.invalid "a persisted message must carry a model")

/-- The external reference of a message, kept beside its text. -/
def externalContextOf : AgentEvent → Option ExternalContextRef
  | .externalContextRetrieved retrieved =>
    some ⟨retrieved.source.provider, retrieved.source.resourceId, retrieved.citation,
      retrieved.source.provenance, retrieved.metadata⟩
  | _ => none

/-- `Session::message_record`. -/
def messageRecord (envelope : EventEnvelope) (message : Message) (seq : EventSeq) :
    Except StoreError SessionMessage := do
  validateMessageEnvelope envelope
  match envelope.eventMeta.turnId, envelope.eventMeta.modelEpoch, envelope.eventMeta.model with
  | none, _, _ => .error (.invalid "a persisted message must belong to a turn")
  | some _, none, _ => .error (.invalid "a persisted message must carry a model epoch")
  | some _, some _, none => .error (.invalid "a persisted message must carry a model")
  | some turnId, some epoch, some model =>
    .ok
      { turnId := turnId
        role := message.role
        message := message
        epoch := epoch
        model := model
        eventId := envelope.eventMeta.eventId
        seq := some seq
        externalContext := externalContextOf envelope.event }

/-- A record is made of a message whose event has a turn, an epoch and a model. -/
lemma messageRecord_eq_ok {envelope : EventEnvelope} {message : Message} {seq : EventSeq}
    {record : SessionMessage} :
    messageRecord envelope message seq = .ok record ↔
      envelope.eventMeta.turnId = some record.turnId ∧
        envelope.eventMeta.modelEpoch = some record.epoch ∧
        envelope.eventMeta.model = some record.model ∧ record.role = message.role ∧
        record.message = message ∧ record.eventId = envelope.eventMeta.eventId ∧
        record.seq = some seq ∧ record.externalContext = externalContextOf envelope.event := by
  obtain ⟨turnId, role, content, epoch, model, eventId, recordSeq, external⟩ := record
  cases hturn : envelope.eventMeta.turnId with
  | none => simp [messageRecord, validateMessageEnvelope, hturn, bind_eq_ok]
  | some turn =>
    cases hepoch : envelope.eventMeta.modelEpoch with
    | none => simp [messageRecord, validateMessageEnvelope, hturn, hepoch, bind_eq_ok]
    | some e =>
      cases hmodel : envelope.eventMeta.model with
      | none => simp [messageRecord, validateMessageEnvelope, hturn, hepoch, hmodel, bind_eq_ok]
      | some m =>
        simp only [messageRecord, validateMessageEnvelope, hturn, hepoch, hmodel, bind_eq_ok,
          ensure_eq_ok, Option.isSome_some, exists_const, true_and, Except.ok.injEq,
          SessionMessage.mk.injEq, Option.some.injEq]
        constructor
        · rintro ⟨rfl, rfl, rfl, rfl, rfl, rfl, rfl, rfl⟩
          exact ⟨rfl, rfl, rfl, rfl, rfl, rfl, rfl, rfl⟩
        · rintro ⟨rfl, rfl, rfl, rfl, rfl, rfl, rfl, rfl⟩
          exact ⟨rfl, rfl, rfl, rfl, rfl, rfl, rfl, rfl⟩

end Rupi
