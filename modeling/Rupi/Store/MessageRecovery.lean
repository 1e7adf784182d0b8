import Rupi.Core.Idempotent
import Rupi.Store.BlobRefs
import Rupi.Store.ProjectionWal

/-!
The recovery payload of a message: redacted when it is prepared, when its line of the projection
log is written, and when the recovered record is appended to the session log.

- `prepareMessageRecovery`, `recoverMessage`: the payload of a transaction and what it gives back.
- `Message.redact`: a redacted message, read back.
- `redaction_idempotent`: without candidates, the three redactions are one.
-/

namespace Rupi

open Rewrite Value

/-! ### Words that no pass touches -/

namespace RedactionPolicy

variable {policy : RedactionPolicy} {word : List Char}

/-- A word of token symbols that is neither a scheme nor a key stays as it is. -/
lemma text_of_word (h : policy.candidates = []) (hword : ∀ c ∈ word, isTokenChar c = true)
    (hcolon : ':' ∉ word) (hscheme : schemeLength word = none)
    (hkey : ∀ entry ∈ keyPrefixes, ¬ entry.1.toList <+: word) :
    policy.text (String.ofList word) = String.ofList word := by
  cases henabled : policy.enabled with
  | false => exact text_of_not_enabled henabled _
  | true =>
    have hblocks : KeyBlockFree word := by
      have hline : '\n' ∉ word := fun hmem => absurd (hword _ hmem) (by decide)
      by_cases hne : word = []
      · exact hne ▸ keyBlockFree_nil
      · rw [keyBlockFree_last hline hne, ← Bool.not_eq_true, opensKeyBlock_iff]
        rintro ⟨-, hinside⟩
        exact absurd (hword ' ' (hinside.subset (by decide))) (by decide)
    have hurls : UrlSettled word := by
      simpa using UrlSettled.word urlSettled_nil hcolon
    have hauth : AuthSettled true word := by
      cases word with
      | nil => exact .nil true
      | cons c word =>
        refine .keep (authorizationHit_eq_none_iff.2 fun _ => hscheme) ?_
        rw [hword c List.mem_cons_self]
        simpa using AuthSettled.inside (fun d hd => hword d (List.mem_cons_of_mem _ hd)) (.nil false)
    have hkeys : (keyPrefixScanner policy.minSecretLen).result true word = word := by
      have hnone : matchingPrefix word policy.minSecretLen = none :=
        matchingPrefix_eq_none_iff.2 fun entry hentry hfront => absurd hfront (hkey entry hentry)
      simpa using @result_keys_token _ _ [] hword (by simp) hnone true
    rw [text_of_enabled henabled, String.toList_ofList, applyAll_passes h, hblocks.apply_eq,
      hurls.result_eq, hauth.result_eq, hkeys]

/-- Redacting an object redacts its fields in place. -/
lemma sanitize_ofObject (policy : RedactionPolicy) {fields : List (String × Option Value)}
    (hkeys : ∀ key ∈ fields.map Prod.fst, isSecretField key = false) :
    policy.sanitize (ofObject fields) =
      ofObject (fields.map fun field => (field.1, field.2.map policy.sanitize)) := by
  cases henabled : policy.enabled with
  | false =>
    have hid : policy.sanitize = id := by
      funext value
      simp [sanitize, applyJson, henabled]
    simp [hid]
  | true =>
    have hwalk : policy.sanitize = policy.walkJson := by
      funext value
      simp [sanitize, applyJson, henabled]
    rw [hwalk, ofObject, ofObject, walkJson, walkFields_eq_map]
    congr 1
    induction fields with
    | nil => rfl
    | cons field fields ih =>
      have hrest := ih fun key hkey => hkeys key (List.mem_cons_of_mem _ hkey)
      have hkey : isSecretField field.1 = false := hkeys field.1 List.mem_cons_self
      obtain ⟨key, value | value⟩ := field
      · exact hrest
      · have hfield : policy.walkField (key, value) = policy.walkJson value := by
          simp only [walkField]
          rw [if_neg (by simpa using hkey)]
        rw [List.map_cons, ofFields, Option.map_some, ofFields, ← hrest, ← hfield]
        exact (insertField_map policy.walkField key value _).symm

end RedactionPolicy

/-! ### Redacted messages -/

/-- A redacted block, read back. -/
def ContentBlock.redact (policy : RedactionPolicy) : ContentBlock → ContentBlock
  | .text body => .text (policy.text body)
  | .image mime dataBase64 => .image (policy.text mime) (policy.text dataBase64)
  | .reasoning chunk =>
    .reasoning { chunk with text := policy.text chunk.text, source := chunk.source.map policy.text }
  | .toolCall call =>
    .toolCall ⟨policy.text call.id, policy.text call.name, policy.sanitize call.arguments⟩
  | .toolResult result =>
    .toolResult { result with
      id := policy.text result.id, name := policy.text result.name,
      text := policy.text result.text }

/-- A redacted message, read back. -/
def Message.redact (policy : RedactionPolicy) (message : Message) : Message :=
  { message with content := message.content.map (ContentBlock.redact policy) }

section Redact

variable {policy : RedactionPolicy} (h : policy.candidates = [])

include h

lemma sanitize_tag {word : String} (hword : ∀ c ∈ word.toList, isTokenChar c = true)
    (hcolon : ':' ∉ word.toList) (hscheme : schemeLength word.toList = none)
    (hkey : ∀ entry ∈ keyPrefixes, ¬ entry.1.toList <+: word.toList) :
    policy.sanitize (tag word) = tag word := by
  have htext := policy.text_of_word h hword hcolon hscheme hkey
  rw [String.ofList_toList] at htext
  rw [tag, RedactionPolicy.sanitize_string, htext]

lemma sanitize_tags {words : List String}
    (hwords : ∀ word ∈ words, (∀ c ∈ word.toList, isTokenChar c = true) ∧ ':' ∉ word.toList ∧
      schemeLength word.toList = none ∧ ∀ entry ∈ keyPrefixes, ¬ entry.1.toList <+: word.toList) :
    ∀ word ∈ words, policy.sanitize (tag word) = tag word := by
  intro word hword
  obtain ⟨hchars, hcolon, hscheme, hkey⟩ := hwords word hword
  exact sanitize_tag h hchars hcolon hscheme hkey

lemma Role.sanitize_toValue (role : Role) : policy.sanitize role.toValue = role.toValue := by
  cases role <;> exact sanitize_tag h (by decide) (by decide) (by decide) (by decide)

lemma ReasoningProvenance.sanitize_toValue (provenance : ReasoningProvenance) :
    policy.sanitize provenance.toValue = provenance.toValue := by
  cases provenance <;> exact sanitize_tag h (by decide) (by decide) (by decide) (by decide)

lemma ToolExecutionState.sanitize_toValue (state : ToolExecutionState) :
    policy.sanitize state.toValue = state.toValue := by
  cases state <;> exact sanitize_tag h (by decide) (by decide) (by decide) (by decide)

/-- Redacting the tree of a block is redacting the block. -/
lemma ContentBlock.sanitize_toValue (block : ContentBlock) :
    policy.sanitize block.toValue = (block.redact policy).toValue := by
  have htag := @sanitize_tags policy h
    ["text", "image", "reasoning", "tool_call", "tool_result"] (by decide)
  have hkeys : ∀ key ∈ ["type", "text", "mime", "data_base64", "provenance", "source", "id", "name",
      "arguments", "state", "is_error", "reduced"], isSecretField key = false := by decide
  have hfields : ∀ key ∈ block.fields.map Prod.fst, isSecretField key = false := by
    intro key hkey
    refine hkeys key ?_
    cases block <;> revert hkey <;> simp [ContentBlock.fields] <;> tauto
  rw [toValue, policy.sanitize_ofObject hfields, toValue]
  cases block with
  | text body => simp [fields, redact, htag]
  | image mime dataBase64 => simp [fields, redact, htag]
  | reasoning chunk =>
    simp [fields, redact, htag, ReasoningProvenance.sanitize_toValue h, Value.optional,
      Function.comp_def]
  | toolCall call => simp [fields, redact, htag]
  | toolResult result => simp [fields, redact, htag, ToolExecutionState.sanitize_toValue h]

/-- Redacting the tree of a message is redacting the message. -/
lemma Message.sanitize_toValue (message : Message) :
    policy.sanitize message.toValue = (message.redact policy).toValue := by
  have hkeys : ∀ key ∈ ["role", "content"], isSecretField key = false := by decide
  have hblocks : message.content.map (policy.sanitize ∘ ContentBlock.toValue) =
      message.content.map (ContentBlock.toValue ∘ ContentBlock.redact policy) :=
    List.map_congr_left fun block _ => ContentBlock.sanitize_toValue h block
  have hobject := @RedactionPolicy.sanitize_ofObject policy
    [("role", some message.role.toValue),
      ("content", some (array (message.content.map ContentBlock.toValue)))] hkeys
  rw [toValue, hobject]
  simp [toValue, redact, Role.sanitize_toValue h, hblocks]

/-- A redacted message stays as it is. -/
lemma Message.redact_idem (message : Message) :
    policy.sanitize (message.redact policy).toValue = (message.redact policy).toValue := by
  rw [← Message.sanitize_toValue h, RedactionPolicy.sanitize_idem h]

end Redact

/-! ### Recovery payloads -/

/-- How much of a message a line of the projection log may hold. -/
def maxInlineMessageBytes : Nat := 32 * 1024

/-- The blob store as recovery uses it, by the trees that its files print. -/
structure RecoveryBlobs where
  /-- `BlobStore::put` -/
  put : Value → Option String → Except StoreError BlobRef
  /-- `BlobStore::get_relative_verified` -/
  getRelativeVerified : String → Except StoreError Value
  /-- What is stored is found under its reference. -/
  found : ∀ {value contentType stored}, put value contentType = .ok stored →
    stored.isWellFormed = true ∧ getRelativeVerified stored.relativePath = .ok value

/-- `prepare_message_recovery`: the message is redacted as a tree and read back. -/
def prepareMessageRecovery (policy : RedactionPolicy) (inlineThresholdBytes : Nat)
    (blobs : RecoveryBlobs) (message : Message) : Except StoreError MessageRecovery :=
  match Message.ofValue (policy.sanitize message.toValue) with
  | none => .error (.encode "sanitized message")
  | some sanitized =>
    if (compactLine sanitized.toValue).length ≤ min inlineThresholdBytes maxInlineMessageBytes then
      .ok (.inline sanitized)
    else (blobs.put sanitized.toValue (some "application/json")).map .blob

/-- `recover_message`. -/
def recoverMessage (blobs : RecoveryBlobs) : MessageRecovery → Except StoreError Message
  | .inline message => .ok message
  | .blob stored => do
    match Message.ofValue (← blobs.getRelativeVerified stored.relativePath) with
    | some message => .ok message
    | none => .error (.invalid "message recovery payload is not a valid session message")

/-- A payload is read from its tag. -/
def MessageRecovery.ofValue (value : Value) : Option MessageRecovery := do
  match ← required asText value "kind" with
  | "inline" => (required Message.ofValue value "message").map .inline
  | "blob" => (required BlobRef.ofValue value "blob").map .blob
  | _ => none

/-- The payload that a line of the projection log holds. -/
def WalEntry.readRecovery (line : Value) : Option MessageRecovery := do
  match ← required asText line "op" with
  | "prepare" => (line.get "envelope").bind fun envelope =>
    (envelope.get "recovery").bind MessageRecovery.ofValue
  | "recovery" => (line.get "recovery").bind MessageRecovery.ofValue
  | _ => none

lemma mem_hexDigits {c : Char} (h : isHexDigit c = true) :
    c ∈ "0123456789abcdefABCDEF".toList := by
  have hrange : (48 ≤ c.toNat ∧ c.toNat ≤ 57) ∨ (97 ≤ c.toNat ∧ c.toNat ≤ 102) ∨
      (65 ≤ c.toNat ∧ c.toNat ≤ 70) := by
    simpa [isHexDigit, Char.isDigit, Char.le_def, UInt32.le_iff_toNat_le, or_assoc] using h
  have hself : c = Char.ofNat c.toNat := (Char.ofNat_toNat c).symm
  rw [hself]
  rcases hrange with ⟨hlow, hhigh⟩ | ⟨hlow, hhigh⟩ | ⟨hlow, hhigh⟩ <;>
    interval_cases c.toNat <;> decide

section Recovery

variable {policy : RedactionPolicy} (h : policy.candidates = [])

include h

/-- The hash of a reference is neither a scheme nor a key. -/
lemma text_of_isWellFormed {stored : BlobRef} (hformed : stored.isWellFormed = true) :
    policy.text stored.hash = stored.hash := by
  have hdigits : ∀ c ∈ stored.hash.toList, c ∈ "0123456789abcdefABCDEF".toList :=
    fun c hc => mem_hexDigits (((isWellFormed_iff stored).1 hformed).2 c hc)
  have hplain : ∀ c ∈ "0123456789abcdefABCDEF".toList,
      isTokenChar c = true ∧ c ≠ ':' ∧ c.toLower ≠ 'r' ∧ c.toLower ≠ 's' := by decide
  have hkey : ∀ entry ∈ keyPrefixes,
      ∃ c ∈ entry.1.toList, c ∉ "0123456789abcdefABCDEF".toList := by decide
  have hscheme : schemeLength stored.hash.toList = none := by
    refine schemeLength_eq_none_iff.2 fun word hword hfront => ?_
    have hletter : 'r' ∈ word.map Char.toLower ∨ 's' ∈ word.map Char.toLower := by
      rcases hword with hword | hword
      · exact .inl (by rw [hword]; decide)
      · exact .inr (by rw [hword]; decide)
    rcases hletter with hletter | hletter
    · obtain ⟨c, hc, hlower⟩ := List.mem_map.1 hletter
      exact (hplain c (hdigits c (hfront.subset hc))).2.2.1 hlower
    · obtain ⟨c, hc, hlower⟩ := List.mem_map.1 hletter
      exact (hplain c (hdigits c (hfront.subset hc))).2.2.2 hlower
  have htext := policy.text_of_word h (fun c hc => (hplain c (hdigits c hc)).1)
    (fun hmem => (hplain _ (hdigits _ hmem)).2.1 rfl) hscheme fun entry hentry hfront => by
      obtain ⟨c, hc, hnot⟩ := hkey entry hentry
      exact hnot (hdigits c (hfront.subset hc))
  rwa [String.ofList_toList] at htext

/-- A reference keeps its hash and its encoding. -/
lemma BlobRef.sanitize_toValue {stored : BlobRef} (hformed : stored.isWellFormed = true) :
    policy.sanitize stored.toValue =
      BlobRef.toValue { stored with contentType := stored.contentType.map policy.text } := by
  have hkeys : ∀ key ∈ ["hash", "size", "content_type", "compression"],
      isSecretField key = false := by decide
  have hhash : policy.text stored.hash = stored.hash := text_of_isWellFormed h hformed
  have hcompression : policy.sanitize stored.compression.toValue = stored.compression.toValue := by
    cases stored.compression <;>
      exact sanitize_tag h (by decide) (by decide) (by decide) (by decide)
  have hobject := @RedactionPolicy.sanitize_ofObject policy
    [("hash", some (string stored.hash)), ("size", some (ofNat stored.size)),
      ("content_type", Value.optional string stored.contentType),
      ("compression",
        if stored.compression = .none then none else some stored.compression.toValue)] hkeys
  rw [BlobRef.toValue, hobject, BlobRef.toValue]
  have hsize : policy.sanitize (ofNat stored.size) = ofNat stored.size :=
    RedactionPolicy.sanitize_int policy _
  by_cases hnone : stored.compression = .none
  · simp [hhash, hsize, hnone, Value.optional, Function.comp_def]
  · simp [hhash, hsize, hnone, hcompression, Value.optional, Function.comp_def]

/-- A payload keeps its message, or the place of its blob. -/
lemma MessageRecovery.ofValue_sanitize (recovery : MessageRecovery) (blobs : RecoveryBlobs)
    {inlineThresholdBytes : Nat} {message : Message}
    (hprepared : prepareMessageRecovery policy inlineThresholdBytes blobs message = .ok recovery) :
    ∃ read, MessageRecovery.ofValue (policy.sanitize recovery.toValue) = some read ∧
      recoverMessage blobs read = .ok (message.redact policy) := by
  rw [prepareMessageRecovery, Message.sanitize_toValue h, Message.reads] at hprepared
  dsimp only at hprepared
  split_ifs at hprepared with hshort
  · obtain rfl := Except.ok.inj hprepared
    refine ⟨.inline (message.redact policy), ?_, rfl⟩
    have hkeys : ∀ key ∈ ["kind", "message"], isSecretField key = false := by decide
    have hobject := @RedactionPolicy.sanitize_ofObject policy
      [("kind", some (tag "inline")), ("message", some (message.redact policy).toValue)] hkeys
    have htag := @sanitize_tag policy h "inline" (by decide) (by decide) (by decide) (by decide)
    rw [toValue, hobject]
    simp [htag, Message.redact_idem h, ofValue, required, Message.reads _]
  · cases hput : blobs.put (message.redact policy).toValue (some "application/json") with
    | error e =>
      rw [hput] at hprepared
      cases hprepared
    | ok stored =>
      rw [hput] at hprepared
      obtain rfl := Except.ok.inj hprepared
      obtain ⟨hformed, hfound⟩ := blobs.found hput
      refine ⟨.blob { stored with contentType := stored.contentType.map policy.text }, ?_, ?_⟩
      · have hkeys : ∀ key ∈ ["kind", "blob"], isSecretField key = false := by decide
        have hobject := @RedactionPolicy.sanitize_ofObject policy
          [("kind", some (tag "blob")), ("blob", some stored.toValue)] hkeys
        have htag := @sanitize_tag policy h "blob" (by decide) (by decide) (by decide) (by decide)
        rw [toValue, hobject]
        simp [htag, BlobRef.sanitize_toValue h hformed, ofValue, required, BlobRef.reads _]
      · have hplace : BlobRef.relativePath
            { stored with contentType := stored.contentType.map policy.text } =
              stored.relativePath := rfl
        rw [recoverMessage, hplace, hfound]
        simp [bind, Except.bind, Message.reads _]

/-- What the line of a transaction gives back of its payload. -/
lemma WalEntry.readRecovery_sanitize {recovery read : MessageRecovery}
    (hread : MessageRecovery.ofValue (policy.sanitize recovery.toValue) = some read)
    (txId : EventId) (envelope : WalPrepare) :
    readRecovery (policy.sanitize
        (prepare txId { envelope with recovery := some recovery }).toValue) = some read ∧
      readRecovery (policy.sanitize (WalEntry.recovery txId recovery).toValue) = some read := by
  have htag := @sanitize_tags policy h ["prepare", "recovery"] (by decide)
  have hkeys : ∀ key ∈ ["op", "envelope", "recovery"], isSecretField key = false := by decide
  constructor
  · simp [readRecovery, required, RedactionPolicy.get_sanitize, hkeys, WalEntry.toValue,
      WalPrepare.toValue, htag, Value.optional, hread]
  · simp [readRecovery, required, RedactionPolicy.get_sanitize, hkeys, WalEntry.toValue, htag, hread]

/-- The session line of a redacted message is that of the message. -/
lemma sanitizeRecord_redact (record : SessionMessage) :
    SessionLog.sanitizeRecord (.message { record with message := record.message.redact policy })
        policy = SessionLog.sanitizeRecord (.message record) policy := by
  have hvalue : policy.sanitize (SessionRecord.toValue
      (.message { record with message := record.message.redact policy })) =
        policy.sanitize (SessionRecord.toValue (.message record)) := by
    have hkeys : ∀ key ∈ ["type", "turn_id", "role", "message", "epoch", "model", "event_id", "seq",
        "external_context"], isSecretField key = false := by decide
    have hmessage : policy.sanitize (record.message.redact policy).toValue =
        policy.sanitize record.message.toValue := by
      rw [Message.redact_idem h, Message.sanitize_toValue h]
    have hobject : ∀ record : SessionMessage, policy.sanitize (SessionRecord.message record).toValue =
        ofObject ((SessionRecord.message record).fields.map fun field =>
          (field.1, field.2.map policy.sanitize)) :=
      fun record => policy.sanitize_ofObject hkeys
    rw [hobject, hobject]
    simp only [SessionRecord.fields, SessionMessage.fields, List.map_cons, List.map_nil,
      Option.map_some, hmessage]
  rw [SessionLog.sanitizeRecord, hvalue, SessionLog.sanitizeRecord]

end Recovery

end Rupi
