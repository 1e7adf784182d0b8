import Rupi.Core.DecodeRecord
import Rupi.Import.Plan

/-!
Which durable lines read back as what was written.

A model reference goes to a line as one text, `provider/model`, and is split at the
first separator when it is read. The importer takes both halves from the file it reads.

- `ModelRef.Separable`: the references the text form keeps.
- **`durable_readsBack_iff`**: a record or a trace line reads back exactly when its
  references are of that kind.
- `importedHeader_unreadable`: a file whose import writes a header that no reader takes.
-/

namespace Rupi

open Value

/-- No separator in the provider, and both halves trimmed and not empty. -/
def ModelRef.Separable (model : ModelRef) : Prop :=
  '/' ∉ model.provider.toList ∧ IsTrimmed model.provider ∧ IsTrimmed model.model

/-- **What reads back**: a reference, a session record and a trace line read back as they
were written exactly when every reference in them is separable. -/
theorem durable_readsBack_iff (model : ModelRef) :
    (ModelRef.parse model.asKey = some model ↔ model.Separable) ∧
      (∀ record : SessionRecord, InMapOrder record.metadata →
        (SessionRecord.ofValue record.toValue = some record ↔
          ∀ model ∈ record.modelRefs, model.Separable)) ∧
      ∀ entry : TraceEntry, InMapOrder entry.envelope.event.metadata →
        (TraceEntry.ofValue entry.toValue = some entry ↔
          ∀ model ∈ entry.modelRefs, model.Separable) := by
  have hrefs : ∀ refs : List ModelRef,
      (∀ model ∈ refs, model.Parsed) ↔ ∀ model ∈ refs, model.Separable :=
    fun refs => forall₂_congr fun model _ => model.parsed_iff
  refine ⟨model.parsed_iff, fun record horder => ?_, fun entry horder => ?_⟩
  · rw [record.ofValue_toValue_iff, hrefs, and_iff_left horder]
  · rw [entry.ofValue_toValue_iff, hrefs, and_iff_left horder]

namespace NamedModel

def model : ModelRef := ⟨"local", "qwen"⟩

def epoch : SessionRecord := .epoch ⟨1, model, .initial⟩

def request : TraceEntry where
  envelope := ⟨1, ⟨"e1", "s", some "t", some 1, 0, some 0, some model, none, none, "tr", "sp"⟩,
    .modelRequestStarted ⟨0, model, 1, 0, 0⟩⟩
  redactions := 0
  rawPayload := false
  rawRef := none
  externalized := []

end NamedModel

open NamedModel in
/-- A named model, its epoch and a request to it. -/
theorem durable_readsBack_iff_named :
    ModelRef.parse model.asKey = some model ∧
      SessionRecord.ofValue epoch.toValue = some epoch ∧
      TraceEntry.ofValue request.toValue = some request := by
  have hseparable : model.Separable := (ModelRef.parsed_iff _).mp (by decide +kernel)
  refine ⟨(durable_readsBack_iff model).1.mpr hseparable,
    ((durable_readsBack_iff model).2.1 epoch (by decide)).mpr ?_,
    ((durable_readsBack_iff model).2.2 request (by decide)).mpr ?_⟩
  · simpa [epoch, SessionRecord.modelRefs] using hseparable
  · simpa [request, TraceEntry.modelRefs, AgentEvent.modelRefs] using hseparable

namespace NamelessProvider

/-- A file whose model change names an empty provider. -/
def file : List Value :=
  [object [("id", string "abc"), ("type", string "session"), ("version", int 3)],
    object [("id", string "m1"), ("provider", string ""), ("toModelId", string "qwen"),
      ("type", string "model_change")]]

/-- The header that its import writes. -/
def header : SessionHeader where
  sessionId := "pi-abc"
  version := 3
  startedAtMs := 0
  workingDir := "."
  model := ⟨"", "qwen"⟩
  parentSession := none
  branchedFromEvent := none
  importedFrom := some "pi"

end NamelessProvider

open NamelessProvider in
/-- The file is imported, and the first line of the new session log is one that no
reader takes back. -/
theorem importedHeader_unreadable :
    ((PiImport.parse (PiImport.readerOf file) "session.jsonl" (PiImport.fileOf file)).bind
        (PiImport.plan fun _ => none)).map (·.header) = .ok header ∧
      SessionRecord.ofValue (SessionRecord.header header).toValue = none ∧
      ModelRef.parse header.model.asKey ≠ some header.model := by
  decide +kernel

end Rupi
