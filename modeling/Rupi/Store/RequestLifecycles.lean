import Rupi.Lib.Backward
import Rupi.Runtime.TurnLoop

/-!
Model requests of a trace, as resume reads them.

- `inspectModelRequestLifecycles`: the requests that a trace leaves open.
- `validateModelRequestLifecycles`: it leaves none.
- `recoverAbandonedModelRequests`: those left open are closed.
- `inspect_start`, `inspect_complete`, `inspect_other`: what one line does.
- **`recoverAbandonedModelRequests_settles`**: a trace that is recovered is valid, and recovering it
  once more changes nothing.
-/

namespace Rupi

open Fallible Backward

/-! ### Open requests -/

/-- What the end of a request is matched by: the turn, the epoch and the model. -/
abbrev RequestKey := Option TurnId × ℕ × ModelRef

/-- A request that was started and has not ended. -/
structure OpenModelRequest where
  start : TraceEntry
  started : ModelRequestStarted
  isStart : start.envelope.event = .modelRequestStarted started

def OpenModelRequest.key (request : OpenModelRequest) : RequestKey :=
  (request.start.envelope.eventMeta.turnId, request.started.epoch, request.started.model)

/-- The epoch and the model that a line has beside its event are those of its event. -/
def requestMetaAgrees (entry : TraceEntry) (epoch : ℕ) (model : ModelRef) : Bool :=
  entry.envelope.eventMeta.modelEpoch.all (· = epoch) &&
    entry.envelope.eventMeta.model.all (· = model)

def requestInvalid (session : SessionId) (detail : String) : StoreError :=
  .invalid ("session " ++ session ++ detail ++ "; resume requires recovery")

/-- One line of the inspection. -/
def inspectModelRequest (session : SessionId) (opened : List OpenModelRequest)
    (entry : TraceEntry) : Except StoreError (List OpenModelRequest) :=
  let turn := entry.envelope.eventMeta.turnId
  match hevent : entry.envelope.event with
  | .modelRequestStarted started =>
    if turn = none then
      .error (requestInvalid session " model request start has no turn identity")
    else if !requestMetaAgrees entry started.epoch started.model then
      .error (requestInvalid session " model request start metadata disagrees with its event")
    else if opened.any (·.key = (turn, started.epoch, started.model)) then
      .error (requestInvalid session " has overlapping model request lifecycles")
    else .ok (opened ++ [⟨entry, started, hevent⟩])
  | .modelRequestCompleted completed =>
    if turn = none then
      .error (requestInvalid session " model request completion has no turn identity")
    else if !requestMetaAgrees entry completed.epoch completed.model then
      .error (requestInvalid session
        " model request completion metadata disagrees with its event")
    else
      match rposition (·.key = (turn, completed.epoch, completed.model)) opened with
      | none => .error (requestInvalid session
          " has a model request completion without a matching start")
      | some index => .ok (opened.eraseIdx index)
  | _ => .ok opened

/-- `inspect_model_request_lifecycles`, with the event of each start. -/
def inspectModelRequestLifecycles (session : SessionId) (entries : List TraceEntry) :
    Except StoreError (List OpenModelRequest) :=
  scan (inspectModelRequest session) [] entries

/-- `validate_model_request_lifecycles`. -/
def validateModelRequestLifecycles (session : SessionId) (entries : List TraceEntry) :
    Except StoreError Unit := do
  let opened ← inspectModelRequestLifecycles session entries
  if opened.isEmpty then .ok ()
  else .error (requestInvalid session
    " trace contains an incomplete model request lifecycle")

/-! ### Recovery -/

/-- The end of a request whose process died. -/
def abandonedCompletion (started : ModelRequestStarted) : ModelRequestCompleted where
  epoch := started.epoch
  model := started.model
  finishReason := some "abandoned"
  inputTokens := none
  uncachedInputTokens := none
  logicalPromptTokens := none
  cacheReadTokens := none
  cacheWriteTokens := none
  outputTokens := none
  providerTotalTokens := none
  durationMs := 0
  toolCalls := 0
  reasoningProvenance := none
  firstDeltaMs := none

/-- The envelope of a line that recovery writes about a request. -/
def OpenModelRequest.envelope (request : OpenModelRequest) (env : Env) (issued : ℕ)
    (event : AgentEvent) (parent : EventId) : EventEnvelope where
  v := eventSchemaVersion
  eventMeta :=
    { eventId := env.fresh issued
      sessionId := env.session
      turnId := request.start.envelope.eventMeta.turnId
      seq := none
      timestampMs := env.clock issued
      modelEpoch := some request.started.epoch
      model := some request.started.model
      toolCallId := none
      parentEventId := some parent
      traceId := request.start.envelope.eventMeta.traceId
      spanId := env.fresh (issued + 1) }
  event := event

/-- A request is closed: its completion, and a diagnostic. -/
def OpenModelRequest.close (request : OpenModelRequest) (env : Env) (issued : ℕ)
    (trace : StoreTrace) : StoreTrace :=
  let completed := trace.emit (request.envelope env issued
    (.modelRequestCompleted (abandonedCompletion request.started)) request.start.eventId)
  completed.emit (request.envelope env (issued + 2)
    (.diagnostic .warn ("model request " ++ request.start.eventId ++
      " was interrupted before completion; partial output remains canonical and was not " ++
      "restored into model context")) (env.fresh issued))

/-- All of them are closed, in their order. -/
def closeRequests (env : Env) : ℕ → StoreTrace → List OpenModelRequest → StoreTrace
  | _, trace, [] => trace
  | issued, trace, request :: rest =>
    closeRequests env (issued + 4) (request.close env issued trace) rest

/-- `recover_abandoned_model_requests`, of a trace without malformed lines. -/
def recoverAbandonedModelRequests (env : Env) (issued : ℕ) (trace : StoreTrace) :
    Except StoreError StoreTrace := do
  let opened ← inspectModelRequestLifecycles env.session trace.entries
  .ok (closeRequests env issued trace opened)

/-! ### What one line does -/

section Lines

variable {session : SessionId} {opened rest : List OpenModelRequest} {entry : TraceEntry}
  {request : OpenModelRequest}

lemma inspect_start {started : ModelRequestStarted}
    (hevent : entry.envelope.event = .modelRequestStarted started)
    (hturn : entry.envelope.eventMeta.turnId ≠ none)
    (hagrees : requestMetaAgrees entry started.epoch started.model = true)
    (hfree : ∀ other ∈ opened,
      other.key ≠ (entry.envelope.eventMeta.turnId, started.epoch, started.model)) :
    inspectModelRequest session opened entry = .ok (opened ++ [⟨entry, started, hevent⟩]) := by
  obtain ⟨⟨v, about, event⟩, redactions, rawPayload, rawRef, externalized⟩ := entry
  cases hevent
  rw [inspectModelRequest]
  dsimp only
  rw [if_neg hturn, if_neg (by rw [hagrees]; exact Bool.false_ne_true), if_neg]
  rw [List.any_eq_true]
  exact fun ⟨other, hother, hkey⟩ => hfree other hother (of_decide_eq_true hkey)

/-- The only request that a completion is about is closed. -/
lemma inspect_complete {completed : ModelRequestCompleted}
    (hevent : entry.envelope.event = .modelRequestCompleted completed)
    (hturn : entry.envelope.eventMeta.turnId ≠ none)
    (hagrees : requestMetaAgrees entry completed.epoch completed.model = true)
    (hkey : request.key = (entry.envelope.eventMeta.turnId, completed.epoch, completed.model))
    (hrest : ∀ other ∈ rest, other.key ≠ request.key) :
    inspectModelRequest session (request :: rest) entry = .ok rest := by
  obtain ⟨⟨v, about, event⟩, redactions, rawPayload, rawRef, externalized⟩ := entry
  cases hevent
  have hfound : rposition (fun other : OpenModelRequest =>
      decide (other.key = (about.turnId, completed.epoch, completed.model)))
      (request :: rest) = some 0 :=
    @rposition_split _ _ [] rest request (decide_eq_true hkey) fun other hother =>
      decide_eq_false fun heq => hrest other hother (heq.trans hkey.symm)
  rw [inspectModelRequest]
  dsimp only
  rw [if_neg hturn, if_neg (by rw [hagrees]; exact Bool.false_ne_true), hfound]
  rfl

/-- The events of a request's lifecycle. -/
def AgentEvent.boundsRequest : AgentEvent → Bool
  | .modelRequestStarted _ | .modelRequestCompleted _ => true
  | _ => false

lemma inspect_other (h : entry.envelope.event.boundsRequest = false) :
    inspectModelRequest session opened entry = .ok opened := by
  obtain ⟨⟨v, about, event⟩, redactions, rawPayload, rawRef, externalized⟩ := entry
  cases event
  case modelRequestStarted started => cases h
  case modelRequestCompleted completed => cases h
  all_goals rfl

/-- Open requests are told apart by what their ends are matched by. -/
structure OpenApart (opened : List OpenModelRequest) : Prop where
  turns : ∀ request ∈ opened, request.start.envelope.eventMeta.turnId ≠ none
  keys : (opened.map OpenModelRequest.key).Nodup

lemma OpenApart.step {opened' : List OpenModelRequest} (h : OpenApart opened)
    (hstep : inspectModelRequest session opened entry = .ok opened') : OpenApart opened' := by
  rw [inspectModelRequest] at hstep
  split at hstep
  · rename_i started hevent
    split_ifs at hstep with hturn hagrees hfree
    cases hstep
    refine ⟨fun request hrequest => ?_, ?_⟩
    · rcases List.mem_append.1 hrequest with hold | hnew
      · exact h.turns request hold
      · rw [List.mem_singleton.1 hnew]
        exact hturn
    · rw [List.map_append, List.nodup_append]
      refine ⟨h.keys, List.nodup_singleton _, fun key hkey other hother heq => hfree ?_⟩
      obtain ⟨old, hold, rfl⟩ := List.mem_map.1 hkey
      rw [List.mem_singleton.1 hother] at heq
      exact List.any_eq_true.2 ⟨old, hold, decide_eq_true heq⟩
  · split_ifs at hstep with hturn hagrees
    split at hstep
    · cases hstep
    · rename_i index hindex
      cases hstep
      refine ⟨fun request hrequest => h.turns request (List.mem_of_mem_eraseIdx hrequest), ?_⟩
      exact h.keys.sublist ((List.eraseIdx_sublist _ _).map _)
  · cases hstep
    exact h

lemma openApart_of_inspect {entries : List TraceEntry}
    (h : inspectModelRequestLifecycles session entries = .ok opened) : OpenApart opened :=
  scan_invariant (fun _ _ _ hinv hstep => hinv.step hstep)
    ⟨fun _ hrequest => absurd hrequest List.not_mem_nil, List.nodup_nil⟩ h

lemma validate_eq_ok {entries : List TraceEntry} :
    validateModelRequestLifecycles session entries = .ok () ↔
      inspectModelRequestLifecycles session entries = .ok [] := by
  rw [validateModelRequestLifecycles, Fallible.bind_eq_ok]
  constructor
  · rintro ⟨opened, hinspect, hempty⟩
    split_ifs at hempty with hnil
    rwa [List.isEmpty_iff.1 hnil] at hinspect
  · exact fun h => ⟨[], h, rfl⟩

end Lines

/-! ### Recovery -/

section Recovery

variable {env : Env} {opened rest : List OpenModelRequest} {trace trace' : StoreTrace}
  {request : OpenModelRequest}

/-- A line about a request agrees with itself. -/
lemma agrees_envelope (env : Env) (issued : ℕ) (trace : StoreTrace) (request : OpenModelRequest)
    (event : AgentEvent) (parent : EventId) :
    requestMetaAgrees (.ofEnvelope (trace.stamp (request.envelope env issued event parent)))
      request.started.epoch request.started.model = true := by
  have hepoch : decide (request.started.epoch = request.started.epoch) = true := decide_eq_true rfl
  have hmodel : decide (request.started.model = request.started.model) = true := decide_eq_true rfl
  exact Bool.and_eq_true_iff.2 ⟨hepoch, hmodel⟩

/-- Recovery closes the first of the open requests, and leaves the others. -/
lemma inspect_close (hopen : OpenApart (request :: rest)) (issued : ℕ)
    (h : inspectModelRequestLifecycles env.session trace.entries = .ok (request :: rest)) :
    trace.entries <+: (request.close env issued trace).entries ∧
      inspectModelRequestLifecycles env.session (request.close env issued trace).entries =
        .ok rest := by
  rw [OpenModelRequest.close, StoreTrace.emit_entries, StoreTrace.emit_entries, List.append_assoc]
  refine ⟨List.prefix_append _ _, ?_⟩
  have hrest : ∀ other ∈ rest, other.key ≠ request.key := fun other hother heq =>
    (List.nodup_cons.1 hopen.keys).1 (List.mem_map.2 ⟨other, hother, heq⟩)
  rw [inspectModelRequestLifecycles, scan_append_eq_ok]
  refine ⟨_, h, Fallible.bind_eq_ok.2 ⟨rest, ?_, Fallible.bind_eq_ok.2 ⟨rest, ?_, rfl⟩⟩⟩
  · exact inspect_complete rfl (hopen.turns request List.mem_cons_self)
      (agrees_envelope env issued trace request _ _) rfl hrest
  · exact inspect_other rfl

lemma inspect_closeRequests (issued : ℕ) (hopen : OpenApart opened)
    (h : inspectModelRequestLifecycles env.session trace.entries = .ok opened) :
    trace.entries <+: (closeRequests env issued trace opened).entries ∧
      inspectModelRequestLifecycles env.session (closeRequests env issued trace opened).entries =
        .ok [] := by
  induction opened generalizing issued trace with
  | nil => exact ⟨List.prefix_rfl, h⟩
  | cons request rest ih =>
    obtain ⟨hlead, hclosed⟩ := inspect_close hopen issued h
    obtain ⟨hlater, hall⟩ := ih (issued + 4) (openApart_of_inspect hclosed) hclosed
    exact ⟨hlead.trans hlater, hall⟩

/-- **Requests that are recovered**: recovery only adds lines, what it leaves is valid, and to
recover it once more changes nothing. -/
theorem recoverAbandonedModelRequests_settles (env : Env) (issued : ℕ)
    (h : recoverAbandonedModelRequests env issued trace = .ok trace') :
    trace.entries <+: trace'.entries ∧
      validateModelRequestLifecycles env.session trace'.entries = .ok () ∧
      ∀ later, recoverAbandonedModelRequests env later trace' = .ok trace' := by
  obtain ⟨opened, hinspect, hclosed⟩ := Fallible.bind_eq_ok.1 h
  cases hclosed
  obtain ⟨hlead, hall⟩ := inspect_closeRequests issued (openApart_of_inspect hinspect) hinspect
  exact ⟨hlead, validate_eq_ok.2 hall, fun later => Fallible.bind_eq_ok.2 ⟨[], hall, rfl⟩⟩

end Recovery

namespace DiedStreaming

def env : Env where
  session := "s"
  traceId := "x"
  fresh n := String.ofList (List.replicate (n + 1) 'e')
  clock n := n
  configured _ := true
  putPayload _ := none
  estimate _ _ := 0
  estimateMessages messages := messages.length
  summarize _ := "summary"
  summarizeCycles _ _ := "summary"

/-- The process died behind the start of its only request. -/
def trace : StoreTrace where
  entries := [.ofEnvelope ⟨1, ⟨"e", "s", some "t", some 1, 0, some 0, some ⟨"p", "m"⟩, none, none,
    "x", "y"⟩, .modelRequestStarted ⟨0, ⟨"p", "m"⟩, 1, 1, 0⟩⟩]
  lastSeq := some 1
  records := []
  summaryPending := false
  pendingCompactionRange := none
  pendingCheckpoint := none

end DiedStreaming

/-- The start that was left open is closed. -/
theorem recoverAbandonedModelRequests_settles_died :
    ∃ trace', recoverAbandonedModelRequests DiedStreaming.env 1 DiedStreaming.trace = .ok trace' ∧
      trace'.entries.length = 3 ∧ validateModelRequestLifecycles "s" trace'.entries = .ok () := by
  have hrecovered : recoverAbandonedModelRequests DiedStreaming.env 1 DiedStreaming.trace =
      .ok (closeRequests DiedStreaming.env 1 DiedStreaming.trace [⟨_, _, rfl⟩]) := rfl
  exact ⟨_, hrecovered, rfl, (recoverAbandonedModelRequests_settles _ 1 hrecovered).2.1⟩

end Rupi
