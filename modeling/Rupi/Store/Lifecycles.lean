import Rupi.Core.Event
import Rupi.Core.Session
import Rupi.Lib.Fallible
import Rupi.Tools.Contract
import Mathlib.Tactic

/-!
Tool lifecycles of a trace, as recovery reads them.

- `scanToolLifecycles`: the calls a trace leaves open, every edge of a lifecycle
  resolved to the event of its request.
- `interruptedToolCalls`: the open calls that were started.
- `LifecycleHistory`: the same walk, keeping the calls the scan forgets.
- `scanLifecycle_cases`: what one entry does to the open calls.
- `Tracked`: the history of an accepted trace agrees with the scan, and the last
  tool event of a call id is the last event of some call.
-/

namespace Rupi

/-- One call the trace has requested and not ended. -/
structure PendingToolLifecycle where
  request : TraceEntry
  requested : ToolRequested
  isRequest : request.envelope.event = .toolRequested requested
  started : Bool
  startedEventId : Option EventId
  deriving DecidableEq

/-- The open calls, under the event of their request. -/
abbrev PendingTools := Std.TreeMap EventId PendingToolLifecycle

/-- The open call an edge belongs to: by its causal parent when it has one, else by a call
id that exactly one open call has. -/
def resolvePendingTool (pending : PendingTools) (entry : TraceEntry) (callId : ToolCallId) :
    Except String (EventId × PendingToolLifecycle) :=
  match entry.envelope.eventMeta.parentEventId with
  | some parent =>
    match pending[parent]? with
    | some call => .ok (parent, call)
    | none =>
      match pending.toList.find? fun p => p.2.startedEventId = some parent with
      | some p => .ok p
      | none => .error "tool lifecycle parent does not identify a pending request"
  | none =>
    match pending.toList.filter fun p => p.2.requested.callId = callId with
    | [] => .error "tool lifecycle has no matching request"
    | [p] => .ok p
    | _ => .error "parentless tool lifecycle is ambiguous for this call id"

def toolCallMetadataMatches (entry : TraceEntry) (callId : ToolCallId) : Bool :=
  entry.envelope.eventMeta.toolCallId.all (· = callId)

def lifecycleInvalid (entry : TraceEntry) (detail : String) : StoreError :=
  .invalid ("session " ++ entry.envelope.eventMeta.sessionId
    ++ " has an invalid tool lifecycle at " ++ entry.envelope.eventMeta.eventId ++ ": " ++ detail
    ++ "; resume requires recovery")

/-- The comparison every edge makes with its request. -/
def PendingToolLifecycle.agrees (call : PendingToolLifecycle) (entry : TraceEntry)
    (callId : ToolCallId) (name : String) : Bool :=
  callId = call.requested.callId && name = call.requested.name
    && toolCallMetadataMatches entry callId
    && call.request.envelope.eventMeta.turnId = entry.envelope.eventMeta.turnId
    && call.request.envelope.eventMeta.modelEpoch = entry.envelope.eventMeta.modelEpoch
    && call.request.envelope.eventMeta.model = entry.envelope.eventMeta.model

/-- The open calls and the requests in their order. -/
structure LifecycleScan where
  pending : PendingTools
  ordered : List EventId

/-- The open call of an edge, or the error of the scan. -/
def LifecycleScan.resolve (s : LifecycleScan) (entry : TraceEntry) (callId : ToolCallId) :
    Except StoreError (EventId × PendingToolLifecycle) :=
  (resolvePendingTool s.pending entry callId).mapError (lifecycleInvalid entry)

/-- One entry of the scan. -/
def scanLifecycle (s : LifecycleScan) (entry : TraceEntry) : Except StoreError LifecycleScan :=
  match hevent : entry.envelope.event with
  | .toolRequested requested =>
    if entry.envelope.eventMeta.turnId = none || requested.callId = ""
        || !toolCallMetadataMatches entry requested.callId then
      .error (lifecycleInvalid entry "tool request has no turn or call identity")
    else if s.pending.contains entry.eventId then
      .error (lifecycleInvalid entry "duplicate tool request event identity")
    else
      .ok { pending := s.pending.insert entry.eventId ⟨entry, requested, hevent, false, none⟩
            ordered := s.ordered ++ [entry.eventId] }
  | .toolStarted started => do
    let (requestId, call) ← s.resolve entry started.callId
    if call.started then
      .error (lifecycleInvalid entry "duplicate tool start")
    else if entry.envelope.eventMeta.parentEventId.any (· ≠ requestId)
        || !call.agrees entry started.callId started.name then
      .error (lifecycleInvalid entry "tool start disagrees with its request")
    else
      .ok { s with
            pending := s.pending.insert requestId
              { call with started := true, startedEventId := some entry.eventId } }
  | .toolCompleted completed => do
    let (requestId, call) ← s.resolve entry completed.callId
    if !call.started then
      .error (lifecycleInvalid entry "tool completed before it started")
    else if !call.agrees entry completed.callId completed.name then
      .error (lifecycleInvalid entry "tool completion disagrees with its request")
    else if completed.state ≠ .succeeded then
      .error (lifecycleInvalid entry "tool completed with a non-success state")
    else
      .ok { s with pending := s.pending.erase requestId }
  | .toolFailed failed => do
    let (requestId, call) ← s.resolve entry failed.callId
    if !call.agrees entry failed.callId failed.name then
      .error (lifecycleInvalid entry "tool failure disagrees with its request")
    else
      .ok { s with pending := s.pending.erase requestId }
  | .toolUnknown unknown => do
    let (requestId, call) ← s.resolve entry unknown.callId
    if unknown.mutating = call.requested.readOnly
        || !call.agrees entry unknown.callId unknown.name then
      .error (lifecycleInvalid entry "tool unknown result disagrees with its request")
    else
      .ok { s with pending := s.pending.erase requestId }
  | _ => .ok s

/-- The open calls in the order of their requests; an id is taken once. -/
def takeOrdered (pending : PendingTools) : List EventId → List PendingToolLifecycle
  | [] => []
  | id :: ids =>
    match pending[id]? with
    | some call => call :: takeOrdered (pending.erase id) ids
    | none => takeOrdered pending ids

def LifecycleScan.start : LifecycleScan := { pending := ∅, ordered := [] }

/-- The calls a trace leaves open, in the order of their requests. -/
def scanToolLifecycles (entries : List TraceEntry) :
    Except StoreError (List PendingToolLifecycle) := do
  let s ← Fallible.scan scanLifecycle LifecycleScan.start entries
  return takeOrdered s.pending s.ordered

/-- A call whose execution began and whose result is not on record. -/
structure InterruptedToolCall where
  request : ToolRequest
  state : ToolExecutionState
  readOnly : Bool
  turnId : Option TurnId
  epoch : Option Nat
  model : Option ModelRef
  requestEventId : Option EventId
  startedEventId : Option EventId
  deriving DecidableEq, Repr

def PendingToolLifecycle.interrupted (call : PendingToolLifecycle) : InterruptedToolCall where
  request :=
    { callId := call.requested.callId
      name := call.requested.name
      arguments := call.requested.arguments }
  state := .started
  readOnly := call.requested.readOnly
  turnId := call.request.envelope.eventMeta.turnId
  epoch := call.request.envelope.eventMeta.modelEpoch
  model := call.request.envelope.eventMeta.model
  requestEventId := some call.request.eventId
  startedEventId := call.startedEventId

/-- The open calls, all of which have to be started. -/
def interruptAll : List PendingToolLifecycle → Except StoreError (List InterruptedToolCall)
  | [] => .ok []
  | call :: calls =>
    if !call.started then
      .error (.invalid ("durable tool request " ++ call.requested.callId
        ++ " has no ToolStarted; resume requires recovery"))
    else do
      let interrupted ← interruptAll calls
      return call.interrupted :: interrupted

def interruptedToolCalls (entries : List TraceEntry) :
    Except StoreError (List InterruptedToolCall) := do
  let pending ← scanToolLifecycles entries
  interruptAll pending

/-! ### What one entry does -/

/-- The call id of a tool event. -/
def AgentEvent.toolCall : AgentEvent → Option ToolCallId
  | .toolRequested e => some e.callId
  | .toolStarted e => some e.callId
  | .toolCompleted e => some e.callId
  | .toolFailed e => some e.callId
  | .toolUnknown e => some e.callId
  | _ => none

/-- The state a tool event leaves its call in. -/
def AgentEvent.toolState : AgentEvent → Option ToolExecutionState
  | .toolRequested _ => some .requested
  | .toolStarted _ => some .started
  | .toolCompleted e => some e.state
  | .toolFailed _ => some .failed
  | .toolUnknown _ => some .unknown
  | _ => none

/-- The events that end a call, and what an unknown outcome has to repeat. -/
def AgentEvent.endsCall (requested : ToolRequested) : AgentEvent → Prop
  | .toolCompleted e => e.state = .succeeded
  | .toolFailed _ => True
  | .toolUnknown e => e.mutating = !requested.readOnly
  | _ => False

lemma getElem?_of_resolvePendingTool {pending : PendingTools} {entry : TraceEntry}
    {callId : ToolCallId} {id : EventId} {call : PendingToolLifecycle}
    (h : resolvePendingTool pending entry callId = .ok (id, call)) :
    pending[id]? = some call := by
  unfold resolvePendingTool at h
  split at h
  · next parent _ =>
    split at h
    · next found hfound =>
      cases h
      exact hfound
    · split at h
      · next p hp =>
        cases h
        exact Std.TreeMap.mem_toList_iff_getElem?_eq_some.mp (List.mem_of_find?_eq_some hp)
      · cases h
  · split at h
    · cases h
    · next p hp =>
      cases h
      have hmem : (id, call) ∈ pending.toList.filter fun p => p.2.requested.callId = callId := by
        rw [hp]
        exact List.mem_singleton_self _
      exact Std.TreeMap.mem_toList_iff_getElem?_eq_some.mp (List.mem_filter.mp hmem).1
    · cases h

lemma LifecycleScan.getElem?_of_resolve {s : LifecycleScan} {entry : TraceEntry}
    {callId : ToolCallId} {id : EventId} {call : PendingToolLifecycle}
    (h : s.resolve entry callId = .ok (id, call)) : s.pending[id]? = some call := by
  unfold LifecycleScan.resolve at h
  cases hresolve : resolvePendingTool s.pending entry callId with
  | error detail =>
    rw [hresolve] at h
    cases h
  | ok p =>
    rw [hresolve] at h
    cases h
    exact getElem?_of_resolvePendingTool hresolve

lemma PendingToolLifecycle.callId_of_agrees {call : PendingToolLifecycle} {entry : TraceEntry}
    {callId : ToolCallId} {name : String} (h : call.agrees entry callId name = true) :
    callId = call.requested.callId := by
  simp only [PendingToolLifecycle.agrees, Bool.and_eq_true, decide_eq_true_eq] at h
  exact h.1.1.1.1.1

/-- The call a start leaves open. -/
def PendingToolLifecycle.begun (call : PendingToolLifecycle) (entry : TraceEntry) :
    PendingToolLifecycle :=
  { call with started := true, startedEventId := some entry.eventId }

/-- What one accepted entry does to the open calls. -/
inductive LifecycleStep (s : LifecycleScan) (entry : TraceEntry) : LifecycleScan → Prop
  /-- a request opens a call -/
  | opened (requested : ToolRequested) (hevent : entry.envelope.event = .toolRequested requested)
      (hfree : s.pending[entry.eventId]? = none) :
      LifecycleStep s entry
        { pending := s.pending.insert entry.eventId ⟨entry, requested, hevent, false, none⟩
          ordered := s.ordered ++ [entry.eventId] }
  /-- a start marks the call it belongs to -/
  | began (e : ToolStarted) (id : EventId) (call : PendingToolLifecycle)
      (hevent : entry.envelope.event = .toolStarted e)
      (hcall : s.resolve entry e.callId = .ok (id, call))
      (hopen : call.started = false) (hid : e.callId = call.requested.callId) :
      LifecycleStep s entry { s with pending := s.pending.insert id (call.begun entry) }
  /-- an outcome closes the call it belongs to -/
  | closed (callId : ToolCallId) (id : EventId) (call : PendingToolLifecycle)
      (hends : entry.envelope.event.endsCall call.requested)
      (htool : entry.envelope.event.toolCall = some callId)
      (hcall : s.resolve entry callId = .ok (id, call)) (hid : callId = call.requested.callId) :
      LifecycleStep s entry { s with pending := s.pending.erase id }
  /-- any other entry passes -/
  | passed (htool : entry.envelope.event.toolCall = none) : LifecycleStep s entry s

/-- **What one entry does.** -/
theorem scanLifecycle_cases {s s' : LifecycleScan} {entry : TraceEntry}
    (h : scanLifecycle s entry = .ok s') : LifecycleStep s entry s' := by
  unfold scanLifecycle at h
  split at h
  · next requested hevent =>
    split_ifs at h with hidentity hcontains
    cases h
    refine .opened requested hevent ?_
    simpa using hcontains
  · next e hevent =>
    obtain ⟨⟨id, call⟩, hcall, h⟩ := Fallible.bind_eq_ok.mp h
    dsimp only at h
    split_ifs at h with hstarted hdisagrees
    cases h
    simp only [Bool.or_eq_true, Bool.not_eq_true', not_or, Bool.not_eq_false] at hdisagrees
    exact .began e id call hevent hcall (by simpa using hstarted)
      (PendingToolLifecycle.callId_of_agrees hdisagrees.2)
  · next e hevent =>
    obtain ⟨⟨id, call⟩, hcall, h⟩ := Fallible.bind_eq_ok.mp h
    dsimp only at h
    split_ifs at h with hstarted hdisagrees hstate
    cases h
    refine .closed e.callId id call ?_ (by rw [hevent]; rfl) hcall
      (PendingToolLifecycle.callId_of_agrees (by simpa using hdisagrees))
    rw [hevent]
    exact not_not.mp hstate
  · next e hevent =>
    obtain ⟨⟨id, call⟩, hcall, h⟩ := Fallible.bind_eq_ok.mp h
    dsimp only at h
    split_ifs at h with hdisagrees
    cases h
    refine .closed e.callId id call ?_ (by rw [hevent]; rfl) hcall
      (PendingToolLifecycle.callId_of_agrees (by simpa using hdisagrees))
    rw [hevent]
    trivial
  · next e hevent =>
    obtain ⟨⟨id, call⟩, hcall, h⟩ := Fallible.bind_eq_ok.mp h
    dsimp only at h
    split_ifs at h with hdisagrees
    cases h
    simp only [Bool.or_eq_true, Bool.not_eq_true', decide_eq_true_eq, not_or,
      Bool.not_eq_false] at hdisagrees
    refine .closed e.callId id call ?_ (by rw [hevent]; rfl) hcall
      (PendingToolLifecycle.callId_of_agrees hdisagrees.2)
    rw [hevent]
    exact Bool.eq_not.mpr hdisagrees.1
  · next hevent =>
    cases h
    refine .passed ?_
    cases hkind : entry.envelope.event <;> simp_all [AgentEvent.toolCall]

/-! ### The calls a scan forgets -/

/-- One call of a trace with the last event of its lifecycle. -/
structure Lifecycle where
  call : PendingToolLifecycle
  last : TraceEntry
  deriving DecidableEq

def Lifecycle.callId (l : Lifecycle) : ToolCallId := l.call.requested.callId

/-- The calls of a trace: those still open, under the event of their request, and those
that have ended. -/
structure LifecycleHistory where
  live : Std.TreeMap EventId Lifecycle
  ended : List Lifecycle

namespace LifecycleHistory

/-- Every call of the trace. -/
def calls (h : LifecycleHistory) : List Lifecycle := h.live.toList.map Prod.snd ++ h.ended

/-- One entry of the history, beside the scan's own step. -/
def follow (s : LifecycleScan) (h : LifecycleHistory) (entry : TraceEntry) : LifecycleHistory :=
  match hevent : entry.envelope.event with
  | .toolRequested requested =>
    { h with live := h.live.insert entry.eventId ⟨⟨entry, requested, hevent, false, none⟩, entry⟩ }
  | .toolStarted e =>
    match s.resolve entry e.callId with
    | .ok (id, call) => { h with live := h.live.insert id ⟨call.begun entry, entry⟩ }
    | .error _ => h
  | event =>
    match event.toolCall with
    | none => h
    | some callId =>
      match s.resolve entry callId with
      | .ok (id, call) => { live := h.live.erase id, ended := ⟨call, entry⟩ :: h.ended }
      | .error _ => h

lemma mem_calls {h : LifecycleHistory} {l : Lifecycle} :
    l ∈ h.calls ↔ (∃ id : EventId, h.live[id]? = some l) ∨ l ∈ h.ended := by
  rw [calls, List.mem_append, List.mem_map]
  refine or_congr_left ⟨?_, ?_⟩
  · rintro ⟨⟨id, _⟩, hmem, rfl⟩
    exact ⟨id, Std.TreeMap.mem_toList_iff_getElem?_eq_some.mp hmem⟩
  · rintro ⟨id, hid⟩
    exact ⟨(id, l), Std.TreeMap.mem_toList_iff_getElem?_eq_some.mpr hid, rfl⟩

end LifecycleHistory

/-- The last tool event of a call id. -/
def lastToolEvent (callId : ToolCallId) (entries : List TraceEntry) : Option TraceEntry :=
  (entries.filter fun entry => entry.envelope.event.toolCall = some callId).getLast?

lemma lastToolEvent_append (callId : ToolCallId) (entries : List TraceEntry) (entry : TraceEntry) :
    lastToolEvent callId (entries ++ [entry]) =
      if entry.envelope.event.toolCall = some callId then some entry
      else lastToolEvent callId entries := by
  by_cases h : entry.envelope.event.toolCall = some callId <;>
    simp [lastToolEvent, h]

/-- What the last event of a call says about it. -/
structure Lifecycle.Consistent (l : Lifecycle) : Prop where
  call : l.last.envelope.event.toolCall = some l.callId
  succeeded : ∀ e, l.last.envelope.event = .toolCompleted e → e.state = .succeeded
  unknown : ∀ e, l.last.envelope.event = .toolUnknown e → e.mutating = !l.call.requested.readOnly

/-- An open call is requested or started, as its last event says. -/
def Lifecycle.Open (l : Lifecycle) : Prop :=
  if l.call.started then
    l.last.envelope.event.toolState = some .started ∧ l.call.startedEventId = some l.last.eventId
  else l.last.envelope.event.toolState = some .requested

/-- An ended call has succeeded, failed, or is unknown. -/
def Lifecycle.Ended (l : Lifecycle) : Prop :=
  l.last.envelope.event.toolState ∈
    [some ToolExecutionState.succeeded, some .failed, some .unknown]

/-- A history that belongs to a trace and to the scan of it. -/
structure Tracked (entries : List TraceEntry) (s : LifecycleScan) (h : LifecycleHistory) :
    Prop where
  agree : ∀ id : EventId, s.pending[id]? = (h.live[id]?).map Lifecycle.call
  keyed : ∀ (id : EventId) l, h.live[id]? = some l → l.call.request.eventId = id
  ordered : ∀ (id : EventId) l, h.live[id]? = some l → id ∈ s.ordered
  consistent : ∀ l ∈ h.calls, l.Consistent
  live : ∀ (id : EventId) l, h.live[id]? = some l → l.Open
  ended : ∀ l ∈ h.ended, l.Ended
  last : ∀ callId entry, lastToolEvent callId entries = some entry → ∃ l ∈ h.calls, l.last = entry

lemma LifecycleHistory.mem_calls_insert {h : LifecycleHistory} {id : EventId} {l l' : Lifecycle}
    (hmem : l' ∈ ({ h with live := h.live.insert id l } : LifecycleHistory).calls) :
    l' = l ∨ l' ∈ h.calls := by
  rcases mem_calls.mp hmem with ⟨other, hother⟩ | hended
  · simp only [Std.TreeMap.getElem?_insert, Std.LawfulEqCmp.compare_eq_iff_eq] at hother
    split_ifs at hother with heq
    · exact Or.inl (Option.some.inj hother).symm
    · exact Or.inr (mem_calls.mpr (Or.inl ⟨other, hother⟩))
  · exact Or.inr (mem_calls.mpr (Or.inr hended))

lemma LifecycleHistory.mem_calls_erase {h : LifecycleHistory} {id : EventId} {l l' : Lifecycle}
    (hmem : l' ∈ ({ live := h.live.erase id, ended := l :: h.ended } : LifecycleHistory).calls) :
    l' = l ∨ l' ∈ h.calls := by
  rcases mem_calls.mp hmem with ⟨other, hother⟩ | hended
  · simp only [Std.TreeMap.getElem?_erase, Std.LawfulEqCmp.compare_eq_iff_eq] at hother
    split_ifs at hother with heq
    exact Or.inr (mem_calls.mpr (Or.inl ⟨other, hother⟩))
  · rcases List.mem_cons.mp hended with rfl | hended
    · exact Or.inl rfl
    · exact Or.inr (mem_calls.mpr (Or.inr hended))

namespace Tracked

variable {entries : List TraceEntry} {s : LifecycleScan} {h : LifecycleHistory}

lemma start : Tracked [] LifecycleScan.start { live := ∅, ended := [] } where
  agree id := by simp [LifecycleScan.start]
  keyed id l hl := by simp at hl
  ordered id l hl := by simp at hl
  consistent l hl := by
    rcases LifecycleHistory.mem_calls.mp hl with ⟨id, hid⟩ | hl
    · simp at hid
    · cases hl
  live id l hl := by simp at hl
  ended l hl := by cases hl
  last callId entry hlast := by simp [lastToolEvent] at hlast

/-- An entry of one call leaves the last events of the other calls where they were. -/
lemma last_append (ht : Tracked entries s h) {h' : LifecycleHistory} {l : Lifecycle}
    (hl : l ∈ h'.calls) (hconsistent : l.Consistent)
    (hkept : ∀ l' ∈ h.calls, l'.callId ≠ l.callId → l' ∈ h'.calls) {callId : ToolCallId}
    {entry : TraceEntry} (hlast : lastToolEvent callId (entries ++ [l.last]) = some entry) :
    ∃ l ∈ h'.calls, l.last = entry := by
  rw [lastToolEvent_append] at hlast
  split_ifs at hlast with hcall
  · exact ⟨l, hl, Option.some.inj hlast⟩
  · obtain ⟨l', hl', rfl⟩ := ht.last callId entry hlast
    refine ⟨l', hkept l' hl' fun heq => hcall ?_, rfl⟩
    have hsome : l'.last.envelope.event.toolCall = some callId := by
      simpa using (List.mem_filter.mp (List.mem_of_getLast? hlast)).2
    rw [hconsistent.call, ← heq, ← (ht.consistent l' hl').call, hsome]

/-- An open call is added, or takes the place of the same call before its start. -/
lemma insert (ht : Tracked entries s h) {id : EventId} {l : Lifecycle} {ids : List EventId}
    (hold : ∀ old, h.live[id]? = some old → old.callId = l.callId)
    (hkey : l.call.request.eventId = id) (hopen : l.Open) (hconsistent : l.Consistent)
    (hid : id ∈ ids) (hids : s.ordered ⊆ ids) :
    Tracked (entries ++ [l.last]) { pending := s.pending.insert id l.call, ordered := ids }
      { h with live := h.live.insert id l } where
  agree other := by
    simp only [Std.TreeMap.getElem?_insert, Std.LawfulEqCmp.compare_eq_iff_eq]
    split_ifs with heq
    · rfl
    · exact ht.agree other
  keyed other l' hl' := by
    simp only [Std.TreeMap.getElem?_insert, Std.LawfulEqCmp.compare_eq_iff_eq] at hl'
    split_ifs at hl' with heq
    · rw [← Option.some.inj hl', hkey, heq]
    · exact ht.keyed other l' hl'
  ordered other l' hl' := by
    simp only [Std.TreeMap.getElem?_insert, Std.LawfulEqCmp.compare_eq_iff_eq] at hl'
    split_ifs at hl' with heq
    · exact heq ▸ hid
    · exact hids (ht.ordered other l' hl')
  consistent l' hl' := by
    rcases LifecycleHistory.mem_calls_insert hl' with rfl | hl'
    · exact hconsistent
    · exact ht.consistent l' hl'
  live other l' hl' := by
    simp only [Std.TreeMap.getElem?_insert, Std.LawfulEqCmp.compare_eq_iff_eq] at hl'
    split_ifs at hl' with heq
    · exact Option.some.inj hl' ▸ hopen
    · exact ht.live other l' hl'
  ended l' hl' := ht.ended l' hl'
  last callId entry hlast := by
    have hself : (h.live.insert id l)[id]? = some l := by simp
    refine ht.last_append (LifecycleHistory.mem_calls.mpr (Or.inl ⟨id, hself⟩)) hconsistent ?_ hlast
    intro l' hl' hne
    rcases LifecycleHistory.mem_calls.mp hl' with ⟨other, hother⟩ | hended
    · refine LifecycleHistory.mem_calls.mpr (Or.inl ⟨other, ?_⟩)
      simp only [Std.TreeMap.getElem?_insert, Std.LawfulEqCmp.compare_eq_iff_eq]
      rw [if_neg fun heq : id = other => hne (hold l' (heq ▸ hother)), hother]
    · exact LifecycleHistory.mem_calls.mpr (Or.inr hended)

/-- An open call ends. -/
lemma erase (ht : Tracked entries s h) {id : EventId} {l : Lifecycle}
    (hold : ∀ old, h.live[id]? = some old → old.callId = l.callId)
    (hended : l.Ended) (hconsistent : l.Consistent) :
    Tracked (entries ++ [l.last]) { s with pending := s.pending.erase id }
      { live := h.live.erase id, ended := l :: h.ended } where
  agree other := by
    simp only [Std.TreeMap.getElem?_erase, Std.LawfulEqCmp.compare_eq_iff_eq]
    split_ifs with heq
    · rfl
    · exact ht.agree other
  keyed other l' hl' := by
    simp only [Std.TreeMap.getElem?_erase, Std.LawfulEqCmp.compare_eq_iff_eq] at hl'
    split_ifs at hl'
    exact ht.keyed other l' hl'
  ordered other l' hl' := by
    simp only [Std.TreeMap.getElem?_erase, Std.LawfulEqCmp.compare_eq_iff_eq] at hl'
    split_ifs at hl'
    exact ht.ordered other l' hl'
  consistent l' hl' := by
    rcases LifecycleHistory.mem_calls_erase hl' with rfl | hl'
    · exact hconsistent
    · exact ht.consistent l' hl'
  live other l' hl' := by
    simp only [Std.TreeMap.getElem?_erase, Std.LawfulEqCmp.compare_eq_iff_eq] at hl'
    split_ifs at hl'
    exact ht.live other l' hl'
  ended l' hl' := by
    rcases List.mem_cons.mp hl' with rfl | hl'
    · exact hended
    · exact ht.ended l' hl'
  last callId entry hlast := by
    refine ht.last_append (LifecycleHistory.mem_calls.mpr (Or.inr List.mem_cons_self)) hconsistent
      ?_ hlast
    intro l' hl' hne
    rcases LifecycleHistory.mem_calls.mp hl' with ⟨other, hother⟩ | hold'
    · refine LifecycleHistory.mem_calls.mpr (Or.inl ⟨other, ?_⟩)
      simp only [Std.TreeMap.getElem?_erase, Std.LawfulEqCmp.compare_eq_iff_eq]
      rw [if_neg fun heq : id = other => hne (hold l' (heq ▸ hother)), hother]
    · exact LifecycleHistory.mem_calls.mpr (Or.inr (List.mem_cons_of_mem _ hold'))

/-- An entry that is no tool event. -/
lemma pass (ht : Tracked entries s h) {entry : TraceEntry}
    (htool : entry.envelope.event.toolCall = none) : Tracked (entries ++ [entry]) s h where
  agree := ht.agree
  keyed := ht.keyed
  ordered := ht.ordered
  consistent := ht.consistent
  live := ht.live
  ended := ht.ended
  last callId other hlast := by
    rw [lastToolEvent_append, htool, if_neg (by simp)] at hlast
    exact ht.last callId other hlast

/-- **A history stays with its trace**, one accepted entry at a time. -/
theorem step (ht : Tracked entries s h) {entry : TraceEntry} {s' : LifecycleScan}
    (hscan : scanLifecycle s entry = .ok s') :
    Tracked (entries ++ [entry]) s' (h.follow s entry) := by
  have hfound : ∀ {id : EventId} {call : PendingToolLifecycle} {callId : ToolCallId},
      s.resolve entry callId = .ok (id, call) →
        ∃ old, h.live[id]? = some old ∧ old.call = call := by
    intro id call callId hcall
    have hagree := ht.agree id
    rw [LifecycleScan.getElem?_of_resolve hcall] at hagree
    exact Option.map_eq_some_iff.mp hagree.symm
  cases scanLifecycle_cases hscan with
  | opened requested hevent hfree =>
    have hfollow : h.follow s entry = { h with
        live := h.live.insert entry.eventId
          ⟨⟨entry, requested, hevent, false, none⟩, entry⟩ } := by
      unfold LifecycleHistory.follow
      split
      · next requested' hevent' =>
        obtain rfl := AgentEvent.toolRequested.inj (hevent.symm.trans hevent')
        rfl
      · simp_all
      · simp_all
    rw [hfollow]
    have hnone : h.live[entry.eventId]? = none := by
      simpa [hfree] using (ht.agree entry.eventId).symm
    refine ht.insert (l := ⟨⟨entry, requested, hevent, false, none⟩, entry⟩) (by simp [hnone]) rfl
      ?_ ⟨?_, ?_, ?_⟩ (by simp) (by simp)
    · simp [Lifecycle.Open, hevent, AgentEvent.toolState]
    · simp [hevent, AgentEvent.toolCall, Lifecycle.callId]
    · simp [hevent]
    · simp [hevent]
  | began e id call hevent hcall hopen hid =>
    obtain ⟨old, hold, rfl⟩ := hfound hcall
    have hfollow : h.follow s entry =
        { h with live := h.live.insert id ⟨old.call.begun entry, entry⟩ } := by
      unfold LifecycleHistory.follow
      split <;> simp_all
    rw [hfollow]
    refine ht.insert (l := ⟨old.call.begun entry, entry⟩) ?_ (ht.keyed id old hold) ?_
      ⟨?_, ?_, ?_⟩
      (ht.ordered id old hold) (fun _ h => h)
    · intro other hother
      obtain rfl := Option.some.inj (hold.symm.trans hother)
      rfl
    · simp [Lifecycle.Open, PendingToolLifecycle.begun, hevent, AgentEvent.toolState]
    · simp [hevent, AgentEvent.toolCall, Lifecycle.callId, PendingToolLifecycle.begun, hid]
    · simp [hevent]
    · simp [hevent]
  | closed callId id call hends htool hcall hid =>
    obtain ⟨old, hold, rfl⟩ := hfound hcall
    have hfollow : h.follow s entry =
        { live := h.live.erase id, ended := ⟨old.call, entry⟩ :: h.ended } := by
      unfold LifecycleHistory.follow
      split
      · next hevent => simp [hevent, AgentEvent.endsCall] at hends
      · next hevent => simp [hevent, AgentEvent.endsCall] at hends
      · rw [htool]
        dsimp only
        rw [hcall]
    rw [hfollow]
    refine ht.erase (l := ⟨old.call, entry⟩) ?_ ?_ ⟨?_, ?_, ?_⟩
    · intro other hother
      obtain rfl := Option.some.inj (hold.symm.trans hother)
      rfl
    · cases hevent : entry.envelope.event <;>
        simp_all [Lifecycle.Ended, AgentEvent.endsCall, AgentEvent.toolState]
    · rw [htool, hid]
      rfl
    · intro e hevent
      rw [hevent] at hends
      exact hends
    · intro e hevent
      rw [hevent] at hends
      exact hends
  | passed htool =>
    have hfollow : h.follow s entry = h := by
      unfold LifecycleHistory.follow
      split
      · next hevent => simp [hevent, AgentEvent.toolCall] at htool
      · next hevent => simp [hevent, AgentEvent.toolCall] at htool
      · rw [htool]
    rw [hfollow]
    exact ht.pass htool

end Tracked

/-- The history of a trace, read along with the scan. -/
def lifecycleHistory (entries : List TraceEntry) :
    Except StoreError (LifecycleScan × LifecycleHistory) :=
  Fallible.scan
    (fun (s : LifecycleScan × LifecycleHistory) entry => do
      let scan ← scanLifecycle s.1 entry
      return (scan, s.2.follow s.1 entry))
    (LifecycleScan.start, { live := ∅, ended := [] }) entries

/-- The calls of a trace, each with its last event; none for a trace the scan rejects. -/
def toolLifecycles (entries : List TraceEntry) : List Lifecycle :=
  match lifecycleHistory entries with
  | .ok (_, history) => history.calls
  | .error _ => []

/-- Along a trace the scan accepts, its history is tracked. -/
lemma tracked_of_scan {entries : List TraceEntry} {s : LifecycleScan}
    (hscan : Fallible.scan scanLifecycle LifecycleScan.start entries = .ok s) :
    ∃ h, lifecycleHistory entries = .ok (s, h) ∧ Tracked entries s h := by
  induction entries using List.reverseRecOn generalizing s with
  | nil =>
    obtain rfl := Except.ok.inj hscan
    exact ⟨_, rfl, Tracked.start⟩
  | append_singleton entries entry ih =>
    obtain ⟨m, hm, hlast⟩ := Fallible.scan_append_eq_ok.mp hscan
    obtain ⟨h, hhistory, ht⟩ := ih hm
    obtain ⟨s', hstep, hnil⟩ := Fallible.bind_eq_ok.mp hlast
    obtain rfl := Except.ok.inj hnil
    refine ⟨h.follow m entry, ?_, ht.step hstep⟩
    rw [lifecycleHistory, Fallible.scan_append_eq_ok]
    refine ⟨(m, h), hhistory, ?_⟩
    rw [Fallible.scan_cons, hstep]
    rfl

/-- **The calls of an accepted trace**, at every prefix of it. -/
theorem exists_tracked {entries before : List TraceEntry} {pending : List PendingToolLifecycle}
    (haccepted : scanToolLifecycles entries = .ok pending) (hbefore : before <+: entries) :
    ∃ s h, Tracked before s h ∧ toolLifecycles before = h.calls ∧
      Fallible.scan scanLifecycle LifecycleScan.start before = .ok s := by
  obtain ⟨rest, rfl⟩ := hbefore
  obtain ⟨t, hscan, -⟩ := Fallible.bind_eq_ok.mp haccepted
  obtain ⟨s, hs, -⟩ := Fallible.scan_append_eq_ok.mp hscan
  obtain ⟨h, hhistory, ht⟩ := tracked_of_scan hs
  exact ⟨s, h, ht, by rw [toolLifecycles, hhistory], hs⟩

/-! ### What recovery returns -/

lemma mem_takeOrdered {pending : PendingTools} {ids : List EventId} {call : PendingToolLifecycle} :
    call ∈ takeOrdered pending ids ↔ ∃ id ∈ ids, pending[id]? = some call := by
  induction ids generalizing pending with
  | nil => simp [takeOrdered]
  | cons id ids ih =>
    rw [takeOrdered]
    cases hid : pending[id]? with
    | none =>
      rw [ih]
      simp [hid]
    | some found =>
      rw [List.mem_cons, ih]
      constructor
      · rintro (rfl | ⟨other, hmem, hother⟩)
        · exact ⟨id, List.mem_cons_self, hid⟩
        · simp only [Std.TreeMap.getElem?_erase, Std.LawfulEqCmp.compare_eq_iff_eq] at hother
          split_ifs at hother
          exact ⟨other, List.mem_cons_of_mem _ hmem, hother⟩
      · rintro ⟨other, hmem, hother⟩
        by_cases heq : id = other
        · rw [← heq, hid] at hother
          exact Or.inl (Option.some.inj hother).symm
        · refine Or.inr ⟨other, (List.mem_cons.mp hmem).resolve_left (Ne.symm heq), ?_⟩
          simp only [Std.TreeMap.getElem?_erase, Std.LawfulEqCmp.compare_eq_iff_eq]
          rw [if_neg heq, hother]

lemma interruptAll_eq_ok {calls : List PendingToolLifecycle} {interrupted : List InterruptedToolCall}
    (h : interruptAll calls = .ok interrupted) :
    interrupted = calls.map PendingToolLifecycle.interrupted ∧
      ∀ call ∈ calls, call.started = true := by
  induction calls generalizing interrupted with
  | nil =>
    obtain rfl := Except.ok.inj h
    simp
  | cons call calls ih =>
    rw [interruptAll] at h
    split_ifs at h with hstarted
    obtain ⟨rest, hrest, hout⟩ := Fallible.bind_eq_ok.mp h
    obtain rfl := Except.ok.inj hout
    obtain ⟨rfl, hall⟩ := ih hrest
    refine ⟨rfl, fun other hother => ?_⟩
    rcases List.mem_cons.mp hother with rfl | hother
    · simpa using hstarted
    · exact hall other hother

/-- **What recovery finds interrupted** are the calls whose last event is their start. -/
theorem mem_interruptedToolCalls {entries : List TraceEntry} {calls : List InterruptedToolCall}
    (h : interruptedToolCalls entries = .ok calls) {c : InterruptedToolCall} :
    c ∈ calls ↔ ∃ l ∈ toolLifecycles entries,
      l.last.envelope.event.toolState = some .started ∧ l.call.interrupted = c := by
  obtain ⟨pending, hpending, hall⟩ := Fallible.bind_eq_ok.mp h
  obtain ⟨rfl, hstarted⟩ := interruptAll_eq_ok hall
  obtain ⟨s, history, ht, hcalls, hscan⟩ := exists_tracked hpending List.prefix_rfl
  obtain ⟨s', hscan', htake⟩ := Fallible.bind_eq_ok.mp hpending
  obtain rfl := Except.ok.inj (hscan.symm.trans hscan')
  obtain rfl := Except.ok.inj htake
  rw [hcalls, List.mem_map]
  constructor
  · rintro ⟨call, hcall, rfl⟩
    obtain ⟨id, -, hid⟩ := mem_takeOrdered.mp hcall
    rw [ht.agree, Option.map_eq_some_iff] at hid
    obtain ⟨l, hl, rfl⟩ := hid
    refine ⟨l, LifecycleHistory.mem_calls.mpr (Or.inl ⟨id, hl⟩), ?_, rfl⟩
    have hopen := ht.live id l hl
    rw [Lifecycle.Open, if_pos (hstarted _ hcall)] at hopen
    exact hopen.1
  · rintro ⟨l, hl, hlast, rfl⟩
    refine ⟨l.call, mem_takeOrdered.mpr ?_, rfl⟩
    rcases LifecycleHistory.mem_calls.mp hl with ⟨id, hid⟩ | hended
    · exact ⟨id, ht.ordered id l hid, by rw [ht.agree, hid]; rfl⟩
    · have hnot := ht.ended l hended
      rw [Lifecycle.Ended, hlast] at hnot
      simp at hnot

end Rupi
