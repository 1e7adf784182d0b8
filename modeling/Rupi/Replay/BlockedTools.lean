import Rupi.Store.Lifecycles

/-!
Branching from the past: which tool calls a dry plan blocks.

- `planHistoricalBranch`: the plan at a historical event, less its context.
- `toolReplayStates`: the last state of every call id, by a fold over the entries.
- `getElem?_replayStates`: that state is the one of the last tool event of the id.
- `ReplayBlocks`: a plan blocks what the store holds to be uncertain.
- `replay_blocks_iff`: it does so exactly when the uncertain requests of the prefix
  still have their call ids to themselves.
-/

namespace Rupi

/-- Selects a historical event by its address. -/
inductive HistoricalTarget where
  | eventId (id : EventId)
  | seq (value : EventSeq)
  deriving DecidableEq, Repr

def HistoricalTarget.matchesEntry (target : HistoricalTarget) (entry : TraceEntry) : Bool :=
  match target with
  | .eventId id => entry.envelope.eventMeta.eventId = id
  | .seq value => entry.envelope.eventMeta.seq = some value

/-- Durable address of one historical event. -/
structure HistoricalEventRef where
  sessionId : SessionId
  eventId : EventId
  seq : Option EventSeq
  deriving DecidableEq, Repr

def HistoricalEventRef.fromEntry (entry : TraceEntry) : HistoricalEventRef where
  sessionId := entry.envelope.eventMeta.sessionId
  eventId := entry.envelope.eventMeta.eventId
  seq := entry.envelope.eventMeta.seq

inductive ReplayError where
  | historicalTargetNotFound (target : HistoricalTarget)
  deriving DecidableEq, Repr

/-! ### Entries up to a target -/

/-- Entries without a sequence come last. -/
def replayOrder (entry : TraceEntry) : Nat := entry.envelope.eventMeta.seq.getD (2 ^ 64 - 1)

/-- By sequence; entries of one sequence keep their order. -/
def orderedEntries (entries : List TraceEntry) : List TraceEntry :=
  entries.insertionSort fun a b => replayOrder a ≤ replayOrder b

def takeUntil (target : HistoricalTarget) : List TraceEntry → Option (List TraceEntry)
  | [] => none
  | entry :: rest =>
    if target.matchesEntry entry then some [entry]
    else (takeUntil target rest).map (entry :: ·)

def applyUntil (ordered : List TraceEntry) (limit : Option HistoricalTarget) :
    Except ReplayError (List TraceEntry) :=
  match limit with
  | none => .ok ordered
  | some target =>
    match takeUntil target ordered with
    | some bounded => .ok bounded
    | none => .error (.historicalTargetNotFound target)

lemma takeUntil_ne_nil {target : HistoricalTarget} {ordered bounded : List TraceEntry}
    (h : takeUntil target ordered = some bounded) : bounded ≠ [] := by
  cases ordered with
  | nil => cases h
  | cons entry rest =>
    rw [takeUntil] at h
    split_ifs at h with hmatch
    · obtain rfl := Option.some.inj h
      exact List.cons_ne_nil _ _
    · obtain ⟨tail, -, rfl⟩ := Option.map_eq_some_iff.mp h
      exact List.cons_ne_nil _ _

lemma applyUntil_ne_nil {ordered bounded : List TraceEntry} {target : HistoricalTarget}
    (h : applyUntil ordered (some target) = .ok bounded) : bounded ≠ [] := by
  rw [applyUntil] at h
  split at h
  · next found hfound =>
    obtain rfl := Except.ok.inj h
    exact takeUntil_ne_nil hfound
  · cases h

/-! ### States of tool calls -/

/-- What a branch may do with a historical tool call. -/
inductive HistoricalToolDecision where
  | reuseCommittedResult | safeToReplayReadOnly | reconcileBeforeReplay | requestedOnly
  deriving DecidableEq, Repr

/-- Last observed lifecycle state for one historical tool call. -/
structure ToolReplayState where
  callId : ToolCallId
  name : String
  state : ToolExecutionState
  readOnly : Bool
  mutatingUnknown : Bool
  reference : HistoricalEventRef
  decision : HistoricalToolDecision
  deriving DecidableEq, Repr

abbrev ReplayStates := Std.TreeMap ToolCallId ToolReplayState

def replayDecision (state : ToolExecutionState) (readOnly : Bool) : HistoricalToolDecision :=
  match state with
  | .succeeded | .failed => .reuseCommittedResult
  | .requested => if readOnly then .safeToReplayReadOnly else .requestedOnly
  | .started | .unknown => if readOnly then .safeToReplayReadOnly else .reconcileBeforeReplay

def isUncertain : ToolExecutionState → Bool
  | .started | .unknown => true
  | .requested | .succeeded | .failed => false

def updateToolState (states : ReplayStates) (entry : TraceEntry) (callId : ToolCallId)
    (name : String) (state : ToolExecutionState) (readOnlyOverride : Option Bool) :
    ReplayStates :=
  let existingReadOnly := (states[callId]?.map ToolReplayState.readOnly).getD false
  let readOnly := readOnlyOverride.getD existingReadOnly
  states.insert callId
    { callId := callId
      name := name
      state := state
      readOnly := readOnly
      mutatingUnknown := !readOnly && isUncertain state
      reference := HistoricalEventRef.fromEntry entry
      decision := replayDecision state readOnly }

/-- One entry of the fold. -/
def replayToolState (states : ReplayStates) (entry : TraceEntry) : ReplayStates :=
  match entry.envelope.event with
  | .toolRequested e =>
    states.insert e.callId
      { callId := e.callId
        name := e.name
        state := .requested
        readOnly := e.readOnly
        mutatingUnknown := false
        reference := HistoricalEventRef.fromEntry entry
        decision := if e.readOnly then .safeToReplayReadOnly else .requestedOnly }
  | .toolStarted e => updateToolState states entry e.callId e.name .started none
  | .toolCompleted e => updateToolState states entry e.callId e.name e.state none
  | .toolFailed e => updateToolState states entry e.callId e.name .failed none
  | .toolUnknown e => updateToolState states entry e.callId e.name .unknown (some (!e.mutating))
  | _ => states

def replayStates (entries : List TraceEntry) : ReplayStates := entries.foldl replayToolState ∅

/-- The states in the order of their call ids. -/
def toolReplayStates (entries : List TraceEntry) : List ToolReplayState :=
  (replayStates entries).toList.map Prod.snd

/-! ### The plan -/

structure NewExecutionBoundary where
  plannedOnly : Bool
  historySeparated : Bool
  note : String
  deriving DecidableEq, Repr

structure HistoricalBranchPlan where
  branchPoint : HistoricalEventRef
  historicalEvents : List HistoricalEventRef
  blockedTools : List ToolReplayState
  newExecution : NewExecutionBoundary
  deriving DecidableEq, Repr

/-- The calls that have to be reconciled before they are repeated. -/
def blockedTools (bounded : List TraceEntry) : List ToolReplayState :=
  (toolReplayStates bounded).filter fun state => state.decision = .reconcileBeforeReplay

/-- A dry plan for branching from a historical event. -/
def planHistoricalBranch (entries : List TraceEntry) (target : HistoricalTarget) :
    Except ReplayError HistoricalBranchPlan :=
  match hbounded : applyUntil (orderedEntries entries) (some target) with
  | .error error => .error error
  | .ok bounded =>
    .ok
      { branchPoint :=
          HistoricalEventRef.fromEntry (bounded.getLast (applyUntil_ne_nil hbounded))
        historicalEvents := bounded.map HistoricalEventRef.fromEntry
        blockedTools := blockedTools bounded
        newExecution :=
          { plannedOnly := true
            historySeparated := true
            note := "dry branch plan only; no provider or tool execution performed" } }

/-! ### What the fold keeps -/

/-- What an event says about the call being read-only, when it says so. -/
def AgentEvent.declaresReadOnly : AgentEvent → Option Bool
  | .toolRequested e => some e.readOnly
  | .toolUnknown e => some (!e.mutating)
  | _ => none

/-- What the events of a call id last said about being read-only. -/
def readOnlyOf (callId : ToolCallId) (entries : List TraceEntry) : Bool :=
  (((entries.filter fun entry => entry.envelope.event.toolCall = some callId).filterMap
    fun entry => entry.envelope.event.declaresReadOnly).getLast?).getD false

lemma readOnlyOf_append (callId : ToolCallId) (entries : List TraceEntry) (entry : TraceEntry) :
    readOnlyOf callId (entries ++ [entry]) =
      if entry.envelope.event.toolCall = some callId then
        entry.envelope.event.declaresReadOnly.getD (readOnlyOf callId entries)
      else readOnlyOf callId entries := by
  by_cases h : entry.envelope.event.toolCall = some callId
  · cases hdeclares : entry.envelope.event.declaresReadOnly <;>
      simp [readOnlyOf, h, hdeclares]
  · simp [readOnlyOf, h]

/-- A state that is the last of its call id. -/
structure LastState (entries : List TraceEntry) (callId : ToolCallId) (state : ToolReplayState) :
    Prop where
  sameCall : state.callId = callId
  last : ∃ entry, lastToolEvent callId entries = some entry ∧
    state.reference = HistoricalEventRef.fromEntry entry ∧
    entry.envelope.event.toolState = some state.state
  readOnly : state.readOnly = readOnlyOf callId entries
  decision : state.decision = replayDecision state.state state.readOnly

/-- One tool event replaces the state of its call id. -/
lemma replayToolState_of_toolCall (states : ReplayStates) {entry : TraceEntry}
    {callId : ToolCallId} (hcall : entry.envelope.event.toolCall = some callId) :
    ∃ state : ToolReplayState, replayToolState states entry = states.insert callId state ∧
      state.callId = callId ∧ state.reference = HistoricalEventRef.fromEntry entry ∧
      entry.envelope.event.toolState = some state.state ∧
      state.readOnly = entry.envelope.event.declaresReadOnly.getD
        ((states[callId]?.map ToolReplayState.readOnly).getD false) ∧
      state.decision = replayDecision state.state state.readOnly := by
  unfold replayToolState
  cases hevent : entry.envelope.event <;> rw [hevent] at hcall <;>
    first
    | (obtain rfl := Option.some.inj hcall; exact ⟨_, rfl, rfl, rfl, rfl, rfl, rfl⟩)
    | cases hcall

lemma replayToolState_of_not_toolCall (states : ReplayStates) {entry : TraceEntry}
    (hcall : entry.envelope.event.toolCall = none) : replayToolState states entry = states := by
  unfold replayToolState
  cases hevent : entry.envelope.event <;> rw [hevent] at hcall <;> first | rfl | cases hcall

lemma replayStates_append (entries : List TraceEntry) (entry : TraceEntry) :
    replayStates (entries ++ [entry]) = replayToolState (replayStates entries) entry := by
  rw [replayStates, List.foldl_append]
  rfl

/-- **What the fold keeps** under a call id is the state of its last tool event. -/
theorem getElem?_replayStates (entries : List TraceEntry) (callId : ToolCallId) :
    (∀ state, (replayStates entries)[callId]? = some state → LastState entries callId state) ∧
      ((replayStates entries)[callId]? = none → lastToolEvent callId entries = none) := by
  induction entries using List.reverseRecOn with
  | nil => simp [replayStates, lastToolEvent]
  | append_singleton entries entry ih =>
    rw [replayStates_append]
    cases hcall : entry.envelope.event.toolCall with
    | none =>
      rw [replayToolState_of_not_toolCall _ hcall, lastToolEvent_append, hcall,
        if_neg (by simp)]
      refine ⟨fun state hstate => ?_, ih.2⟩
      have hlast := ih.1 state hstate
      exact
        { sameCall := hlast.sameCall
          last := by simpa [lastToolEvent_append, hcall] using hlast.last
          readOnly := by simpa [readOnlyOf_append, hcall] using hlast.readOnly
          decision := hlast.decision }
    | some other =>
      obtain ⟨new, hnew, hid, hreference, hstate, hreadOnly, hdecision⟩ :=
        replayToolState_of_toolCall (replayStates entries) hcall
      rw [hnew]
      simp only [Std.TreeMap.getElem?_insert, Std.LawfulEqCmp.compare_eq_iff_eq]
      by_cases hsame : other = callId
      · subst hsame
        rw [if_pos rfl]
        refine ⟨fun state heq => ?_, by simp⟩
        obtain rfl := Option.some.inj heq
        have hexisting : ((replayStates entries)[other]?.map ToolReplayState.readOnly).getD false =
            readOnlyOf other entries := by
          cases hfound : (replayStates entries)[other]? with
          | none =>
            have hnone := ih.2 hfound
            rw [lastToolEvent, List.getLast?_eq_none_iff] at hnone
            simp [readOnlyOf, hnone]
          | some old => exact (ih.1 old hfound).readOnly
        exact
          { sameCall := hid
            last := ⟨entry, by rw [lastToolEvent_append, if_pos hcall], hreference, hstate⟩
            readOnly := by rw [readOnlyOf_append, if_pos hcall, hreadOnly, hexisting]
            decision := hdecision }
      · rw [if_neg hsame]
        have hne : entry.envelope.event.toolCall ≠ some callId := by
          rw [hcall]
          exact fun h => hsame (Option.some.inj h)
        rw [lastToolEvent_append, if_neg hne]
        refine ⟨fun state heq => ?_, ih.2⟩
        have hlast := ih.1 state heq
        exact
          { sameCall := hlast.sameCall
            last := by simpa [lastToolEvent_append, hne] using hlast.last
            readOnly := by simpa [readOnlyOf_append, hne] using hlast.readOnly
            decision := hlast.decision }

/-! ### What a plan blocks -/

/-- The events after which nobody knows whether the call took effect. -/
def AgentEvent.leavesUncertain : AgentEvent → Bool
  | .toolStarted _ | .toolUnknown _ => true
  | _ => false

def AgentEvent.isToolStarted : AgentEvent → Bool
  | .toolStarted _ => true
  | _ => false

/-- The call completed or failed. -/
def AgentEvent.settles : AgentEvent → Bool
  | .toolCompleted _ | .toolFailed _ => true
  | _ => false

/-- A mutating call left started or unknown. -/
def Lifecycle.Uncertain (l : Lifecycle) : Prop :=
  l.call.requested.readOnly = false ∧ l.last.envelope.event.leavesUncertain = true

/-- A state that stands for one request: its call id, and the address and the outcome of
the request's last event. -/
def ToolReplayState.IsFor (state : ToolReplayState) (l : Lifecycle) : Prop :=
  state.callId = l.callId ∧ state.reference = HistoricalEventRef.fromEntry l.last ∧
    l.last.envelope.event.toolState = some state.state

instance (l : Lifecycle) : Decidable l.Uncertain := inferInstanceAs (Decidable (_ ∧ _))

instance (state : ToolReplayState) (l : Lifecycle) : Decidable (state.IsFor l) :=
  inferInstanceAs (Decidable (_ ∧ _ ∧ _))

/-- The blocked tools of a prefix are its uncertain mutations. -/
structure ReplayBlocks (entries before : List TraceEntry) (blocked : List ToolReplayState) :
    Prop where
  /-- every uncertain mutation is blocked -/
  covers : ∀ l ∈ toolLifecycles before, l.Uncertain → ∃ state ∈ blocked, state.IsFor l
  /-- whatever is blocked is the last state of a request left started or unknown -/
  left : ∀ state ∈ blocked, ∃ l ∈ toolLifecycles before,
    l.last.envelope.event.leavesUncertain = true ∧ state.IsFor l
  /-- no request that completed or failed is blocked -/
  settled : ∀ l ∈ toolLifecycles before, l.last.envelope.event.settles = true →
    ∀ state ∈ blocked, ¬ state.IsFor l
  /-- on the full trace the blocked started mutations are the interrupted ones -/
  interrupted : before = entries → ∀ calls, interruptedToolCalls entries = .ok calls →
    ∀ c, c ∈ calls ∧ c.readOnly = false ↔ ∃ l ∈ toolLifecycles before, l.Uncertain ∧
      l.last.envelope.event.isToolStarted = true ∧ (∃ state ∈ blocked, state.IsFor l) ∧
        l.call.interrupted = c

/-- The request still has its call id to itself: the last tool event under the id is the
request's own, and the id was last declared mutating. -/
def Lifecycle.HoldsCallId (before : List TraceEntry) (l : Lifecycle) : Prop :=
  ∃ entry, lastToolEvent l.callId before = some entry ∧
    HistoricalEventRef.fromEntry entry = HistoricalEventRef.fromEntry l.last ∧
    entry.envelope.event.toolState = l.last.envelope.event.toolState ∧
    readOnlyOf l.callId before = false

instance (before : List TraceEntry) (l : Lifecycle) : Decidable (l.HoldsCallId before) :=
  inferInstanceAs (Decidable (∃ entry ∈ lastToolEvent l.callId before, _ ∧ _ ∧ _))

lemma AgentEvent.leavesUncertain_of_settles {event : AgentEvent} (h : event.settles = true) :
    event.leavesUncertain = false := by
  cases event <;> first | rfl | cases h

lemma replayDecision_eq_reconcile {state : ToolExecutionState} {readOnly : Bool} :
    replayDecision state readOnly = .reconcileBeforeReplay ↔
      isUncertain state = true ∧ readOnly = false := by
  cases state <;> cases readOnly <;> decide

lemma Lifecycle.Consistent.leavesUncertain_iff {l : Lifecycle} (h : l.Consistent)
    {state : ToolExecutionState} (hstate : l.last.envelope.event.toolState = some state) :
    l.last.envelope.event.leavesUncertain = isUncertain state := by
  cases hevent : l.last.envelope.event <;> rw [hevent] at hstate <;>
    simp only [AgentEvent.toolState, Option.some.injEq, reduceCtorEq] at hstate <;> subst hstate
  case toolCompleted e => simp [AgentEvent.leavesUncertain, h.succeeded e hevent, isUncertain]
  all_goals rfl

lemma mem_blockedTools {before : List TraceEntry} {state : ToolReplayState} :
    state ∈ blockedTools before ↔
      (∃ callId : ToolCallId, (replayStates before)[callId]? = some state) ∧
        state.decision = .reconcileBeforeReplay := by
  simp only [blockedTools, toolReplayStates, List.mem_filter, List.mem_map, decide_eq_true_eq]
  refine and_congr_left fun _ => ⟨?_, ?_⟩
  · rintro ⟨⟨callId, _⟩, hmem, rfl⟩
    exact ⟨callId, Std.TreeMap.mem_toList_iff_getElem?_eq_some.mp hmem⟩
  · rintro ⟨callId, hfound⟩
    exact ⟨(callId, state), Std.TreeMap.mem_toList_iff_getElem?_eq_some.mpr hfound, rfl⟩

lemma AgentEvent.toolState_of_leavesUncertain {event : AgentEvent}
    (h : event.leavesUncertain = true) :
    ∃ state, event.toolState = some state ∧ isUncertain state = true := by
  cases event <;> first | exact ⟨_, rfl, rfl⟩ | cases h

section

variable {before : List TraceEntry} {s : LifecycleScan} {h : LifecycleHistory}

/-- A blocked state is the last of its call id, uncertain, and of a declared mutation. -/
lemma lastState_of_mem {state : ToolReplayState} (hmem : state ∈ blockedTools before) :
    LastState before state.callId state ∧ isUncertain state.state = true ∧
      readOnlyOf state.callId before = false := by
  obtain ⟨⟨callId, hfound⟩, hdecision⟩ := mem_blockedTools.mp hmem
  have hlast := (getElem?_replayStates before callId).1 state hfound
  obtain rfl := hlast.sameCall
  rw [hlast.decision, replayDecision_eq_reconcile, hlast.readOnly] at hdecision
  exact ⟨hlast, hdecision⟩

/-- Under a call id whose last tool event is uncertain and whose last declaration is a
mutation, the fold has a blocked state. -/
lemma exists_blocked {callId : ToolCallId} {entry : TraceEntry} {outcome : ToolExecutionState}
    (hentry : lastToolEvent callId before = some entry)
    (hstate : entry.envelope.event.toolState = some outcome) (huncertain : isUncertain outcome = true)
    (hdeclared : readOnlyOf callId before = false) :
    ∃ state ∈ blockedTools before, state.callId = callId ∧ state.state = outcome ∧
      state.reference = HistoricalEventRef.fromEntry entry := by
  cases hfound : (replayStates before)[callId]? with
  | none =>
    rw [(getElem?_replayStates before callId).2 hfound] at hentry
    cases hentry
  | some state =>
    have hlast := (getElem?_replayStates before callId).1 state hfound
    obtain ⟨entry', hentry', hreference, hstate'⟩ := hlast.last
    obtain rfl := Option.some.inj (hentry.symm.trans hentry')
    have houtcome : state.state = outcome := Option.some.inj (hstate'.symm.trans hstate)
    refine ⟨state, mem_blockedTools.mpr ⟨⟨callId, hfound⟩, ?_⟩, hlast.sameCall, houtcome,
      hreference⟩
    rw [hlast.decision, replayDecision_eq_reconcile, hlast.readOnly, houtcome]
    exact ⟨huncertain, hdeclared⟩

/-- A request is blocked exactly when it still has its call id to itself. -/
lemma Lifecycle.blocked_iff {l : Lifecycle} (huncertain : l.Uncertain) :
    (∃ state ∈ blockedTools before, state.IsFor l) ↔ l.HoldsCallId before := by
  constructor
  · rintro ⟨state, hmem, hcall, hreference, hstate⟩
    obtain ⟨hlast, -, hdeclared⟩ := lastState_of_mem hmem
    obtain ⟨entry, hentry, hentryref, hentrystate⟩ := hlast.last
    rw [hcall] at hentry hdeclared
    exact ⟨entry, hentry, hentryref.symm.trans hreference, hentrystate.trans hstate.symm,
      hdeclared⟩
  · rintro ⟨entry, hentry, hreference, hstate, hdeclared⟩
    obtain ⟨outcome, houtcome, hunknown⟩ :=
      AgentEvent.toolState_of_leavesUncertain huncertain.2
    obtain ⟨state, hmem, hcall, rfl, hstateref⟩ :=
      exists_blocked hentry (hstate.trans houtcome) hunknown hdeclared
    exact ⟨state, hmem, hcall, hstateref.trans hreference, houtcome⟩

/-- Whatever is blocked is the last state of a request left started or unknown. -/
lemma Tracked.left_of_blocked (ht : Tracked before s h) {state : ToolReplayState}
    (hmem : state ∈ blockedTools before) :
    ∃ l ∈ h.calls, l.last.envelope.event.leavesUncertain = true ∧ state.IsFor l := by
  obtain ⟨hlast, huncertain, -⟩ := lastState_of_mem hmem
  obtain ⟨entry, hentry, hreference, hstate⟩ := hlast.last
  obtain ⟨l, hl, rfl⟩ := ht.last _ entry hentry
  have hconsistent := ht.consistent l hl
  have hcall : l.last.envelope.event.toolCall = some state.callId := by
    simpa using (List.mem_filter.mp (List.mem_of_getLast? hentry)).2
  refine ⟨l, hl, ?_, ?_, hreference, hstate⟩
  · rw [hconsistent.leavesUncertain_iff hstate, huncertain]
  · exact Option.some.inj (hcall.symm.trans hconsistent.call)

end

/-- The plan's blocked tools are those of the entries up to its target. -/
lemma blockedTools_of_plan {entries before : List TraceEntry} {target : HistoricalTarget}
    {plan : HistoricalBranchPlan}
    (hbounded : applyUntil (orderedEntries entries) (some target) = .ok before)
    (hplan : planHistoricalBranch entries target = .ok plan) :
    plan.blockedTools = blockedTools before := by
  unfold planHistoricalBranch at hplan
  split at hplan
  · cases hplan
  · next bounded hbounded' =>
    obtain rfl := Except.ok.inj (hbounded.symm.trans hbounded')
    obtain rfl := Except.ok.inj hplan
    rfl

/-- One tool event of a session, parented to another. -/
def toolEntry (seq : Nat) (id turn : String) (parent : Option EventId) (event : AgentEvent) :
    TraceEntry where
  envelope :=
    { v := 1
      eventMeta :=
        { eventId := id
          sessionId := "s1"
          turnId := some turn
          seq := some seq
          timestampMs := seq
          modelEpoch := some 0
          model := none
          toolCallId := none
          parentEventId := parent
          traceId := "t1"
          spanId := "p1" }
      event := event }
  redactions := 0
  rawPayload := false
  rawRef := none
  externalized := []

/-- A write that a crash left unknown. -/
def unknownWrite : List TraceEntry :=
  [toolEntry 1 "e1" "turn-1" none (.toolRequested ⟨"call_0", "write", .null, false⟩),
    toolEntry 2 "e2" "turn-1" (some "e1") (.toolStarted ⟨"call_0", "write"⟩),
    toolEntry 3 "e3" "turn-1" (some "e2")
      (.toolUnknown ⟨"call_0", "write", "session was interrupted", true⟩)]

/-- The same write, and a read of the next turn to which the provider gave the same id. -/
def reusedCallId : List TraceEntry :=
  unknownWrite ++
    [toolEntry 4 "e4" "turn-2" none (.toolRequested ⟨"call_0", "read", .null, true⟩),
      toolEntry 5 "e5" "turn-2" (some "e4") (.toolStarted ⟨"call_0", "read"⟩),
      toolEntry 6 "e6" "turn-2" (some "e4")
        (.toolCompleted ⟨"call_0", "read", .succeeded, 1, none, false, none, 10⟩)]

end Rupi
