import Rupi.Runtime.Moves

/-!
Closing the calls of a response.

- `TurnLoop.recordMessage_eq`: a message of a turn is always recorded.
- `SameTurn`, `Ends`: what the end of one call does.
- `recordUnexecutedCall_closes`, `executeCall_closes`: a call is closed, executed or not.
-/

namespace Rupi

open Attempt

namespace TurnLoop

variable {env : Env} {loop : TurnLoop} {turnId : TurnId} {event : AgentEvent} {message : Message}
  {parent : Option EventId}

/-- A message of a turn is always recorded. -/
lemma recordMessage_eq (env : Env) (loop : TurnLoop) (turnId : TurnId) (event : AgentEvent)
    (message : Message) (parent : Option EventId) :
    ∃ trace, loop.recordMessage env turnId event message parent =
        .ok ((loop.sent trace (loop.trace.stamp
          (loop.newEnvelope env (some turnId) event parent))).pushMessage message
            (some loop.trace.nextSeq)) ∧
      loop.Emits env (loop.sent trace (loop.trace.stamp
        (loop.newEnvelope env (some turnId) event parent))) (some turnId) event parent := by
  obtain ⟨loop', record, entry, hok, -⟩ := emitMessage_writes env loop turnId event message parent
  rw [recordMessage, emitMessage]
  rw [emitMessage] at hok
  cases htrace : loop.trace.emitMessage (loop.newEnvelope env (some turnId) event parent)
    message with
  | ok trace =>
    obtain ⟨-, -, hentries, -, hlast, -⟩ := StoreTrace.emitMessage_eq_ok htrace
    exact ⟨trace, rfl, hentries, hlast, rfl, rfl, rfl⟩
  | error error =>
    rw [htrace] at hok
    cases hok

end TurnLoop

namespace ActiveTurn

variable {around : Surroundings} {turnId : TurnId} {t t' : ActiveTurn} {call : ToolCallBlock}
  {assistant : EventId} {ε : Type}

/-! ### What the end of a call does -/

/-- All but the window and the trace is the same, and the trace grows. -/
structure SameTurn (around : Surroundings) (t t' : ActiveTurn) : Prop where
  requests : t'.requests = t.requests
  historyStart : t'.historyStart = t.historyStart
  epochIndex : t'.loop.epochIndex = t.loop.epochIndex
  activeModel : t'.loop.activeModel = t.loop.activeModel
  checkpointFloor : t'.loop.checkpointFloor = t.loop.checkpointFloor
  acts : t'.acts = t.acts
  cancelled : t'.cancelled = t.cancelled
  grows : Relation.ReflTransGen (TurnLoop.Grows around.env) t.loop t'.loop

lemma SameTurn.trans {t'' : ActiveTurn} (h : SameTurn around t t') (h' : SameTurn around t' t'') :
    SameTurn around t t'' :=
  ⟨h'.requests.trans h.requests, h'.historyStart.trans h.historyStart,
    h'.epochIndex.trans h.epochIndex, h'.activeModel.trans h.activeModel,
    h'.checkpointFloor.trans h.checkpointFloor, h'.acts.trans h.acts,
    h'.cancelled.trans h.cancelled, h.grows.trans h'.grows⟩

/-- The line of an event. -/
def lineOf (around : Surroundings) (turnId : TurnId) (t : ActiveTurn) (event : AgentEvent)
    (parent : Option EventId) : TraceEntry :=
  .ofEnvelope (t.loop.trace.stamp (t.loop.newEnvelope around.env (some turnId) event parent))

lemma written_lineOf (around : Surroundings) (turnId : TurnId) (t : ActiveTurn) (event : AgentEvent)
    (parent : Option EventId) :
    Written turnId t.loop.epochIndex t.loop.activeModel event parent
      (t.lineOf around turnId event parent) := ⟨rfl, rfl, rfl, rfl, rfl, rfl⟩

lemma emitted_entries (around : Surroundings) (turnId : TurnId) (t : ActiveTurn)
    (event : AgentEvent) (parent : Option EventId) :
    (t.emitted around (some turnId) event parent).loop.trace.entries =
      t.loop.trace.entries ++ [t.lineOf around turnId event parent] := StoreTrace.emit_entries

lemma sameTurn_emitted (around : Surroundings) (turn : Option TurnId) (t : ActiveTurn)
    (event : AgentEvent) (parent : Option EventId) :
    SameTurn around t (t.emitted around turn event parent) :=
  ⟨rfl, rfl, rfl, rfl, rfl, rfl, rfl, .single (.line TurnLoop.emit_emits)⟩

lemma record_ok (around : Surroundings) (turnId : TurnId) (t : ActiveTurn) (event : AgentEvent)
    (message : Message) (parent : Option EventId) :
    ∃ loop, t.loop.recordMessage around.env turnId event message parent = .ok loop ∧
      record around turnId event message parent t = ({ t with loop := loop }, .ok ()) ∧
      SameTurn around t { t with loop := loop } ∧
      loop.messages = t.loop.messages ++ [message] ∧
      loop.trace.entries =
        t.loop.trace.entries ++ [t.lineOf around turnId event parent] := by
  obtain ⟨trace, hok, hemits⟩ :=
    t.loop.recordMessage_eq around.env turnId event message parent
  refine ⟨_, hok, ?_, ⟨rfl, rfl, rfl, rfl, rfl, rfl, rfl, .single (.line ⟨hemits.entries,
    hemits.lastSeq, rfl, rfl, rfl⟩)⟩, rfl, hemits.entries⟩
  rw [record, hok]

/-- The end of a call: reductions of its output, its last line, and its result. -/
structure Ends (around : Surroundings) (turnId : TurnId) (call : ToolCallBlock)
    (readOnly started joins : Bool) (parent : EventId) (t t' : ActiveTurn) : Prop
    extends SameTurn around t t' where
  messages : ∃ result : ToolResultBlock, result.id = call.id ∧
    t'.loop.messages = t.loop.messages ++ if joins then [⟨.tool, [.toolResult result]⟩] else []
  lines : ∃ reductions ended event,
    t'.loop.trace.entries = t.loop.trace.entries ++ (reductions ++ [ended]) ∧
      (∀ line ∈ reductions, ∃ reduced, Written turnId t.loop.epochIndex t.loop.activeModel
        (.contextReduced reduced) none line) ∧
      Written turnId t.loop.epochIndex t.loop.activeModel event (some parent) ended ∧
      EndsCall (requestOf readOnly call) started event

/-- The event of an outcome ends its call; it is a success only of a call that started. -/
lemma endsCall_recordToolOutcome {executed : Executed} {durationMs : ℕ} {readOnly started : Bool}
    {putPayload : List UInt8 → Option BlobRef}
    (h : executed.state = .succeeded → started = true) :
    EndsCall (requestOf readOnly call) started
      (recordToolOutcome call executed durationMs readOnly putPayload).event := by
  rw [recordToolOutcome]
  cases hstate : executed.state with
  | succeeded => exact ⟨rfl, rfl, rfl, h hstate⟩
  | failed => exact ⟨rfl, rfl⟩
  | unknown | requested | started => exact ⟨rfl, rfl, rfl⟩

lemma recordOutcome_ends (around : Surroundings) (turnId : TurnId) (call : ToolCallBlock)
    {executed : Executed} {started : Bool} (durationMs : ℕ) (readOnly : Bool) (parent : EventId)
    (h : executed.state = .succeeded → started = true) (t : ActiveTurn) :
    ∃ t', recordOutcome around turnId call executed durationMs readOnly parent t = (t', .ok ()) ∧
      Ends around turnId call readOnly started true parent t t' := by
  have hends : EndsCall (requestOf readOnly call) started
      (recordToolOutcome call executed durationMs readOnly around.env.putPayload).event :=
    endsCall_recordToolOutcome h
  have hid : (recordToolOutcome call executed durationMs readOnly
      around.env.putPayload).block.id = call.id := rfl
  rw [recordOutcome]
  generalize recordToolOutcome call executed durationMs readOnly around.env.putPayload =
    recorded at hends hid ⊢
  cases recorded.reduction with
  | none =>
    obtain ⟨loop, -, hok, hsame, hmessages, hentries⟩ :=
      t.record_ok around turnId recorded.event recorded.message (some parent)
    exact ⟨_, hok, hsame, ⟨recorded.block, hid, hmessages⟩, [], _, _, hentries,
      fun line hline => absurd hline List.not_mem_nil, t.written_lineOf around turnId _ _, hends⟩
  | some reduction =>
    let reduced := t.emitted around (some turnId) (.contextReduced reduction) none
    obtain ⟨loop, -, hok, hsame, hmessages, hentries⟩ :=
      reduced.record_ok around turnId recorded.event recorded.message (some parent)
    refine ⟨_, hok, (t.sameTurn_emitted around _ _ _).trans hsame,
      ⟨recorded.block, hid, hmessages⟩,
      [t.lineOf around turnId (.contextReduced reduction) none], _, _, ?_, ?_,
      reduced.written_lineOf around turnId _ _, hends⟩
    · rw [hentries, emitted_entries, List.append_assoc]
    · intro line hline
      rw [List.mem_singleton.1 hline]
      exact ⟨reduction, t.written_lineOf around turnId _ _⟩

/-! ### Calls that are closed -/

/-- A call is requested, is started if it is, and ends. -/
lemma closes_of_ends {readOnly joins : Bool} {mid : ActiveTurn} (started : Option TraceEntry)
    (h : Ends around turnId call readOnly started.isSome joins
      ((started.map TraceEntry.eventId).getD (around.env.fresh t.loop.issued)) mid t')
    (hstart : SameTurn around t { mid with acts := t.acts, cancelled := t.cancelled })
    (hmessages : mid.loop.messages = t.loop.messages)
    (hentries : mid.loop.trace.entries = t.loop.trace.entries ++
      t.lineOf around turnId (.toolRequested (requestOf readOnly call)) (some assistant) ::
        started.toList)
    (hstarted : ∀ line ∈ started, Written turnId t.loop.epochIndex t.loop.activeModel
      (.toolStarted ⟨call.id, call.name⟩) (some (around.env.fresh t.loop.issued)) line)
    (hacts : mid.acts = t.acts ∨ ∃ cancelled steps,
      mid.acts = t.acts ++ [.looked cancelled, .dispatched call steps] ∧
        (t.cancelled = true → cancelled = true) ∧
        (cancelled = true → .entered ∉ steps ∧ mid.cancelled = true))
    (hcancelled : t.cancelled = true → mid.cancelled = true) :
    Closes around turnId assistant joins call t t' := by
  have hepoch : mid.loop.epochIndex = t.loop.epochIndex := hstart.epochIndex
  have hmodel : mid.loop.activeModel = t.loop.activeModel := hstart.activeModel
  refine ⟨h.requests.trans hstart.requests, h.historyStart.trans hstart.historyStart,
    h.epochIndex.trans hepoch, h.activeModel.trans hmodel,
    h.checkpointFloor.trans hstart.checkpointFloor, ?_, hstart.grows.trans h.grows, ?_, ?_, ?_⟩
  · rw [← hmessages]
    exact h.messages
  · obtain ⟨reductions, ended, event, hended, hreductions, hwritten, hends⟩ := h.lines
    rw [hepoch, hmodel] at hwritten hreductions
    refine ⟨t.lineOf around turnId (.toolRequested (requestOf readOnly call)) (some assistant) ::
      (started.toList ++ reductions ++ [ended]), ?_, readOnly, _, started, reductions, ended, event,
      rfl, t.written_lineOf around turnId _ _, hstarted, hreductions, ?_, hends⟩
    · rw [hended, hentries, List.append_assoc, List.cons_append, List.append_assoc]
    · cases started with
      | none => exact hwritten
      | some line => exact hwritten
  · rw [h.acts, h.cancelled]
    exact hacts
  · rw [h.cancelled]
    exact hcancelled

lemma recordUnexecutedCall_closes (around : Surroundings) (turnId : TurnId) (assistant : EventId)
    (reason : String) (joins : Bool) (call : ToolCallBlock) (t : ActiveTurn) :
    ∃ t', recordUnexecutedCall around turnId assistant reason joins call t = (t', .ok ()) ∧
      Closes around turnId assistant joins call t t' := by
  let readOnly := (around.registry t.looks).isReadOnly call.name
  let asked : ActiveTurn := { t with looks := t.looks + 1 }
  let mid := asked.emitted around (some turnId) (.toolRequested (requestOf readOnly call))
    (some assistant)
  let requested := around.env.fresh t.loop.issued
  let failed : AgentEvent := .toolFailed ⟨call.id, call.name, reason, 0, none⟩
  let result : ToolResultBlock := ⟨call.id, call.name, .failed, reason, true, false⟩
  have hentries : mid.loop.trace.entries = t.loop.trace.entries ++
      t.lineOf around turnId (.toolRequested (requestOf readOnly call)) (some assistant) ::
        (none : Option TraceEntry).toList := StoreTrace.emit_entries
  have hasked : SameTurn around t mid :=
    ⟨rfl, rfl, rfl, rfl, rfl, rfl, rfl, .single (.line TurnLoop.emit_emits)⟩
  have hcloses : ∀ t', Ends around turnId call readOnly false joins requested mid t' →
      Closes around turnId assistant joins call t t' := fun t' hends =>
    closes_of_ends none hends hasked rfl hentries (fun line hline => by cases hline) (.inl rfl) id
  cases joins with
  | true =>
    obtain ⟨loop, -, hok, hsame, hmessages, hended⟩ :=
      mid.record_ok around turnId failed ⟨.tool, [.toolResult result]⟩ (some requested)
    exact ⟨_, hok, hcloses _ ⟨hsame, ⟨result, rfl, hmessages⟩, [], _, _, hended,
      fun line hline => absurd hline List.not_mem_nil, mid.written_lineOf around turnId _ _,
      rfl, rfl⟩⟩
  | false =>
    refine ⟨_, rfl, hcloses _ ⟨⟨rfl, rfl, rfl, rfl, rfl, rfl, rfl,
      .single (.line ⟨rfl, rfl, rfl, rfl, rfl⟩)⟩,
      ⟨result, rfl, (List.append_nil _).symm⟩, [], _, _, rfl,
      fun line hline => absurd hline List.not_mem_nil, mid.written_lineOf around turnId _ _,
      rfl, rfl⟩⟩

/-- A dispatch whose start can be recorded reports, and its steps say whether the tool was
entered. -/
lemma dispatch_reports {registry : ToolRegistry} {run : DispatchRun} {request : ToolRequest}
    (h : run.onStarted = .ok ()) :
    ∃ executed, (registry.dispatch run request = (.ok executed, []) ∧
        (settleUnstarted executed).state ≠ .succeeded) ∨
      registry.dispatch run request = (.ok executed, [.startReported, .entered]) ∧
        run.cancelledBefore = false := by
  rcases dispatch_cases registry run request with ⟨reason, hdispatch, -⟩ | ⟨-, hdispatch⟩ |
    ⟨error, hstarted, -⟩ | ⟨tool, hcleared, hdispatch⟩
  · refine ⟨_, .inl ⟨hdispatch, fun hstate => ?_⟩⟩
    rw [settleUnstarted_of_isTerminal rfl] at hstate
    cases hstate
  · exact ⟨_, .inl ⟨hdispatch, fun hstate => by cases hstate⟩⟩
  · rw [h] at hstarted
    cases hstarted
  · exact ⟨_, .inr ⟨hdispatch, hcleared.current⟩⟩

/-- What the dispatch of a call leaves: a report, a line about the start if it was reported, and
the token as it is. -/
lemma dispatchCall_spec (around : Surroundings) (turnId : TurnId) (call : ToolCallBlock)
    (answer : Approval) (requested : EventId) (t : ActiveTurn) :
    ∃ (mid : ActiveTurn) (executed : ExecutedCall) (started : Option TraceEntry) (cancelled : Bool)
        (steps : List DispatchStep),
      dispatchCall around turnId call answer requested t =
        (mid, .ok (executed, (started.map TraceEntry.eventId).getD requested)) ∧
      SameTurn around t { mid with acts := t.acts, cancelled := t.cancelled } ∧
      mid.loop.messages = t.loop.messages ∧
      mid.loop.trace.entries = t.loop.trace.entries ++ started.toList ∧
      (∀ line ∈ started, Written turnId t.loop.epochIndex t.loop.activeModel
        (.toolStarted ⟨call.id, call.name⟩) (some requested) line) ∧
      ((settleUnstarted executed).state = .succeeded → started.isSome = true) ∧
      mid.acts = t.acts ++ [.looked cancelled, .dispatched call steps] ∧
      (t.cancelled = true → cancelled = true) ∧
      (cancelled = true → .entered ∉ steps ∧ mid.cancelled = true) := by
  let cancelledBefore := (t.looked around).cancelled
  let cancelledAfter := around.cancelled ((t.looked around).looks + 1)
  let behind (loop : TurnLoop) (steps : List DispatchStep) : ActiveTurn :=
    { t with
      loop := loop
      acts := t.acts ++ [.looked cancelledBefore] ++ [.dispatched call steps]
      cancelled := cancelledBefore || cancelledAfter
      looks := t.looks + 4 }
  have hacts : ∀ steps, t.acts ++ [.looked cancelledBefore] ++ [.dispatched call steps] =
      t.acts ++ [.looked cancelledBefore, .dispatched call steps] := fun steps =>
    List.append_assoc _ _ _
  have hseen : t.cancelled = true → cancelledBefore = true := fun h => by
    change (t.cancelled || around.cancelled t.looks) = true
    rw [h, Bool.true_or]
  obtain ⟨executed, ⟨hdispatch, hstate⟩ | ⟨hdispatch, hcurrent⟩⟩ :=
    @dispatch_reports (around.registry ((t.looked around).looks + 1 + 1))
      ⟨(t.looked around).cancelled, fun _ _ => answer, .ok (),
        around.interrupted (t.looked around).looks,
        (t.looked around).cancelled || around.cancelled ((t.looked around).looks + 1)⟩
      ⟨call.id, call.name, call.arguments⟩ rfl
  · refine ⟨behind t.loop [], executed, none, cancelledBefore, [], ?_,
      ⟨rfl, rfl, rfl, rfl, rfl, rfl, rfl, .refl⟩, rfl, (List.append_nil _).symm,
      fun line hline => absurd hline (Option.not_mem_none line), fun h => absurd h hstate, hacts _,
      hseen, ?_⟩
    · rw [dispatchCall]
      refine Attempt.bind_eq_ok.2 ⟨_, _, rfl, Attempt.bind_eq_ok.2 ⟨_, _, rfl,
        Attempt.bind_eq_ok.2 ⟨_, _, rfl, Attempt.bind_eq_ok.2 ⟨_, _, rfl, ?_⟩⟩⟩⟩
      dsimp only
      rw [hdispatch]
      rfl
    · intro h
      refine ⟨List.not_mem_nil, ?_⟩
      change (cancelledBefore || cancelledAfter) = true
      rw [h, Bool.true_or]
  · let started : AgentEvent := .toolStarted ⟨call.id, call.name⟩
    refine ⟨behind (t.loop.traceEvent around.env turnId started (some requested))
        [.startReported, .entered], executed,
      some (t.lineOf around turnId started (some requested)),
      cancelledBefore, [.startReported, .entered], ?_, ⟨rfl, rfl, rfl, rfl, rfl, rfl, rfl,
        .single (.line ⟨StoreTrace.emit_entries, StoreTrace.emit_lastSeq, rfl, rfl, rfl⟩)⟩, rfl,
      StoreTrace.emit_entries, ?_, fun _ => rfl, hacts _, hseen, ?_⟩
    · rw [dispatchCall]
      refine Attempt.bind_eq_ok.2 ⟨_, _, rfl, Attempt.bind_eq_ok.2 ⟨_, _, rfl,
        Attempt.bind_eq_ok.2 ⟨_, _, rfl, Attempt.bind_eq_ok.2 ⟨_, _, rfl, ?_⟩⟩⟩⟩
      dsimp only
      rw [hdispatch]
      rfl
    · intro line hline
      obtain rfl := Option.some.inj hline
      exact t.written_lineOf around turnId _ _
    · intro h
      exact absurd (hcurrent.symm.trans h) Bool.false_ne_true

lemma executeCall_closes (around : Surroundings) (turnId : TurnId) (assistant : EventId)
    (rejected : List (ToolCallId × String)) (call : ToolCallBlock) (t : ActiveTurn) :
    ∃ t' progressed, executeCall around turnId assistant rejected call t = (t', .ok progressed) ∧
      Closes around turnId assistant true call t t' := by
  let readOnly := (around.registry t.looks).isReadOnly call.name
  let asked : ActiveTurn := { t with looks := t.looks + 1 }
  let mid := asked.emitted around (some turnId) (.toolRequested (requestOf readOnly call))
    (some assistant)
  let requested := around.env.fresh t.loop.issued
  have hrequested : mid.loop.trace.entries = t.loop.trace.entries ++
      [t.lineOf around turnId (.toolRequested (requestOf readOnly call)) (some assistant)] :=
    StoreTrace.emit_entries
  have hasked : SameTurn around t mid :=
    ⟨rfl, rfl, rfl, rfl, rfl, rfl, rfl, .single (.line TurnLoop.emit_emits)⟩
  cases hlookup : rejected.lookup call.id with
  | some reason =>
    let refused := ExecutedCall.refused ⟨call.id, call.name, call.arguments⟩ (rejection reason)
    have hfailed : refused.toExecuted.state = .succeeded → false = true := fun h => by cases h
    obtain ⟨t', hok, hends⟩ :=
      recordOutcome_ends around turnId call 0 readOnly requested hfailed mid
    refine ⟨t', false, ?_, closes_of_ends none hends hasked rfl hrequested
      (fun line hline => by cases hline) (.inl rfl) id⟩
    rw [executeCall]
    refine Attempt.bind_eq_ok.2 ⟨_, _, rfl, Attempt.bind_eq_ok.2 ⟨_, _, rfl, ?_⟩⟩
    dsimp only
    rw [hlookup]
    exact Attempt.bind_eq_ok.2 ⟨_, _, hok, rfl⟩
  | none =>
    let answer := approval around { mid with looks := mid.looks + 1 } (around.approve mid.looks)
      ((around.registry t.looks).metadataFor call.name) call.arguments
    obtain ⟨closing, executed, started, cancelled, steps, hdispatch, hsame, hmessages, hentries,
      hstarted, hsucceeded, hacts, hseen, hstopped⟩ :=
        dispatchCall_spec around turnId call answer requested { mid with looks := mid.looks + 1 }
    obtain ⟨t', hok, hends⟩ := recordOutcome_ends around turnId call
      (around.elapsedMs closing.looks) readOnly ((started.map TraceEntry.eventId).getD requested)
      hsucceeded { closing with looks := closing.looks + 1 }
    let progressed := callMakesProgress around (around.registry t'.looks) call &&
      (settleUnstarted executed).state = .succeeded
    refine ⟨{ t' with looks := t'.looks + 1 }, progressed, ?_, closes_of_ends started
      ⟨⟨hends.requests, hends.historyStart, hends.epochIndex, hends.activeModel,
        hends.checkpointFloor, hends.acts, hends.cancelled, hends.grows⟩, hends.messages,
        hends.lines⟩
      ⟨hsame.requests, hsame.historyStart, hsame.epochIndex, hsame.activeModel,
        hsame.checkpointFloor, rfl, rfl, hasked.grows.trans hsame.grows⟩ hmessages ?_ hstarted
      (.inr ⟨cancelled, steps, hacts, hseen, hstopped⟩) fun h => (hstopped (hseen h)).2⟩
    · rw [executeCall]
      refine Attempt.bind_eq_ok.2 ⟨_, _, rfl, Attempt.bind_eq_ok.2 ⟨_, _, rfl, ?_⟩⟩
      dsimp only
      rw [hlookup]
      exact Attempt.bind_eq_ok.2 ⟨_, _, rfl, Attempt.bind_eq_ok.2 ⟨_, _, rfl,
        Attempt.bind_eq_ok.2 ⟨_, _, hdispatch, Attempt.bind_eq_ok.2 ⟨_, _, rfl,
          Attempt.bind_eq_ok.2 ⟨_, _, hok, rfl⟩⟩⟩⟩⟩
    · change closing.loop.trace.entries = _
      rw [hentries]
      exact (congrArg (· ++ started.toList) hrequested).trans (List.append_assoc _ _ _)

end ActiveTurn

end Rupi
