import Rupi.Runtime.Carried
import Rupi.Runtime.Turn

/-!
A turn as a sequence of moves.

- `TurnLoop.Emits`, `TurnLoop.Grows`: one more line in the trace, or none.
- `Standing`, `Phase`: where a turn stands between two moves.
- `WindowMove`: one operation on the model-visible window.
- `Move`: everything that one step of a turn can do, with what it needs.
- `Reach`: what a turn can come to.
- `Closes`: what closing one tool call does.
-/

namespace Rupi

open Attempt

/-! ### A trace that grows -/

namespace TurnLoop

/-- The trace has one more line, and all that later lines depend on is the same. -/
structure Emits (env : Env) (loop loop' : TurnLoop) (turn : Option TurnId) (event : AgentEvent)
    (parent : Option EventId) : Prop where
  entries : loop'.trace.entries = loop.trace.entries ++
    [.ofEnvelope (loop.trace.stamp (loop.newEnvelope env turn event parent))]
  lastSeq : loop'.trace.lastSeq = some loop.trace.nextSeq
  issued : loop'.issued = loop.issued + 2
  epochIndex : loop'.epochIndex = loop.epochIndex
  activeModel : loop'.activeModel = loop.activeModel

/-- A line, or none. -/
inductive Grows (env : Env) : TurnLoop → TurnLoop → Prop where
  | line {loop loop' : TurnLoop} {turn : Option TurnId} {event : AgentEvent}
      {parent : Option EventId} (h : Emits env loop loop' turn event parent) :
      Grows env loop loop'
  | still {loop loop' : TurnLoop} (entries : loop'.trace.entries = loop.trace.entries)
      (lastSeq : loop'.trace.lastSeq = loop.trace.lastSeq) (issued : loop.issued ≤ loop'.issued) :
      Grows env loop loop'

lemma emit_emits {env : Env} {loop : TurnLoop} {turn : Option TurnId} {event : AgentEvent}
    {parent : Option EventId} :
    loop.Emits env (loop.emit env turn event parent).1 turn event parent :=
  ⟨StoreTrace.emit_entries, StoreTrace.emit_lastSeq, rfl, rfl, rfl⟩

end TurnLoop

/-! ### Where a turn stands -/

/-- What the last line about a request leaves: there is something new to ask; or the last request
showed nothing; or it showed something, and was or was not cut off at its output limit. -/
inductive Standing where
  | fresh
  | silent
  | shown (limited : Bool)
  deriving DecidableEq

namespace Standing

/-- A request may go out. -/
def mayAsk : Standing → Bool
  | fresh | silent => true
  | shown limited => limited

/-- The finish reasons of an output limit. -/
def isLimit (finishReason : Option String) : Bool :=
  finishReason = some "length" || finishReason = some "max_tokens"

/-- Behind a response. -/
def after (shownText : Bool) (finishReason : Option String) : Standing :=
  if shownText then shown (isLimit finishReason) else silent

variable {shownText : Bool} {finishReason : Option String}

lemma after_ne_fresh : after shownText finishReason ≠ fresh := by
  rw [after]
  split_ifs
  · exact fun h => by cases h
  · exact fun h => by cases h

/-- A response that was cut off at its output limit may be asked for again. -/
lemma mayAsk_after (h : isLimit finishReason = true) :
    (after shownText finishReason).mayAsk = true := by
  rw [after]
  split_ifs
  · exact h
  · rfl

end Standing

/-- Where a turn stands. In a batch, `joins` says that results join the window, and `kept` that the
window has a call for each of them. -/
inductive Phase where
  | free (standing : Standing)
  | ready (provider : Backup) (request : BudgetedRequest)
  | streaming (collector : Collector)
  | batch (assistant : EventId) (calls : List ToolCallBlock) (joins kept : Bool)
      (standing : Standing)
  | ending
  | over

/-- Text or reasoning was streamed. -/
def Collector.showed (c : Collector) : Bool := !c.content.isEmpty

/-- The prompts of a turn: the user's, and those of the runtime. -/
def AgentEvent.isPrompt : AgentEvent → Bool
  | .userMessage _ | .externalContextRetrieved _ => true
  | _ => false

namespace ActiveTurn

variable (around : Surroundings) (turnId : TurnId)

/-! ### Single moves -/

/-- One operation on the window, with the start of the turn's own history. -/
inductive WindowMove : TurnLoop × ℕ → TurnLoop × ℕ → Prop where
  | note (loop : TurnLoop) (start : ℕ) {turn : Option TurnId} (level : DiagnosticLevel)
      (message : String) (hturn : turn = none ∨ turn = some turnId) :
      WindowMove (loop, start) (loop.note around.env turn level message, start)
  | normalize (loop : TurnLoop) (start : ℕ) :
      WindowMove (loop, start) (loop.normalizeMessageSeqs, start)
  | evict {loop loop' : TurnLoop} {start start' target dropped : ℕ} {promptOnly : Bool}
      (provider : Backup)
      (h : loop.evictOldest (around.env.toBackup provider) turnId target start promptOnly =
        .ok (loop', dropped, start')) : WindowMove (loop, start) (loop', start')
  | compactPrefix {loop loop' : TurnLoop} {start start' n : ℕ} {level : ContextLevel}
      {reason : String} (provider : Backup)
      (h : loop.compactTurnPrefix (around.env.toBackup provider) turnId start level reason =
        .ok (loop', n, start')) : WindowMove (loop, start) (loop', start')
  | compactCycles {loop loop' : TurnLoop} {start start' target n : ℕ} {reason : String}
      (provider : Backup)
      (h : loop.compactCompletedTurnCycles (around.env.toBackup provider) turnId start target
        reason = .ok (loop', n, start')) : WindowMove (loop, start) (loop', start')
  | checkpoint {loop loop' : TurnLoop} {start start' : ℕ} {created : Option CheckpointCreated}
      (provider : Backup) (capsule : ContextCapsule)
      (h : loop.checkpointTurnPrefix (around.env.toBackup provider) turnId capsule start =
        (loop', .ok (created, start'))) : WindowMove (loop, start) (loop', start')
  | failedCheckpoint {loop loop' : TurnLoop} {start : ℕ} {error : TurnError}
      (provider : Backup) (capsule : ContextCapsule)
      (h : loop.checkpointTurnPrefix (around.env.toBackup provider) turnId capsule start =
        (loop', .error error)) : WindowMove (loop, start) (loop', start)
  | recover {loop loop' : TurnLoop} {start n : ℕ} {summary : String}
      (h : loop.compactPrefix around.env turnId (min start loop.messages.length) summary =
        .ok (loop', n)) :
      WindowMove (loop, start) (loop', if n = 0 then start else loop'.checkpointFloor + 1)

/-- A change that others do not see. -/
structure Tends (t t' : ActiveTurn) : Prop where
  loop : t'.loop = t.loop
  requests : t'.requests = t.requests
  historyStart : t'.historyStart = t.historyStart
  acts : t'.acts = t.acts
  cancelled : t.cancelled = true → t'.cancelled = true

/-- A change that others do not see, and one of the start of the turn's own history. -/
structure Abandons (t t' : ActiveTurn) : Prop where
  loop : t'.loop = t.loop
  requests : t'.requests = t.requests
  acts : t'.acts = t.acts
  cancelled : t.cancelled = true → t'.cancelled = true

/-- A line of a turn. -/
structure Written (epoch : ℕ) (model : ModelRef) (event : AgentEvent) (parent : Option EventId)
    (line : TraceEntry) : Prop where
  event : line.envelope.event = event
  turn : line.envelope.eventMeta.turnId = some turnId
  epoch : line.envelope.eventMeta.modelEpoch = some epoch
  model : line.envelope.eventMeta.model = some model
  parent : line.envelope.eventMeta.parentEventId = parent
  call : line.envelope.eventMeta.toolCallId = none

/-- The terminal event of a call. -/
def EndsCall (requested : ToolRequested) (started : Bool) : AgentEvent → Prop
  | .toolCompleted ended => ended.callId = requested.callId ∧ ended.name = requested.name ∧
      ended.state = .succeeded ∧ started = true
  | .toolFailed ended => ended.callId = requested.callId ∧ ended.name = requested.name
  | .toolUnknown ended => ended.callId = requested.callId ∧ ended.name = requested.name ∧
      ended.mutating = !requested.readOnly
  | _ => False

/-- The lines of a call: its request, its start if it was entered, reductions of its output, and
its end. -/
def CallLines (epoch : ℕ) (model : ModelRef) (assistant : EventId) (call : ToolCallBlock)
    (lines : List TraceEntry) : Prop :=
  ∃ (readOnly : Bool) (requested : TraceEntry) (started : Option TraceEntry)
    (reductions : List TraceEntry) (ended : TraceEntry) (event : AgentEvent),
    lines = requested :: (started.toList ++ reductions ++ [ended]) ∧
      Written turnId epoch model (.toolRequested (requestOf readOnly call)) (some assistant)
        requested ∧
      (∀ line ∈ started, Written turnId epoch model (.toolStarted ⟨call.id, call.name⟩)
        (some requested.eventId) line) ∧
      (∀ line ∈ reductions, ∃ reduced,
        Written turnId epoch model (.contextReduced reduced) none line) ∧
      Written turnId epoch model event (some (started.getD requested).eventId) ended ∧
      EndsCall (requestOf readOnly call) started.isSome event

/-- What closing one call does: its lines, the message of its result, and how the tool was
entered. -/
structure Closes (assistant : EventId) (joins : Bool) (call : ToolCallBlock) (t t' : ActiveTurn) :
    Prop where
  requests : t'.requests = t.requests
  historyStart : t'.historyStart = t.historyStart
  epochIndex : t'.loop.epochIndex = t.loop.epochIndex
  activeModel : t'.loop.activeModel = t.loop.activeModel
  checkpointFloor : t'.loop.checkpointFloor = t.loop.checkpointFloor
  messages : ∃ result : ToolResultBlock, result.id = call.id ∧
    t'.loop.messages = t.loop.messages ++ if joins then [⟨.tool, [.toolResult result]⟩] else []
  grows : Relation.ReflTransGen (TurnLoop.Grows around.env) t.loop t'.loop
  lines : ∃ lines, t'.loop.trace.entries = t.loop.trace.entries ++ lines ∧
    CallLines turnId t.loop.epochIndex t.loop.activeModel assistant call lines
  acts : t'.acts = t.acts ∨ ∃ cancelled steps,
    t'.acts = t.acts ++ [.looked cancelled, .dispatched call steps] ∧
      (t.cancelled = true → cancelled = true) ∧
      (cancelled = true → .entered ∉ steps ∧ t'.cancelled = true)
  cancelled : t.cancelled = true → t'.cancelled = true

/-- Everything that a step of a turn can do. -/
inductive Move : Phase × ActiveTurn → Phase × ActiveTurn → Prop where
  | look (p : Phase) (t : ActiveTurn) : Move (p, t) (p, t.looked around)
  | tend {p : Phase} {t t' : ActiveTurn} (h : t.Tends t') : Move (p, t) (p, t')
  | note (s : Standing) (t : ActiveTurn) (level : DiagnosticLevel) (message : String) :
      Move (.free s, t) (.free s, t.emitted around (some turnId) (.diagnostic level message) none)
  | say {s : Standing} {t : ActiveTurn} {event : AgentEvent} {text : String} {loop : TurnLoop}
      (hevent : event.isPrompt = true)
      (h : t.loop.recordMessage around.env turnId event (.user text) none = .ok loop) :
      Move (.free s, t) (.free .fresh, { t with loop := loop })
  | reshape {s : Standing} {t : ActiveTurn} {loop : TurnLoop} {start : ℕ}
      (h : WindowMove around turnId (t.loop, t.historyStart) (loop, start)) :
      Move (.free s, t) (.free s, { t with loop := loop, historyStart := start })
  | spend {s : Standing} {t : ActiveTurn} {provider : Backup} {request : BudgetedRequest}
      (hask : s.mayAsk = true) (hbudget : t.requests < around.maxRequests)
      (hrequest : request.request = provider.assembleRequest t.loop.messages)
      (hfits : estimateTokens request.request < 2 ^ 64 → FitsWindow provider request) :
      Move (.free s, t) (.ready provider request, { t with requests := t.requests + 1 })
  | ask {t t' : ActiveTurn} {provider : Backup} {request : BudgetedRequest} {messages tools : ℕ}
      (streamed : Streamed) (harmed : t.acts.getLast? = some (.looked false))
      (collector : Collector)
      (hcollector : collector = (Collector.new (t.emitted around (some turnId) (.modelRequestStarted
        ⟨t.loop.epochIndex, t.loop.activeModel, messages, estimateTokens request.request, tools⟩)
          none).loop).collect around.env turnId streamed.irreversible streamed.arrivals)
      (h : t' = { t with
        loop := collector.loop
        acts := t.acts ++ [.asked provider request]
        cancelled := t.cancelled || collector.error.isSome }) :
      Move (.ready provider request, t) (.streaming collector, t')
  | fail {t : ActiveTurn} {collector : Collector} {completed : ModelRequestCompleted} (joins : Bool)
      (hepoch : completed.epoch = t.loop.epochIndex)
      (hmodel : completed.model = t.loop.activeModel)
      (hcount : completed.toolCalls = collector.calls.length) :
      Move (.streaming collector, t)
        (.batch (around.env.fresh t.loop.issued) collector.calls joins (!joins)
            (.after collector.showed completed.finishReason),
          t.emitted around (some turnId) (.modelRequestCompleted completed) none)
  | answer {t : ActiveTurn} {collector : Collector} {completed : ModelRequestCompleted}
      (hepoch : completed.epoch = t.loop.epochIndex)
      (hmodel : completed.model = t.loop.activeModel)
      (hcount : completed.toolCalls = collector.calls.length) (hcalls : collector.calls = []) :
      Move (.streaming collector, t)
        (.free (.after collector.showed completed.finishReason),
          { t with
            loop :=
              t.loop.emitWithoutMessage around.env turnId (.modelRequestCompleted completed) none })
  | answerWith {t : ActiveTurn} {collector : Collector} {completed : ModelRequestCompleted}
      {content : List ContentBlock} {loop : TurnLoop}
      (hepoch : completed.epoch = t.loop.epochIndex)
      (hmodel : completed.model = t.loop.activeModel)
      (hcount : completed.toolCalls = collector.calls.length)
      (hcontent : content = collector.content ∨ content = [])
      (h : t.loop.recordMessage around.env turnId (.modelRequestCompleted completed)
        ⟨.assistant, content ++ collector.calls.map .toolCall⟩ none = .ok loop) :
      Move (.streaming collector, t)
        (.batch (around.env.fresh t.loop.issued) collector.calls true true
            (.after collector.showed completed.finishReason),
          { t with loop := loop })
  | close {t t' : ActiveTurn} {assistant : EventId} {call : ToolCallBlock}
      {calls : List ToolCallBlock} {joins kept : Bool} {s : Standing} (h : Closes around turnId assistant joins call t t') :
      Move (.batch assistant (call :: calls) joins kept s, t)
        (.batch assistant calls joins kept .fresh, t')
  | settle {t : ActiveTurn} {assistant : EventId} {joins kept : Bool} {s : Standing}
      (h : kept = true ∨ s ≠ .fresh) : Move (.batch assistant [] joins kept s, t) (.free s, t)
  | drop {t : ActiveTurn} {assistant : EventId} {joins kept : Bool} {s : Standing} :
      Move (.batch assistant [] joins kept s, t) (.ending, t)
  | abandon {s : Standing} {t t' : ActiveTurn} (h : t.Abandons t') : Move (.free s, t) (.ending, t')
  | noteEnding (t : ActiveTurn) (level : DiagnosticLevel) (message : String) :
      Move (.ending, t) (.ending, t.emitted around (some turnId) (.diagnostic level message) none)
  | retry (t : ActiveTurn) (retry : ModelRetry) :
      Move (.free .silent, t)
        (.free .fresh, t.emitted around (some turnId) (.modelRetry retry) none)
  | takeOver {t : ActiveTurn} {backup : AttachedModel} {failover : ModelFailover}
      (hbackup : around.backup = some backup) (hother : t.loop.activeModel ≠ backup.model)
      (hsource : failover.source = t.loop.activeModel) (htarget : failover.target = backup.model) :
      Move (.free .silent, t) (.free .fresh,
        let left := t.emitted around (some turnId) (.modelFailover failover) none
        let started := left.emitted around (some turnId) (.modelEpochStarted
          ⟨t.loop.epochIndex + 1, backup.model, .automaticFailover, backup.capabilities⟩) none
        { started with
          loop := { started.loop with
            epochIndex := t.loop.epochIndex + 1
            activeModel := backup.model } })
  | finish {p : Phase} (t : ActiveTurn) (status : TurnStatus) (durationMs : ℕ)
      (hp : p = .ending ∨ ∃ s, p = .free s) :
      Move (p, t) (.over, t.emitted around (some turnId) (.turnCompleted status durationMs) none)

/-! ### Runs of moves -/

/-- What a turn can come to, from a phase and a state. -/
def Reach (start : Phase × ActiveTurn) (post : Phase → ActiveTurn → Prop) (t : ActiveTurn) : Prop :=
  ∃ p, Relation.ReflTransGen (Move around turnId) start (p, t) ∧ post p t

variable {around turnId} {start : Phase × ActiveTurn} {post post' : Phase → ActiveTurn → Prop}
  {t : ActiveTurn}

lemma Reach.mono (h : Reach around turnId start post t) (himp : ∀ p, post p t → post' p t) :
    Reach around turnId start post' t := by
  obtain ⟨p, hpath, hpost⟩ := h
  exact ⟨p, hpath, himp p hpost⟩

/-- A turn goes on with one move. -/
lemma Reach.move {t' : ActiveTurn} (h : Reach around turnId start post t)
    (hmove : ∀ p, post p t → ∃ p', Move around turnId (p, t) (p', t') ∧ post' p' t') :
    Reach around turnId start post' t' := by
  obtain ⟨p, hpath, hpost⟩ := h
  obtain ⟨p', hstep, hpost'⟩ := hmove p hpost
  exact ⟨p', hpath.tail hstep, hpost'⟩

end ActiveTurn

end Rupi
