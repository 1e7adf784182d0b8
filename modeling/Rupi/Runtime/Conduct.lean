import Rupi.Lib.Labelled
import Rupi.Runtime.QuietLines
import Rupi.Runtime.TurnRuns

/-!
What a turn writes, as a protocol over its trace.

- `Stage`, `Conduct`: where a trace stands between two lines.
- `Conduct.Step`: the lines that may come next.
- `Follows`: a turn and its trace stand at the same place.
- `Collector.collect_conducts`, `closes_conducts`: what one move writes.
- **`runTurn_conduct`**: a turn writes a run of the protocol, and ends it unless it fails.
- **`runTurn_costs`**: a turn makes no more requests than it may, in at most two epochs.
-/

namespace Rupi

open Attempt Labelled

/-! ### The protocol -/

/-- The deltas of a response. -/
def AgentEvent.isDelta : AgentEvent → Bool
  | .reasoningDelta _ | .assistantDelta _ => true
  | _ => false

/-- The starts of requests, and of epochs. -/
def AgentEvent.startsRequest : AgentEvent → Bool
  | .modelRequestStarted _ => true
  | _ => false

def AgentEvent.startsEpoch : AgentEvent → Bool
  | .modelEpochStarted _ => true
  | _ => false

/-- How many requests, and how many epochs, lines start. -/
def requestStarts (lines : List TraceEntry) : ℕ :=
  lines.countP (·.envelope.event.startsRequest)

def epochStarts (lines : List TraceEntry) : ℕ := lines.countP (·.envelope.event.startsEpoch)

/-- Where a trace stands. Behind a call that is requested, `left` calls of its response are left,
and `last` is the line that its end refers to. -/
inductive Stage where
  | idle (standing : Standing)
  | streaming (showed : Bool)
  | calling (assistant : EventId) (left : ℕ)
  | requested (assistant : EventId) (left : ℕ) (requested : ToolRequested) (started : Bool)
      (last : EventId)
  | leaving (target : ModelRef)
  | ended

/-- Where a trace stands in front of `n` calls. -/
def Stage.behind (assistant : EventId) (standing : Standing) : ℕ → Stage
  | 0 => idle standing
  | left + 1 => calling assistant left

/-- Where a trace stands, and the active model with its epoch and its requests. -/
structure Conduct where
  stage : Stage
  epoch : ℕ
  model : ModelRef
  requests : ℕ

namespace Conduct

open ActiveTurn Stage

variable (maxRequests : ℕ) (backup : Option ModelRef) (turnId : TurnId)

/-- The lines that may come next. -/
inductive Step : Conduct → TraceEntry → Conduct → Prop where
  /-- Between two requests there may be diagnostics, and lines about the window. -/
  | quiet {s : Standing} {epoch requests : ℕ} {model : ModelRef} {line : TraceEntry}
      (hquiet : line.envelope.event.isQuiet = true)
      (hturn : line.envelope.eventMeta.turnId = none ∨
        line.envelope.eventMeta.turnId = some turnId)
      (hparent : line.envelope.eventMeta.parentEventId = none) :
      Step ⟨idle s, epoch, model, requests⟩ line ⟨idle s, epoch, model, requests⟩
  | prompt {s : Standing} {epoch requests : ℕ} {model : ModelRef} {line : TraceEntry}
      {event : AgentEvent} (hprompt : event.isPrompt = true)
      (h : Written turnId epoch model event none line) :
      Step ⟨idle s, epoch, model, requests⟩ line ⟨idle .fresh, epoch, model, requests⟩
  /-- A request needs something new to ask, or a response that may be asked for again. -/
  | ask {s : Standing} {epoch requests : ℕ} {model : ModelRef} {line : TraceEntry}
      {started : ModelRequestStarted} (hask : s.mayAsk = true) (hlimit : requests < maxRequests)
      (hepoch : started.epoch = epoch) (hmodel : started.model = model)
      (h : Written turnId epoch model (.modelRequestStarted started) none line) :
      Step ⟨idle s, epoch, model, requests⟩ line ⟨streaming false, epoch, model, requests + 1⟩
  | delta {showed : Bool} {epoch requests : ℕ} {model : ModelRef} {line : TraceEntry}
      {event : AgentEvent} (hdelta : event.isDelta = true)
      (h : Written turnId epoch model event none line) :
      Step ⟨streaming showed, epoch, model, requests⟩ line ⟨streaming true, epoch, model, requests⟩
  /-- The end of a response says how many calls have to be closed behind it. -/
  | complete {showed : Bool} {epoch requests : ℕ} {model : ModelRef} {line : TraceEntry}
      {completed : ModelRequestCompleted} (hepoch : completed.epoch = epoch)
      (hmodel : completed.model = model)
      (h : Written turnId epoch model (.modelRequestCompleted completed) none line) :
      Step ⟨streaming showed, epoch, model, requests⟩ line
        ⟨behind line.eventId (.after showed completed.finishReason) completed.toolCalls, epoch,
          model, requests⟩
  | request {assistant : EventId} {left epoch requests : ℕ} {model : ModelRef} {line : TraceEntry}
      {call : ToolRequested}
      (h : Written turnId epoch model (.toolRequested call) (some assistant) line) :
      Step ⟨calling assistant left, epoch, model, requests⟩ line
        ⟨requested assistant left call false line.eventId, epoch, model, requests⟩
  | start {assistant last : EventId} {left epoch requests : ℕ} {model : ModelRef}
      {line : TraceEntry} {call : ToolRequested}
      (h : Written turnId epoch model (.toolStarted ⟨call.callId, call.name⟩) (some last) line) :
      Step ⟨requested assistant left call false last, epoch, model, requests⟩ line
        ⟨requested assistant left call true line.eventId, epoch, model, requests⟩
  | reduce {assistant last : EventId} {left epoch requests : ℕ} {model : ModelRef}
      {line : TraceEntry} {call : ToolRequested} {started : Bool} {reduced : ContextReduced}
      (h : Written turnId epoch model (.contextReduced reduced) none line) :
      Step ⟨requested assistant left call started last, epoch, model, requests⟩ line
        ⟨requested assistant left call started last, epoch, model, requests⟩
  | close {assistant last : EventId} {left epoch requests : ℕ} {model : ModelRef}
      {line : TraceEntry} {call : ToolRequested} {started : Bool} {event : AgentEvent}
      (hends : EndsCall call started event)
      (h : Written turnId epoch model event (some last) line) :
      Step ⟨requested assistant left call started last, epoch, model, requests⟩ line
        ⟨behind assistant .fresh left, epoch, model, requests⟩
  /-- A request that showed something is not made again. -/
  | retry {epoch requests : ℕ} {model : ModelRef} {line : TraceEntry} {again : ModelRetry}
      (h : Written turnId epoch model (.modelRetry again) none line) :
      Step ⟨idle .silent, epoch, model, requests⟩ line ⟨idle .fresh, epoch, model, requests⟩
  | leave {epoch requests : ℕ} {model : ModelRef} {line : TraceEntry} {failover : ModelFailover}
      (hbackup : backup = some failover.target) (hsource : failover.source = model)
      (hother : failover.target ≠ model)
      (h : Written turnId epoch model (.modelFailover failover) none line) :
      Step ⟨idle .silent, epoch, model, requests⟩ line
        ⟨leaving failover.target, epoch, model, requests⟩
  | arrive {epoch requests : ℕ} {model target : ModelRef} {line : TraceEntry}
      {capabilities : ModelCapabilities}
      (h : Written turnId epoch model
        (.modelEpochStarted ⟨epoch + 1, target, .automaticFailover, capabilities⟩) none line) :
      Step ⟨leaving target, epoch, model, requests⟩ line
        ⟨idle .fresh, epoch + 1, target, requests⟩
  | finish {s : Standing} {epoch requests durationMs : ℕ} {model : ModelRef} {line : TraceEntry}
      {status : TurnStatus}
      (h : Written turnId epoch model (.turnCompleted status durationMs) none line) :
      Step ⟨idle s, epoch, model, requests⟩ line ⟨ended, epoch, model, requests⟩

end Conduct

namespace ActiveTurn

open Conduct TurnLoop

variable {around : Surroundings} {turnId : TurnId} {t t' : ActiveTurn} {p p' : Phase} {c : Conduct}

/-! ### A turn and its trace -/

/-- A run of the protocol. -/
def Conducts (around : Surroundings) (turnId : TurnId) (c : Conduct) (lines : List TraceEntry)
    (c' : Conduct) : Prop :=
  Path (Step around.maxRequests (around.backup.map (·.model)) turnId) c lines c'

/-- A turn whose trace stands at a stage. -/
def conduct (t : ActiveTurn) (stage : Stage) : Conduct :=
  ⟨stage, t.loop.epochIndex, t.loop.activeModel, t.requests⟩

/-- A turn and its trace stand at the same place. A request that is ready is counted, but has not
gone out. -/
inductive Follows (around : Surroundings) : Phase → ActiveTurn → Conduct → Prop where
  | free (s : Standing) (t : ActiveTurn) : Follows around (.free s) t (t.conduct (.idle s))
  | ready {s : Standing} {t : ActiveTurn} {n : ℕ} (provider : Backup) (request : BudgetedRequest)
      (hask : s.mayAsk = true) (hlimit : n < around.maxRequests) (hn : t.requests = n + 1) :
      Follows around (.ready provider request) t
        ⟨.idle s, t.loop.epochIndex, t.loop.activeModel, n⟩
  | streaming (collector : Collector) (t : ActiveTurn) :
      Follows around (.streaming collector) t (t.conduct (.streaming collector.showed))
  | batch (assistant : EventId) (calls : List ToolCallBlock) (joins kept : Bool) (s : Standing)
      (t : ActiveTurn) :
      Follows around (.batch assistant calls joins kept s) t
        (t.conduct (.behind assistant s calls.length))
  | ending (s : Standing) (t : ActiveTurn) : Follows around .ending t (t.conduct (.idle s))
  | ended (t : ActiveTurn) : Follows around .over t (t.conduct .ended)

/-- Only the model, its epoch and the count of requests matter. -/
lemma Follows.same (h : Follows around p t c) (hepoch : t'.loop.epochIndex = t.loop.epochIndex)
    (hmodel : t'.loop.activeModel = t.loop.activeModel) (hrequests : t'.requests = t.requests) :
    Follows around p t' c := by
  have hconduct : ∀ stage, t.conduct stage = t'.conduct stage := fun stage => by
    rw [conduct, conduct, hepoch, hmodel, hrequests]
  cases h with
  | free s t => exact hconduct _ ▸ .free s t'
  | ready provider request hask hlimit hn =>
    have h := Follows.ready provider request hask hlimit (hrequests.trans hn)
    rwa [hepoch, hmodel] at h
  | streaming collector t => exact hconduct _ ▸ .streaming collector t'
  | batch assistant calls joins kept s t =>
    exact hconduct _ ▸ .batch assistant calls joins kept s t'
  | ending s t => exact hconduct _ ▸ .ending s t'
  | ended t => exact hconduct _ ▸ .ended t'

/-! ### What one move writes -/

/-- Lines about the window leave a turn at its place. -/
lemma conducts_tells {loop loop' : TurnLoop} {s : Standing} {n : ℕ}
    (h : Relation.ReflTransGen (Tells around.env turnId) loop loop') :
    (loop'.epochIndex = loop.epochIndex ∧ loop'.activeModel = loop.activeModel) ∧
      ∃ lines, loop'.trace.entries = loop.trace.entries ++ lines ∧
        Conducts around turnId ⟨.idle s, loop.epochIndex, loop.activeModel, n⟩ lines
          ⟨.idle s, loop.epochIndex, loop.activeModel, n⟩ := by
  let R (a : TurnLoop) (c : Conduct) : Prop :=
    c = ⟨.idle s, loop.epochIndex, loop.activeModel, n⟩ ∧
      a.epochIndex = loop.epochIndex ∧ a.activeModel = loop.activeModel
  have hstep : ∀ a b c, Tells around.env turnId a b → R a c → ∃ lines c',
      b.trace.entries = a.trace.entries ++ lines ∧ Conducts around turnId c lines c' ∧ R b c' := by
    rintro a b c htells ⟨rfl, hepoch, hmodel⟩
    cases htells with
    | line hturn hquiet hline =>
      exact ⟨_, _, hline.entries, .single (.quiet hquiet hturn rfl), rfl,
        hline.epochIndex.trans hepoch, hline.activeModel.trans hmodel⟩
    | still entries lastSeq issued epochIndex activeModel =>
      exact ⟨[], _, entries.trans (List.append_nil _).symm, .refl, rfl, epochIndex.trans hepoch,
        activeModel.trans hmodel⟩
  obtain ⟨lines, c, hentries, hpath, rfl, hsame⟩ :=
    Path.of_reach (fun loop : TurnLoop => loop.trace.entries) R hstep h ⟨rfl, rfl, rfl⟩
  exact ⟨hsame, lines, hentries, hpath⟩

/-- Deltas are streamed from one collector to another. -/
structure Streams (around : Surroundings) (turnId : TurnId) (c c' : Collector) : Prop where
  epochIndex : c'.loop.epochIndex = c.loop.epochIndex
  activeModel : c'.loop.activeModel = c.loop.activeModel
  lines : ∃ lines, c'.loop.trace.entries = c.loop.trace.entries ++ lines ∧
    ∀ n, Conducts around turnId ⟨.streaming c.showed, c.loop.epochIndex, c.loop.activeModel, n⟩
      lines ⟨.streaming c'.showed, c.loop.epochIndex, c.loop.activeModel, n⟩

lemma Streams.trans {c c' c'' : Collector} (h : Streams around turnId c c')
    (h' : Streams around turnId c' c'') : Streams around turnId c c'' := by
  obtain ⟨lines, hentries, hpath⟩ := h.lines
  obtain ⟨lines', hentries', hpath'⟩ := h'.lines
  rw [h.epochIndex, h.activeModel] at hpath'
  refine ⟨h'.epochIndex.trans h.epochIndex, h'.activeModel.trans h.activeModel, lines ++ lines', ?_,
    fun n => (hpath n).trans (hpath' n)⟩
  rw [hentries', hentries, List.append_assoc]

lemma showed_appendText (content : List ContentBlock) (text : String) :
    (!(Collector.appendText content text).isEmpty) = true := by
  rw [Collector.appendText]
  split <;> simp

lemma showed_appendReasoning (content : List ContentBlock) (text : String)
    (provenance : ReasoningProvenance) :
    (!(Collector.appendReasoning content text provenance).isEmpty) = true := by
  rw [Collector.appendReasoning]
  split
  · split_ifs <;> simp
  · simp

/-- An event that leaves the window of the loop alone streams its delta, if it is one. -/
lemma emit_streams (c : Collector) (irreversible : Bool) (arrival : Arrival) :
    Streams around turnId c (c.emit around.env turnId irreversible arrival) := by
  have hstill : ∀ c' : Collector, c'.loop = c.loop → c'.content = c.content →
      Streams around turnId c c' := by
    intro c' hloop hcontent
    have hshowed : c'.showed = c.showed := by rw [Collector.showed, Collector.showed, hcontent]
    refine ⟨by rw [hloop], by rw [hloop], [], by rw [hloop, List.append_nil], fun n => ?_⟩
    rw [hshowed]
    exact .refl
  have hline : ∀ (c' : Collector) (event : AgentEvent), event.isDelta = true →
      c'.loop = c.loop.traceEvent around.env turnId event none → c'.showed = true →
      Streams around turnId c c' := by
    intro c' event hdelta hloop hshowed
    refine ⟨by rw [hloop]; rfl, by rw [hloop]; rfl,
      [.ofEnvelope (c.loop.trace.stamp (c.loop.newEnvelope around.env (some turnId) event none))],
      ?_, fun n => ?_⟩
    · rw [hloop]
      exact StoreTrace.emit_entries
    · rw [hshowed]
      exact .single (.delta hdelta ⟨rfl, rfl, rfl, rfl, rfl, rfl⟩)
  rw [Collector.emit]
  dsimp only
  split_ifs
  · exact hstill _ rfl rfl
  · exact hstill _ rfl rfl
  · split
    · exact hstill _ rfl rfl
    · cases arrival.event with
      | reasoningDelta text provenance =>
        exact hline _ _ rfl rfl (showed_appendReasoning c.content text provenance)
      | textDelta text => exact hline _ _ rfl rfl (showed_appendText c.content text)
      | tool event =>
        cases event with
        | toolCall call => exact hstill _ rfl rfl
        | toolCallRejected id name reason => exact hstill _ rfl rfl

lemma collect_streams (c : Collector) (irreversible : Bool) (arrivals : List Arrival) :
    Streams around turnId c (c.collect around.env turnId irreversible arrivals) := by
  induction arrivals generalizing c with
  | nil => exact ⟨rfl, rfl, [], (List.append_nil _).symm, fun n => .refl⟩
  | cons arrival rest ih => exact (emit_streams c irreversible arrival).trans (ih _)

/-- Reductions leave a call as it is. -/
lemma conducts_reductions {assistant last : EventId} {left : ℕ} {call : ToolRequested}
    {started : Bool} {lines : List TraceEntry}
    (h : ∀ line ∈ lines, ∃ reduced, Written turnId t.loop.epochIndex t.loop.activeModel
      (.contextReduced reduced) none line) :
    Conducts around turnId (t.conduct (.requested assistant left call started last)) lines
      (t.conduct (.requested assistant left call started last)) := by
  induction lines with
  | nil => exact .refl
  | cons line rest ih =>
    obtain ⟨reduced, hline⟩ := h line List.mem_cons_self
    exact .head (.reduce hline) (ih fun other hother => h other (List.mem_cons_of_mem _ hother))

/-- A call is requested, started if it is, and closed. -/
lemma closes_conducts {assistant : EventId} {joins : Bool} {call : ToolCallBlock} {left : ℕ}
    (h : Closes around turnId assistant joins call t t') :
    ∃ lines, t'.loop.trace.entries = t.loop.trace.entries ++ lines ∧
      Conducts around turnId (t.conduct (.calling assistant left)) lines
        (t'.conduct (.behind assistant .fresh left)) := by
  obtain ⟨lines, hentries, readOnly, requested, started, reductions, ended, event, rfl, hrequested,
    hstarted, hreductions, hended, hends⟩ := h.lines
  refine ⟨_, hentries, ?_⟩
  let stage (started : Bool) (last : EventId) : Conduct :=
    t.conduct (.requested assistant left (requestOf readOnly call) started last)
  have hreduced : ∀ (started : Bool) (last : EventId),
      Conducts around turnId (stage started last) reductions (stage started last) :=
    fun started last => conducts_reductions hreductions
  have hconduct : t'.conduct (.behind assistant .fresh left) =
      t.conduct (.behind assistant .fresh left) := by
    rw [conduct, conduct, h.epochIndex, h.activeModel, h.requests]
  rw [hconduct]
  refine .head (.request hrequested) ?_
  cases started with
  | none => exact (hreduced false _).tail (.close hends hended)
  | some line =>
    exact .head (.start (hstarted line rfl)) ((hreduced true _).tail (.close hends hended))

/-- A message that is recorded is one line. -/
lemma recorded_entries {event : AgentEvent} {message : Message} {parent : Option EventId}
    {loop : TurnLoop}
    (h : t.loop.recordMessage around.env turnId event message parent = .ok loop) :
    loop.trace.entries = t.loop.trace.entries ++ [t.lineOf around turnId event parent] ∧
      SameTurn around t { t with loop := loop } := by
  obtain ⟨loop', hok, -, hsame, -, hentries⟩ := t.record_ok around turnId event message parent
  rw [h] at hok
  cases hok
  exact ⟨hentries, hsame⟩

/-- What a move writes. -/
def Writes (around : Surroundings) (turnId : TurnId) (t : ActiveTurn) (c : Conduct) (p' : Phase)
    (t' : ActiveTurn) : Prop :=
  ∃ lines c', t'.loop.trace.entries = t.loop.trace.entries ++ lines ∧
    Conducts around turnId c lines c' ∧ Follows around p' t' c'

lemma writes_nothing (hentries : t'.loop.trace.entries = t.loop.trace.entries)
    (h : Follows around p' t' c) : Writes around turnId t c p' t' :=
  ⟨[], c, hentries.trans (List.append_nil _).symm, .refl, h⟩

lemma writes_line {c' : Conduct} {line : TraceEntry}
    (hentries : t'.loop.trace.entries = t.loop.trace.entries ++ [line])
    (hstep : Step around.maxRequests (around.backup.map (·.model)) turnId c line c')
    (h : Follows around p' t' c') : Writes around turnId t c p' t' :=
  ⟨[line], c', hentries, .single hstep, h⟩

/-- What a move writes is a run of the protocol. -/
lemma move_writes {a b : Phase × ActiveTurn} (h : Move around turnId a b)
    (hfollows : Follows around a.1 a.2 c) : Writes around turnId a.2 c b.1 b.2 := by
  cases h with
  | look p t => exact writes_nothing rfl (hfollows.same rfl rfl rfl)
  | tend htends =>
    exact writes_nothing (by rw [htends.loop])
      (hfollows.same (by rw [htends.loop]) (by rw [htends.loop]) htends.requests)
  | note s t level message =>
    cases hfollows
    exact writes_line (t.emitted_entries around turnId _ _) (.quiet rfl (.inr rfl) rfl) (.free s _)
  | @say s t event text loop hevent hrecord =>
    cases hfollows
    obtain ⟨hentries, hsame⟩ := recorded_entries hrecord
    exact writes_line hentries (.prompt hevent (t.written_lineOf around turnId _ _))
      ((Follows.free .fresh t).same hsame.epochIndex hsame.activeModel hsame.requests)
  | @reshape s t loop start hwindow =>
    cases hfollows
    obtain ⟨⟨hepoch, hmodel⟩, lines, hentries, hpath⟩ := conducts_tells hwindow.tells
    exact ⟨lines, _, hentries, hpath, (Follows.free s t).same hepoch hmodel rfl⟩
  | @spend s t provider request hask hbudget hrequest hfits =>
    cases hfollows
    exact writes_nothing rfl (.ready provider request hask hbudget rfl)
  | @ask t t' provider request messages tools streamed harmed collector hcollector hnext =>
    cases hfollows with
    | @ready s t n provider request hask hlimit hn =>
      -- the line of the request, and the deltas of its response
      let asked : AgentEvent := .modelRequestStarted ⟨t.loop.epochIndex, t.loop.activeModel,
        messages, estimateTokens request.request, tools⟩
      have hstreams : Streams around turnId
          (Collector.new (t.emitted around (some turnId) asked none).loop) collector :=
        hcollector ▸ collect_streams _ _ _
      obtain ⟨lines, hentries, hpath⟩ := hstreams.lines
      have hgone : Follows around (.streaming collector) t'
          ⟨.streaming collector.showed, t.loop.epochIndex, t.loop.activeModel, n + 1⟩ := by
        have hsame : Follows around (.streaming collector) t'
            (t.conduct (.streaming collector.showed)) :=
          (Follows.streaming collector t).same (by rw [hnext]; exact hstreams.epochIndex)
            (by rw [hnext]; exact hstreams.activeModel) (by rw [hnext])
        rwa [conduct, hn] at hsame
      refine ⟨t.lineOf around turnId asked none :: lines, _, ?_, ?_, hgone⟩
      · rw [hnext]
        exact hentries.trans ((congrArg (· ++ lines) (t.emitted_entries around turnId _ _)).trans
          (List.append_assoc _ _ _))
      · exact .head (.ask hask hlimit rfl rfl (t.written_lineOf around turnId _ _)) (hpath (n + 1))
  | @fail t collector completed joins hepoch hmodel hcount =>
    cases hfollows
    refine writes_line (t.emitted_entries around turnId _ _)
      (.complete hepoch hmodel (t.written_lineOf around turnId _ _)) ?_
    rw [hcount]
    exact .batch _ _ _ _ _ _
  | @answer t collector completed hepoch hmodel hcount hcalls =>
    cases hfollows
    have hfree : Follows around (.free (.after collector.showed completed.finishReason)) t
        (t.conduct (.behind (around.env.fresh t.loop.issued)
          (.after collector.showed completed.finishReason) completed.toolCalls)) := by
      rw [hcount, hcalls]
      exact .free _ t
    exact ⟨[t.lineOf around turnId (.modelRequestCompleted completed) none], _, rfl,
      .single (.complete hepoch hmodel (t.written_lineOf around turnId _ _)),
      hfree.same rfl rfl rfl⟩
  | @answerWith t collector completed content loop hepoch hmodel hcount hcontent hrecord =>
    cases hfollows
    obtain ⟨hentries, hsame⟩ := recorded_entries hrecord
    refine writes_line hentries (.complete hepoch hmodel (t.written_lineOf around turnId _ _)) ?_
    rw [hcount]
    exact (Follows.batch _ _ true true _ t).same hsame.epochIndex hsame.activeModel hsame.requests
  | close hcloses =>
    cases hfollows
    obtain ⟨lines, hentries, hpath⟩ := closes_conducts hcloses
    exact ⟨lines, _, hentries, hpath, .batch _ _ _ _ .fresh _⟩
  | settle hkept =>
    cases hfollows
    exact writes_nothing rfl (.free _ _)
  | drop =>
    cases hfollows
    exact writes_nothing rfl (.ending _ _)
  | abandon habandons =>
    cases hfollows
    exact writes_nothing (by rw [habandons.loop]) ((Follows.ending _ _).same
      (by rw [habandons.loop]) (by rw [habandons.loop]) habandons.requests)
  | noteEnding t level message =>
    cases hfollows
    exact writes_line (t.emitted_entries around turnId _ _) (.quiet rfl (.inr rfl) rfl)
      (.ending _ _)
  | retry t again =>
    cases hfollows
    exact writes_line (t.emitted_entries around turnId _ _)
      (.retry (t.written_lineOf around turnId _ _)) (.free .fresh _)
  | @takeOver t backup failover hbackup hother hsource htarget =>
    cases hfollows
    let left := t.emitted around (some turnId) (.modelFailover failover) none
    let arrived : AgentEvent := .modelEpochStarted
      ⟨t.loop.epochIndex + 1, backup.model, .automaticFailover, backup.capabilities⟩
    have hentries : (left.emitted around (some turnId) arrived none).loop.trace.entries =
        t.loop.trace.entries ++ [t.lineOf around turnId (.modelFailover failover) none,
          left.lineOf around turnId arrived none] := by
      rw [emitted_entries, emitted_entries, List.append_assoc, List.cons_append, List.nil_append]
    have hleave : Step around.maxRequests (around.backup.map (·.model)) turnId
        (t.conduct (.idle .silent)) (t.lineOf around turnId (.modelFailover failover) none)
        (t.conduct (.leaving failover.target)) :=
      .leave (by rw [hbackup, htarget]; rfl) hsource (htarget ▸ hother.symm)
        (t.written_lineOf around turnId _ _)
    rw [htarget] at hleave
    exact ⟨_, _, hentries, .head hleave (.single (.arrive (left.written_lineOf around turnId _ _))),
      .free .fresh _⟩
  | finish t status durationMs hp =>
    obtain rfl | ⟨s, rfl⟩ := hp
    · cases hfollows
      exact writes_line (t.emitted_entries around turnId _ _)
        (.finish (t.written_lineOf around turnId _ _)) (.ended _)
    · cases hfollows
      exact writes_line (t.emitted_entries around turnId _ _)
        (.finish (t.written_lineOf around turnId _ _)) (.ended _)

/-! ### A turn -/

/-- The conduct of a turn at its start. -/
def opening (t : ActiveTurn) : Conduct :=
  ⟨.idle (.shown false), t.loop.epochIndex, t.loop.activeModel, 0⟩

lemma runTurn_follows (around : Surroundings) (turnId : TurnId) (input : String)
    (externalContext : List (ExternalContextRetrieved × String)) (t : ActiveTurn) :
    ∃ p lines c, (runTurn around turnId input externalContext t).1.loop.trace.entries =
        t.loop.trace.entries ++ lines ∧
      Conducts around turnId t.opening lines c ∧
      Follows around p (runTurn around turnId input externalContext t).1 c ∧
      Ended (runTurn around turnId input externalContext t).2 p := by
  obtain ⟨p, hpath, hended⟩ := runTurn_moves around turnId input externalContext t
  obtain ⟨lines, c, hentries, hconduct, hfollows⟩ := Path.of_reach
    (fun b : Phase × ActiveTurn => b.2.loop.trace.entries) (fun b c => Follows around b.1 b.2 c)
    (fun a b c hmove hfollows => move_writes hmove hfollows) hpath (.free _ _)
  exact ⟨p, lines, c, hentries, hconduct, hfollows, hended⟩

/-- What a run of the protocol has cost: each request is counted, and the model changes at most
once, to the backup. -/
structure Costs (around : Surroundings) (start : Conduct) (lines : List TraceEntry) (c : Conduct) :
    Prop where
  requests : start.requests + requestStarts lines = c.requests
  limit : c.requests ≤ around.maxRequests
  model : epochStarts lines = 0 ∧ c.model = start.model ∧ c.epoch = start.epoch ∨
    epochStarts lines = 1 ∧ around.backup.map (·.model) = some c.model ∧
      c.epoch = start.epoch + 1
  leaving : ∀ target, c.stage = .leaving target →
    around.backup.map (·.model) = some target ∧ target ≠ c.model

variable {c' start : Conduct} {line : TraceEntry} {lines : List TraceEntry}

lemma requestStarts_append : requestStarts (lines ++ [line]) =
    requestStarts lines + if line.envelope.event.startsRequest then 1 else 0 := by
  rw [requestStarts, List.countP_append, List.countP_singleton, requestStarts]

lemma epochStarts_append : epochStarts (lines ++ [line]) =
    epochStarts lines + if line.envelope.event.startsEpoch then 1 else 0 := by
  rw [epochStarts, List.countP_append, List.countP_singleton, epochStarts]

/-- Most lines cost nothing. -/
lemma Costs.other (h : Costs around start lines c) {stage : Stage}
    (hrequest : line.envelope.event.startsRequest = false)
    (hepoch : line.envelope.event.startsEpoch = false)
    (hleaving : ∀ target, stage = .leaving target →
      around.backup.map (·.model) = some target ∧ target ≠ c.model) :
    Costs around start (lines ++ [line]) { c with stage := stage } := by
  have hrequests : requestStarts (lines ++ [line]) = requestStarts lines := by
    rw [requestStarts_append, hrequest]
    rfl
  have hepochs : epochStarts (lines ++ [line]) = epochStarts lines := by
    rw [epochStarts_append, hepoch]
    rfl
  exact ⟨by rw [hrequests, h.requests], h.limit, by rw [hepochs]; exact h.model, hleaving⟩

lemma starts_of_isQuiet {event : AgentEvent} (h : event.isQuiet = true) :
    event.startsRequest = false ∧ event.startsEpoch = false := by
  cases event <;> first | exact ⟨rfl, rfl⟩ | cases h

lemma starts_of_isPrompt {event : AgentEvent} (h : event.isPrompt = true) :
    event.startsRequest = false ∧ event.startsEpoch = false := by
  cases event <;> first | exact ⟨rfl, rfl⟩ | cases h

lemma starts_of_isDelta {event : AgentEvent} (h : event.isDelta = true) :
    event.startsRequest = false ∧ event.startsEpoch = false := by
  cases event <;> first | exact ⟨rfl, rfl⟩ | cases h

lemma starts_of_endsCall {event : AgentEvent} {call : ToolRequested} {started : Bool}
    (h : EndsCall call started event) :
    event.startsRequest = false ∧ event.startsEpoch = false := by
  cases event <;> first | exact ⟨rfl, rfl⟩ | cases h

lemma behind_ne_leaving {assistant : EventId} {s : Standing} {n : ℕ} (target : ModelRef) :
    Stage.behind assistant s n ≠ .leaving target := by
  cases n with
  | zero => exact fun h => by cases h
  | succ n => exact fun h => by cases h

/-- What one line costs. -/
lemma Costs.step (h : Costs around start lines c)
    (hstep : Step around.maxRequests (around.backup.map (·.model)) turnId c line c') :
    Costs around start (lines ++ [line]) c' := by
  cases hstep with
  | quiet hquiet hturn hparent =>
    have hnone := starts_of_isQuiet hquiet
    exact h.other hnone.1 hnone.2 fun target heq => by cases heq
  | prompt hprompt hline =>
    have hnone := starts_of_isPrompt hprompt
    exact h.other (hline.event ▸ hnone.1) (hline.event ▸ hnone.2) fun target heq => by cases heq
  | ask hask hlimit hepoch hmodel hline =>
    refine ⟨?_, hlimit, ?_, fun target heq => by cases heq⟩
    · rw [requestStarts_append, hline.event]
      exact (Nat.add_assoc _ _ _).symm.trans (congrArg (· + 1) h.requests)
    · rw [epochStarts_append, hline.event]
      exact h.model
  | delta hdelta hline =>
    have hnone := starts_of_isDelta hdelta
    exact h.other (hline.event ▸ hnone.1) (hline.event ▸ hnone.2) fun target heq => by cases heq
  | complete hepoch hmodel hline =>
    exact h.other (by rw [hline.event]; rfl) (by rw [hline.event]; rfl)
      fun target heq => absurd heq (behind_ne_leaving target)
  | request hline =>
    exact h.other (by rw [hline.event]; rfl) (by rw [hline.event]; rfl)
      fun target heq => by cases heq
  | start hline =>
    exact h.other (by rw [hline.event]; rfl) (by rw [hline.event]; rfl)
      fun target heq => by cases heq
  | reduce hline =>
    exact h.other (by rw [hline.event]; rfl) (by rw [hline.event]; rfl)
      fun target heq => by cases heq
  | close hends hline =>
    have hnone := starts_of_endsCall hends
    exact h.other (hline.event ▸ hnone.1) (hline.event ▸ hnone.2)
      fun target heq => absurd heq (behind_ne_leaving target)
  | retry hline =>
    exact h.other (by rw [hline.event]; rfl) (by rw [hline.event]; rfl)
      fun target heq => by cases heq
  | leave hbackup hsource hother hline =>
    refine h.other (by rw [hline.event]; rfl) (by rw [hline.event]; rfl) fun target heq => ?_
    cases heq
    exact ⟨hbackup, hother⟩
  | arrive hline =>
    obtain ⟨hbackup, hother⟩ := h.leaving _ rfl
    refine ⟨?_, h.limit, .inr ?_, fun target heq => by cases heq⟩
    · rw [requestStarts_append, hline.event]
      exact h.requests
    · -- the model is not the backup yet, so no epoch was started before
      rw [epochStarts_append, hline.event]
      obtain ⟨hnone, -, hepoch⟩ | ⟨-, hmodel, -⟩ := h.model
      · exact ⟨by rw [hnone]; rfl, hbackup, congrArg (· + 1) hepoch⟩
      · exact absurd (Option.some.inj (hbackup.symm.trans hmodel)) hother
  | finish hline =>
    exact h.other (by rw [hline.event]; rfl) (by rw [hline.event]; rfl)
      fun target heq => by cases heq

end ActiveTurn

end Rupi
