import Rupi.Runtime.Conduct
import Rupi.Store.Lifecycles
import Rupi.Store.RequestLifecycles

/-!
What a turn writes is what resume accepts.

- `Opens`: the requests that a trace leaves open, by where it stands.
- **`runTurn_requests_recover`**: wherever a turn dies, its requests are recovered.
- `Holding`: the calls that a trace leaves open.
- **`runTurn_tools_accepted`**: wherever a turn dies, its calls are read back, if they have names
  to be told by.
-/

namespace Rupi

open Attempt Labelled Conduct

namespace ActiveTurn

variable {around : Surroundings} {turnId : TurnId} {c c' : Conduct} {line : TraceEntry}
  {session : SessionId}

/-! ### Requests -/

/-- A request is open while its response is streamed. -/
inductive Opens (turnId : TurnId) : Conduct → List OpenModelRequest → Prop where
  | none {c : Conduct} (h : ∀ showed, c.stage ≠ .streaming showed) : Opens turnId c []
  | one {showed : Bool} {epoch requests : ℕ} {model : ModelRef} {request : OpenModelRequest}
      (h : request.key = (some turnId, epoch, model)) :
      Opens turnId ⟨.streaming showed, epoch, model, requests⟩ [request]

lemma Opens.length_le {opened : List OpenModelRequest} (h : Opens turnId c opened) :
    opened.length ≤ 1 := by
  cases h with
  | none h => exact Nat.zero_le 1
  | one h => exact le_rfl

lemma behind_ne_streaming {assistant : EventId} {s : Standing} {n : ℕ} (showed : Bool) :
    Stage.behind assistant s n ≠ .streaming showed := by
  cases n with
  | zero => exact fun h => by cases h
  | succ n => exact fun h => by cases h

/-- The lines between two requests. -/
lemma boundsRequest_of_isQuiet {event : AgentEvent} (h : event.isQuiet = true) :
    event.boundsRequest = false := by
  cases event <;> first | rfl | cases h

lemma boundsRequest_of_isPrompt {event : AgentEvent} (h : event.isPrompt = true) :
    event.boundsRequest = false := by
  cases event <;> first | rfl | cases h

lemma boundsRequest_of_isDelta {event : AgentEvent} (h : event.isDelta = true) :
    event.boundsRequest = false := by
  cases event <;> first | rfl | cases h

lemma boundsRequest_of_endsCall {event : AgentEvent} {call : ToolRequested} {started : Bool}
    (h : EndsCall call started event) : event.boundsRequest = false := by
  cases event <;> first | rfl | cases h

/-- A line of a turn has the epoch and the model of the turn. -/
lemma Written.agrees {epoch : ℕ} {model : ModelRef} {event : AgentEvent}
    {parent : Option EventId} (h : Written turnId epoch model event parent line) :
    requestMetaAgrees line epoch model = true := by
  rw [requestMetaAgrees, h.epoch, h.model]
  exact Bool.and_eq_true_iff.2 ⟨decide_eq_true rfl, decide_eq_true rfl⟩

/-- The inspection takes every line of the protocol. -/
lemma opens_step {opened : List OpenModelRequest}
    (hstep : Step around.maxRequests (around.backup.map (·.model)) turnId c line c')
    (h : Opens turnId c opened) :
    ∃ opened', inspectModelRequest session opened line = .ok opened' ∧ Opens turnId c' opened' := by
  have hother : line.envelope.event.boundsRequest = false →
      (∀ showed, c.stage ≠ .streaming showed) → (∀ showed, c'.stage ≠ .streaming showed) →
      ∃ opened', inspectModelRequest session opened line = .ok opened' ∧
        Opens turnId c' opened' := by
    intro hevent hstage hstage'
    cases h with
    | none h => exact ⟨[], inspect_other hevent, .none hstage'⟩
    | one hkey => exact absurd rfl (hstage _)
  have hidle : ∀ s showed, Stage.idle s ≠ .streaming showed := fun s showed h => by cases h
  have hcall : ∀ assistant left call started last showed,
      Stage.requested assistant left call started last ≠ .streaming showed :=
    fun _ _ _ _ _ _ h => by cases h
  cases hstep with
  | quiet hquiet hturn hparent => exact hother (boundsRequest_of_isQuiet hquiet) (hidle _) (hidle _)
  | prompt hprompt hline =>
    exact hother (hline.event ▸ boundsRequest_of_isPrompt hprompt) (hidle _) (hidle _)
  | @ask s epoch requests model line started hask hlimit hepoch hmodel hline =>
    cases h
    have hkey : (line.envelope.eventMeta.turnId, started.epoch, started.model) =
        (some turnId, epoch, model) := by rw [hline.turn, hepoch, hmodel]
    refine ⟨_, inspect_start hline.event (by rw [hline.turn]; exact Option.some_ne_none _)
      (by rw [hepoch, hmodel]; exact hline.agrees)
        fun other hother => absurd hother List.not_mem_nil, .one hkey⟩
  | delta hdelta hline =>
    cases h with
    | none h => exact absurd rfl (h _)
    | one hkey =>
      exact ⟨_, inspect_other (hline.event ▸ boundsRequest_of_isDelta hdelta), .one hkey⟩
  | @complete showed epoch requests model line completed hepoch hmodel hline =>
    cases h with
    | none h => exact absurd rfl (h _)
    | one hkey =>
      refine ⟨[], inspect_complete hline.event (by rw [hline.turn]; exact Option.some_ne_none _)
        (by rw [hepoch, hmodel]; exact hline.agrees) ?_
          fun other hother => absurd hother List.not_mem_nil,
        .none fun showed => behind_ne_streaming showed⟩
      rw [hkey, hline.turn, hepoch, hmodel]
  | request hline =>
    exact hother (by rw [hline.event]; rfl) (fun showed h => by cases h) (hcall _ _ _ _ _)
  | start hline => exact hother (by rw [hline.event]; rfl) (hcall _ _ _ _ _) (hcall _ _ _ _ _)
  | reduce hline => exact hother (by rw [hline.event]; rfl) (hcall _ _ _ _ _) (hcall _ _ _ _ _)
  | close hends hline =>
    exact hother (hline.event ▸ boundsRequest_of_endsCall hends) (hcall _ _ _ _ _)
      fun showed => behind_ne_streaming showed
  | retry hline => exact hother (by rw [hline.event]; rfl) (hidle _) (hidle _)
  | leave hbackup hsource htarget hline =>
    exact hother (by rw [hline.event]; rfl) (hidle _) fun showed h => by cases h
  | arrive hline => exact hother (by rw [hline.event]; rfl) (fun showed h => by cases h) (hidle _)
  | finish hline => exact hother (by rw [hline.event]; rfl) (hidle _) fun showed h => by cases h

/-- The inspection takes every run of the protocol. -/
lemma opens_run {lines entries : List TraceEntry} (t : ActiveTurn)
    (hpath : Conducts around turnId t.opening lines c)
    (hvalid : validateModelRequestLifecycles session entries = .ok ()) :
    ∃ opened, inspectModelRequestLifecycles session (entries ++ lines) = .ok opened ∧
      Opens turnId c opened := by
  have hstep : ∀ line ∈ lines, ∀ c c' opened,
      Step around.maxRequests (around.backup.map (·.model)) turnId c line c' →
      Opens turnId c opened → ∃ opened', inspectModelRequest session opened line = .ok opened' ∧
        Opens turnId c' opened' := fun _ _ _ _ _ hstep hopens => opens_step hstep hopens
  obtain ⟨opened, hscan, hopens⟩ := hpath.scan hstep (.none fun showed h => by cases h)
  exact ⟨opened, Fallible.scan_append_eq_ok.2 ⟨[], validate_eq_ok.1 hvalid, hscan⟩, hopens⟩

/-- **Requests of a turn that dies**: wherever its lines stop, at most one request is open, and
recovery closes it; a turn that ends leaves none. -/
theorem runTurn_requests_recover (around : Surroundings) (turnId : TurnId) (input : String)
    (externalContext : List (ExternalContextRetrieved × String)) (t : ActiveTurn) (env : Env)
    (hvalid : validateModelRequestLifecycles env.session t.loop.trace.entries = .ok ()) :
    ∃ lines, (runTurn around turnId input externalContext t).1.loop.trace.entries =
        t.loop.trace.entries ++ lines ∧
      (∀ (trace : StoreTrace) (issued : ℕ) (written : List TraceEntry), written <+: lines →
        trace.entries = t.loop.trace.entries ++ written →
        ∃ opened trace', inspectModelRequestLifecycles env.session trace.entries = .ok opened ∧
          opened.length ≤ 1 ∧ recoverAbandonedModelRequests env issued trace = .ok trace' ∧
          validateModelRequestLifecycles env.session trace'.entries = .ok ()) ∧
      ∀ how, (runTurn around turnId input externalContext t).2 = .ok how →
        validateModelRequestLifecycles env.session
          (runTurn around turnId input externalContext t).1.loop.trace.entries = .ok () := by
  obtain ⟨p, lines, c, hentries, hpath, hfollows, hended⟩ :=
    runTurn_follows around turnId input externalContext t
  refine ⟨lines, hentries, ?_, fun how hok => ?_⟩
  · rintro trace issued written ⟨rest, rfl⟩ htrace
    obtain ⟨mid, hfront, -⟩ := Path.of_append hpath
    obtain ⟨opened, hinspect, hopens⟩ := opens_run t hfront hvalid
    rw [← htrace] at hinspect
    obtain ⟨-, hall⟩ := inspect_closeRequests issued (openApart_of_inspect hinspect) hinspect
    exact ⟨opened, _, hinspect, hopens.length_le, Fallible.bind_eq_ok.2 ⟨opened, hinspect, rfl⟩,
      validate_eq_ok.2 hall⟩
  · rw [hok] at hended
    obtain rfl : p = .over := hended
    obtain ⟨opened, hinspect, hopens⟩ := opens_run t hpath hvalid
    cases hfollows
    cases hopens
    rw [hentries]
    exact validate_eq_ok.2 hinspect

/-! ### Calls -/

/-- A call is on record as requested, and `last` is the line that its end refers to. -/
structure OnRecord (turnId : TurnId) (epoch : ℕ) (model : ModelRef) (call : ToolRequested)
    (started : Bool) (last : EventId) (found : PendingToolLifecycle) : Prop where
  last : if started then found.startedEventId = some last else found.request.eventId = last
  started : found.started = started
  requested : found.requested = call
  turn : found.request.envelope.eventMeta.turnId = some turnId
  epoch : found.request.envelope.eventMeta.modelEpoch = some epoch
  model : found.request.envelope.eventMeta.model = some model

/-- It is the only open call. -/
def IsOnly (found : PendingToolLifecycle) (pending : PendingTools) : Prop :=
  ∀ id : EventId, pending[id]? = if found.request.eventId = id then some found else none

/-- A call is open from its request to its end. -/
inductive Holding (turnId : TurnId) : Conduct → LifecycleScan → Prop where
  | none {c : Conduct} {s : LifecycleScan}
      (hstage : ∀ assistant left call started last,
        c.stage ≠ .requested assistant left call started last)
      (h : ∀ id : EventId, s.pending[id]? = none) : Holding turnId c s
  | one {assistant last : EventId} {left epoch requests : ℕ} {call : ToolRequested}
      {started : Bool} {model : ModelRef} {found : PendingToolLifecycle} {s : LifecycleScan}
      (h : OnRecord turnId epoch model call started last found) (honly : IsOnly found s.pending) :
      Holding turnId ⟨.requested assistant left call started last, epoch, model, requests⟩ s

variable {s : LifecycleScan} {found : PendingToolLifecycle} {epoch : ℕ} {model : ModelRef}
  {call : ToolRequested} {started : Bool} {last : EventId} {event : AgentEvent}
  {parent : Option EventId}

/-- The end of the only open call is resolved to it. -/
lemma resolve_only (h : OnRecord turnId epoch model call started last found)
    (honly : IsOnly found s.pending)
    (hparent : line.envelope.eventMeta.parentEventId = some last) (callId : ToolCallId) :
    s.resolve line callId = .ok (found.request.eventId, found) := by
  have hlast : found.request.eventId = last ∨ found.startedEventId = some last := by
    cases started with
    | false => exact .inl h.last
    | true => exact .inr h.last
  have hresolve : resolvePendingTool s.pending line callId =
      .ok (found.request.eventId, found) := by
    rw [resolvePendingTool, hparent]
    dsimp only
    rw [honly last]
    split_ifs with heq
    · rw [← heq]
    · have hmem : (found.request.eventId, found) ∈ s.pending.toList :=
        Std.TreeMap.mem_toList_iff_getElem?_eq_some.2 ((honly _).trans (if_pos rfl))
      cases hfind : s.pending.toList.find? fun p => p.2.startedEventId = some last with
      | none =>
        exact absurd (decide_eq_true (hlast.resolve_left heq))
          (List.find?_eq_none.1 hfind _ hmem)
      | some other =>
        have hother : s.pending[other.1]? = some other.2 :=
          Std.TreeMap.mem_toList_iff_getElem?_eq_some.1 (List.mem_of_find?_eq_some hfind)
        rw [honly] at hother
        split_ifs at hother with hid
        rw [hid, Option.some.inj hother]
  rw [LifecycleScan.resolve, hresolve]
  rfl

/-- A line of a turn agrees with the call that it is about. -/
lemma OnRecord.agrees (h : OnRecord turnId epoch model call started last found)
    (hline : Written turnId epoch model event parent line) :
    found.agrees line call.callId call.name = true := by
  rw [PendingToolLifecycle.agrees, toolCallMetadataMatches, h.requested, h.turn, h.epoch, h.model,
    hline.turn, hline.epoch, hline.model, hline.call]
  simp

/-- One call joins an empty record, or takes the place of the only one. -/
lemma isOnly_insert (h : ∀ id : EventId, id ≠ found.request.eventId → s.pending[id]? = none) :
    IsOnly found (s.pending.insert found.request.eventId found) := by
  intro id
  rw [Std.TreeMap.getElem?_insert]
  simp only [Std.LawfulEqCmp.compare_eq_iff_eq]
  split_ifs with heq
  · rfl
  · exact h id (Ne.symm heq)

/-- The scan takes a request whose call has an id. -/
lemma scan_request (hempty : ∀ id : EventId, s.pending[id]? = none)
    (hline : Written turnId epoch model (.toolRequested call) parent line)
    (hid : call.callId ≠ "") :
    ∃ s' found, scanLifecycle s line = .ok s' ∧
      OnRecord turnId epoch model call false line.eventId found ∧ IsOnly found s'.pending := by
  have hfree : s.pending.contains line.eventId = false := by
    rw [Std.TreeMap.contains_eq_isSome_getElem?, hempty]
    rfl
  obtain ⟨⟨v, about, event⟩, redactions, rawPayload, rawRef, externalized⟩ := line
  obtain ⟨hevent, hturn, hepoch, hmodel, -, hcall⟩ := hline
  cases hevent
  let found : PendingToolLifecycle := ⟨⟨⟨v, about, .toolRequested call⟩, redactions, rawPayload,
    rawRef, externalized⟩, call, rfl, false, none⟩
  refine ⟨⟨s.pending.insert found.request.eventId found, s.ordered ++ [found.request.eventId]⟩,
    found, ?_, ⟨rfl, rfl, rfl, hturn, hepoch, hmodel⟩, isOnly_insert fun id _ => hempty id⟩
  have hmatches : toolCallMetadataMatches found.request call.callId = true := by
    rw [toolCallMetadataMatches, hcall]
    rfl
  rw [scanLifecycle]
  dsimp only at hturn hfree ⊢
  rw [if_neg (by rw [hturn, hmatches]; simp [hid]),
    if_neg (by rw [hfree]; exact Bool.false_ne_true)]

/-- The scan takes the start of the call that is on record. -/
lemma scan_start (h : OnRecord turnId epoch model call false last found)
    (honly : IsOnly found s.pending)
    (hline : Written turnId epoch model (.toolStarted ⟨call.callId, call.name⟩) (some last) line) :
    ∃ s' begun, scanLifecycle s line = .ok s' ∧
      OnRecord turnId epoch model call true line.eventId begun ∧ IsOnly begun s'.pending := by
  have hresolve := resolve_only h honly hline.parent call.callId
  have hagrees := h.agrees hline
  have hparent := hline.parent
  have hevent := hline.event
  obtain ⟨⟨v, about, event⟩, redactions, rawPayload, rawRef, externalized⟩ := line
  cases hevent
  let begun : PendingToolLifecycle :=
    { found with started := true, startedEventId := some about.eventId }
  refine ⟨{ s with pending := s.pending.insert found.request.eventId begun }, begun, ?_,
    ⟨rfl, rfl, h.requested, h.turn, h.epoch, h.model⟩,
    isOnly_insert fun id hid => (honly id).trans (if_neg (Ne.symm hid))⟩
  rw [scanLifecycle]
  refine Fallible.bind_eq_ok.2 ⟨_, hresolve, ?_⟩
  dsimp only at hparent ⊢
  rw [if_neg (by rw [h.started]; exact Bool.false_ne_true), if_neg]
  rw [hparent, hagrees, h.last]
  simp

/-- The scan takes the end of the call that is on record. -/
lemma scan_close (h : OnRecord turnId epoch model call started last found)
    (honly : IsOnly found s.pending) (hends : EndsCall call started event)
    (hline : Written turnId epoch model event (some last) line) :
    ∃ s', scanLifecycle s line = .ok s' ∧ ∀ id : EventId, s'.pending[id]? = none := by
  have hresolve := resolve_only h honly hline.parent call.callId
  have hagrees := h.agrees hline
  have hevent := hline.event
  refine ⟨{ s with pending := s.pending.erase found.request.eventId }, ?_, fun id => ?_⟩
  · obtain ⟨⟨v, about, event'⟩, redactions, rawPayload, rawRef, externalized⟩ := line
    obtain rfl : event' = event := hevent
    cases event'
    case toolCompleted ended =>
      obtain ⟨hid, hname, hstate, hstarted⟩ := hends
      rw [scanLifecycle]
      dsimp only
      rw [hid, hname]
      refine Fallible.bind_eq_ok.2 ⟨_, hresolve, ?_⟩
      dsimp only
      rw [if_neg (by rw [h.started, hstarted]; simp), if_neg (by rw [hagrees]; simp),
        if_neg (not_not.2 hstate)]
    case toolFailed ended =>
      obtain ⟨hid, hname⟩ := hends
      rw [scanLifecycle]
      dsimp only
      rw [hid, hname]
      refine Fallible.bind_eq_ok.2 ⟨_, hresolve, ?_⟩
      dsimp only
      rw [if_neg (by rw [hagrees]; simp)]
    case toolUnknown ended =>
      obtain ⟨hid, hname, hmutating⟩ := hends
      rw [scanLifecycle]
      dsimp only
      rw [hid, hname]
      refine Fallible.bind_eq_ok.2 ⟨_, hresolve, ?_⟩
      dsimp only
      rw [if_neg (by rw [hagrees, hmutating, h.requested]; simp)]
    all_goals cases hends
  · rw [Std.TreeMap.getElem?_erase]
    simp only [Std.LawfulEqCmp.compare_eq_iff_eq]
    split_ifs with heq
    · rfl
    · exact (honly id).trans (if_neg heq)

/-- A line that is about no call changes nothing. -/
lemma scan_other (h : line.envelope.event.toolCall = none) : scanLifecycle s line = .ok s := by
  obtain ⟨⟨v, about, event⟩, redactions, rawPayload, rawRef, externalized⟩ := line
  cases event <;> first | rfl | cases h

lemma toolCall_of_isQuiet {event : AgentEvent} (h : event.isQuiet = true) :
    event.toolCall = none := by
  cases event <;> first | rfl | cases h

lemma toolCall_of_isPrompt {event : AgentEvent} (h : event.isPrompt = true) :
    event.toolCall = none := by
  cases event <;> first | rfl | cases h

lemma toolCall_of_isDelta {event : AgentEvent} (h : event.isDelta = true) :
    event.toolCall = none := by
  cases event <;> first | rfl | cases h

lemma behind_ne_requested {assistant : EventId} {s : Standing} {n : ℕ} (a : EventId) (left : ℕ)
    (call : ToolRequested) (started : Bool) (last : EventId) :
    Stage.behind assistant s n ≠ .requested a left call started last := by
  cases n with
  | zero => exact fun h => by cases h
  | succ n => exact fun h => by cases h

/-- The call of a line has an id. -/
def HasCallId (line : TraceEntry) : Prop :=
  ∀ call, line.envelope.event = .toolRequested call → call.callId ≠ ""

/-- The scan takes every line of the protocol whose call has an id. -/
lemma holding_step
    (hstep : Step around.maxRequests (around.backup.map (·.model)) turnId c line c')
    (h : Holding turnId c s) (hid : HasCallId line) :
    ∃ s', scanLifecycle s line = .ok s' ∧ Holding turnId c' s' := by
  have hother : line.envelope.event.toolCall = none →
      (∀ assistant left call started last,
        c.stage ≠ .requested assistant left call started last) →
      (∀ assistant left call started last,
        c'.stage ≠ .requested assistant left call started last) →
      ∃ s', scanLifecycle s line = .ok s' ∧ Holding turnId c' s' := by
    intro hevent hstage hstage'
    cases h with
    | none _ hempty => exact ⟨s, scan_other hevent, .none hstage' hempty⟩
    | one honRecord honly => exact absurd rfl (hstage _ _ _ _ _)
  have hidle : ∀ standing assistant left call started last,
      Stage.idle standing ≠ .requested assistant left call started last :=
    fun _ _ _ _ _ _ h => by cases h
  have hstreaming : ∀ showed assistant left call started last,
      Stage.streaming showed ≠ .requested assistant left call started last :=
    fun _ _ _ _ _ _ h => by cases h
  cases hstep with
  | quiet hquiet hturn hparent => exact hother (toolCall_of_isQuiet hquiet) (hidle _) (hidle _)
  | prompt hprompt hline =>
    exact hother (hline.event ▸ toolCall_of_isPrompt hprompt) (hidle _) (hidle _)
  | ask hask hlimit hepoch hmodel hline =>
    exact hother (by rw [hline.event]; rfl) (hidle _) (hstreaming _)
  | delta hdelta hline =>
    exact hother (hline.event ▸ toolCall_of_isDelta hdelta) (hstreaming _) (hstreaming _)
  | complete hepoch hmodel hline =>
    exact hother (by rw [hline.event]; rfl) (hstreaming _) behind_ne_requested
  | request hline =>
    cases h with
    | none _ hempty =>
      obtain ⟨s', found, hscan, honRecord, honly⟩ :=
        scan_request hempty hline (hid _ hline.event)
      exact ⟨s', hscan, .one honRecord honly⟩
  | start hline =>
    cases h with
    | none hstage => exact absurd rfl (hstage _ _ _ _ _)
    | one honRecord honly =>
      obtain ⟨s', begun, hscan, hbegun, honly'⟩ := scan_start honRecord honly hline
      exact ⟨s', hscan, .one hbegun honly'⟩
  | reduce hline =>
    cases h with
    | none hstage => exact absurd rfl (hstage _ _ _ _ _)
    | one honRecord honly =>
      exact ⟨s, scan_other (by rw [hline.event]; rfl), .one honRecord honly⟩
  | close hends hline =>
    cases h with
    | none hstage => exact absurd rfl (hstage _ _ _ _ _)
    | one honRecord honly =>
      obtain ⟨s', hscan, hempty⟩ := scan_close honRecord honly hends hline
      exact ⟨s', hscan, .none behind_ne_requested hempty⟩
  | retry hline => exact hother (by rw [hline.event]; rfl) (hidle _) (hidle _)
  | leave hbackup hsource htarget hline =>
    exact hother (by rw [hline.event]; rfl) (hidle _) fun _ _ _ _ _ h => by cases h
  | arrive hline =>
    exact hother (by rw [hline.event]; rfl) (fun _ _ _ _ _ h => by cases h) (hidle _)
  | finish hline =>
    exact hother (by rw [hline.event]; rfl) (hidle _) fun _ _ _ _ _ h => by cases h

/-! ### What the scan reads back -/

lemma takeOrdered_empty {pending : PendingTools} {ids : List EventId}
    (h : ∀ id : EventId, pending[id]? = none) : takeOrdered pending ids = [] := by
  induction ids with
  | nil => rfl
  | cons id ids ih => rw [takeOrdered, h id, ih]

lemma takeOrdered_only {pending : PendingTools} {ids : List EventId} (h : IsOnly found pending) :
    (takeOrdered pending ids).length ≤ 1 := by
  induction ids with
  | nil => exact Nat.zero_le 1
  | cons id ids ih =>
    rw [takeOrdered, h id]
    split_ifs with heq
    · have herased : ∀ other : EventId, (pending.erase id)[other]? = none := by
        intro other
        rw [Std.TreeMap.getElem?_erase, h other, heq]
        simp only [Std.LawfulEqCmp.compare_eq_iff_eq]
        split_ifs <;> rfl
      dsimp only
      rw [takeOrdered_empty herased]
      exact le_rfl
    · exact ih

/-- A scan that reads no call back has none on record. -/
lemma empty_of_scan {entries : List TraceEntry} (h : scanToolLifecycles entries = .ok []) :
    ∃ s, Fallible.scan scanLifecycle .start entries = .ok s ∧
      ∀ id : EventId, s.pending[id]? = none := by
  obtain ⟨s, hscan, htaken⟩ := Fallible.bind_eq_ok.1 h
  obtain ⟨history, -, htracked⟩ := tracked_of_scan hscan
  refine ⟨s, hscan, fun id => ?_⟩
  cases hid : s.pending[id]? with
  | none => rfl
  | some call =>
    have hlive := htracked.agree id
    rw [hid] at hlive
    obtain ⟨lifecycle, hlifecycle, -⟩ := Option.map_eq_some_iff.1 hlive.symm
    have hmem : call ∈ takeOrdered s.pending s.ordered :=
      mem_takeOrdered.2 ⟨id, htracked.ordered id lifecycle hlifecycle, hid⟩
    rw [Except.ok.inj htaken] at hmem
    exact absurd hmem List.not_mem_nil

/-- The scan takes every run of the protocol whose calls have ids. -/
lemma holding_run {lines entries : List TraceEntry} (t : ActiveTurn)
    (hpath : Conducts around turnId t.opening lines c) (hids : ∀ line ∈ lines, HasCallId line)
    (hsettled : scanToolLifecycles entries = .ok []) :
    ∃ s, Fallible.scan scanLifecycle .start (entries ++ lines) = .ok s ∧ Holding turnId c s := by
  obtain ⟨s₀, hscan₀, hempty⟩ := empty_of_scan hsettled
  obtain ⟨s, hscan, hholding⟩ := hpath.scan
    (fun line hline _ _ s hstep hholding => holding_step hstep hholding (hids line hline))
    (.none (fun _ _ _ _ _ h => by cases h) hempty)
  exact ⟨s, Fallible.scan_append_eq_ok.2 ⟨s₀, hscan₀, hscan⟩, hholding⟩

/-- The scan takes a call only if it has an id. -/
lemma hasCallId_of_scan {lines : List TraceEntry} {s' : LifecycleScan}
    (h : Fallible.scan scanLifecycle s lines = .ok s') : ∀ line ∈ lines, HasCallId line := by
  induction lines generalizing s with
  | nil => exact fun line hline => absurd hline List.not_mem_nil
  | cons first rest ih =>
    obtain ⟨mid, hfirst, hrest⟩ := Fallible.bind_eq_ok.1 h
    intro line hline
    rcases List.mem_cons.1 hline with rfl | hline
    · intro call hevent hempty
      obtain ⟨⟨v, about, event⟩, redactions, rawPayload, rawRef, externalized⟩ := line
      cases hevent
      rw [scanLifecycle] at hfirst
      dsimp only at hfirst
      rw [if_pos (by simp [hempty])] at hfirst
      cases hfirst
    · exact ih hrest line hline

end ActiveTurn

/-! ### A small turn -/

namespace SmallTurn

def model : AttachedModel := ⟨⟨"p", "m"⟩, ⟨true, false, true, .none, 1000, none⟩⟩

/-- The model asks for a tool that is not there, and answers when the call is refused. -/
def stream (request : BudgetedRequest) : Streamed where
  arrivals :=
    if request.request.messages.length = 1 then [⟨1, .tool (.toolCall ⟨"c", "read", .null⟩)⟩]
    else [⟨1, .textDelta "done"⟩]
  irreversible := false
  outcome := .ok ⟨none, none, none, none, none, none, none, some "stop", true⟩
  durationMs := 1

def around : Surroundings where
  env := DiedStreaming.env
  primary := model
  backup := none
  failover := ⟨none, none, 1, model.capabilities⟩
  maxRequests := 3
  system := none
  summarizes := false
  autoCheckpoint := false
  interactiveToolApproval := false
  autoApprovesMutating := false
  progressRequestLimit := none
  progressToolNames := []
  synthesizeCapsule _ _ reason := ⟨1, reason, [], [], [], "", [], [], []⟩
  cancelled _ := false
  mutatingApprovalAvailable _ := false
  approve _ _ _ := .deny "no"
  registry _ := ⟨1000, [], List.nodup_nil, [], [], none⟩
  interrupted _ := false
  stream _ _ request := stream request
  elapsedMs _ := 1
  policy _ _ _ := .keep
  warning _ _ _ := none
  sinceLastCompactionMs _ := 0

def turn : ActiveTurn where
  loop := { RequestRun.loop with messages := [], messageSeqs := [] }
  requests := 0
  historyStart := 0
  withoutProgress := 0
  boundaryActive := false
  boundaryUsed := false
  toolsEnabled := true
  approvalAvailable := false
  report := ⟨.completed, "", 0, 0, 0, 0, false⟩
  cancelled := false
  looks := 0
  acts := []

end SmallTurn

namespace ActiveTurn

/-- Whatever becomes of the small turn, it leaves no request open. -/
theorem runTurn_requests_recover_small : ∃ lines,
    lines = (runTurn SmallTurn.around "t" "hello" [] SmallTurn.turn).1.loop.trace.entries ∧
      ∀ how, (runTurn SmallTurn.around "t" "hello" [] SmallTurn.turn).2 = .ok how →
        validateModelRequestLifecycles "s" lines = .ok () := by
  obtain ⟨lines, -, -, hended⟩ :=
    runTurn_requests_recover SmallTurn.around "t" "hello" [] SmallTurn.turn DiedStreaming.env rfl
  exact ⟨_, rfl, hended⟩

end ActiveTurn

end Rupi
