import Rupi.Worker.Service

/-!
What a step of the worker can do.

- `Move`: the moves of a step, each with what it found and what it leaves.
- **`fire_move`**: every step is one of them.
-/

namespace Rupi

/-- An event of a step that changes nothing. -/
def WorkerEvent.IsQuiet : WorkerEvent → Prop
  | .idle | .refused _ | .alreadyTerminal _ _ | .waiting _ | .snapshot _ => True
  | _ => False

namespace WorkerSystem

variable {s : WorkerSystem}

/-- The moves of a step. -/
inductive Move (s : WorkerSystem) : WorkerInput → WorkerSystem → WorkerEvent → Prop
  | stay {input : WorkerInput} {event : WorkerEvent} (hquiet : event.IsQuiet) :
    Move s input s event
  | closed {input : WorkerInput} {call : Nat} {error : WorkerError} :
    Move s input (s.setCall call none) (.refused error)
  | handle {call : Nat} {expired : Bool} {id run : String} {waitMs : Option Nat}
      {session : WorkerSession} (hcall : s.calls call = some (.waiting id run waitMs))
      (hsession : s.sessions id = some session) :
    Move s (.readHandle call expired) (s.setCall call none)
      (.handle ⟨id, some run, session.state.status, resourceUris id⟩)
  | started {call : Nat} {request : StartRequest} {id run : String} {now : Nat}
      (hid : id ∉ s.issued) (hrun : run ∉ id :: s.issued) :
    Move s (.start call request id run now)
      ((s.insertSession id (.new id now)).enterRun call (.new id now)
        ⟨id, request.prompt, false, (WorkerSession.new id now).state, []⟩ run request.waitMs now)
      (.started id run)
  | continued {call : Nat} {request : ContinueRequest} {run : String} {now : Nat}
      {session : WorkerSession} (hrun : run ∉ s.issued)
      (hsession : s.sessions request.sessionId = some session)
      (hfree : session.state.status.busy = false) :
    Move s (.continueSession call request run now)
      (s.enterRun call session
        ⟨request.sessionId, request.prompt, true, session.state, session.messages⟩ run
        request.waitMs now)
      (.continued request.sessionId run)
  | cancelling {request : CancelRequest} {now : Nat} {session : WorkerSession} {active : String}
      (hsession : s.sessions request.sessionId = some session)
      (hactive : session.state.activeRunId = some active) :
    Move s (.cancel request now)
      { s.setSession request.sessionId (session.cancelRun now) with
        flags := match session.cancel with
          | some token => Function.update s.flags token true
          | none => s.flags }
      (.cancelling request.sessionId active)
  | copied {call : Nat} {request : BranchRequest} {id run prompt : String} {now : Nat}
      {source : WorkerSession} {error : WorkerError} (hid : id ∉ s.issued)
      (hsource : s.branchSource request = .ok source) (hprompt : request.prompt = some prompt)
      (hblank : trim prompt = "") :
    Move s (.branch call request id run now)
      (s.insertSession id (source.branched request.sessionId id now)) (.refused error)
  | branched {call : Nat} {request : BranchRequest} {id run : String} {now : Nat}
      {source : WorkerSession} (hid : id ∉ s.issued)
      (hsource : s.branchSource request = .ok source) :
    Move s (.branch call request id run now)
      (s.insertSession id (source.branched request.sessionId id now))
      (.branched request.sessionId id none)
  | branchedRun {call : Nat} {request : BranchRequest} {id run prompt : String} {now : Nat}
      {source : WorkerSession} (hid : id ∉ s.issued) (hrun : run ∉ id :: s.issued)
      (hsource : s.branchSource request = .ok source) :
    Move s (.branch call request id run now)
      ((s.insertSession id (source.branched request.sessionId id now)).enterRun call
        (source.branched request.sessionId id now)
        ⟨id, prompt, true, (source.branched request.sessionId id now).state, source.messages⟩ run
        request.waitMs now)
      (.branched request.sessionId id (some run))
  | compacting {call : Nat} {asked : CompactRequest} {request : WorkerCompactRequest} :
    Move s (.compact call asked) (s.setCall call (some (.compacting request)))
      (.compacting request)
  | compacted {call : Nat} {request : WorkerCompactRequest} {session : WorkerSession}
      {execution : WorkerExecution} {epoch now : Nat}
      (hcall : s.calls call = some (.compacting request))
      (hsession : s.sessions request.sessionId = some session)
      (hepoch : session.nextEpoch = some epoch) :
    Move s (.compactEnd call (.ok execution) now)
      ((s.setCall call none).setSession request.sessionId (session.compacted execution epoch now))
      (.compacted request execution)
  | engineReturned {run : String} {request : WorkerRunRequest}
      {result : Except WorkerError WorkerExecution}
      (hthread : s.threads run = some ⟨request, .engine⟩) :
    Move s (.engineReturn run result)
      (s.setThread run (some ⟨request, .returned result⟩)) (.engineReturned run)
  | flagRead {run : String} {request : WorkerRunRequest}
      {result : Except WorkerError WorkerExecution}
      (hthread : s.threads run = some ⟨request, .returned result⟩) :
    Move s (.readFlag run)
      (s.setThread run (some ⟨request, .flagRead result (s.flags run)⟩)) (.flagRead run)
  | ended {run : String} {request : WorkerRunRequest}
      {result : Except WorkerError WorkerExecution} {cancelled : Bool} {now : Nat}
      {session : WorkerSession}
      (hthread : s.threads run = some ⟨request, .flagRead result cancelled⟩)
      (hsession : s.sessions request.sessionId = some session)
      (hactive : session.state.activeRunId = some run) :
    Move s (.finishRun run now)
      ((s.setThread run none).setSession request.sessionId
        (session.finishRun cancelled result now))
      (.ended run request result now (WorkerSession.endStatus cancelled result))
  | dropped {run : String} {request : WorkerRunRequest}
      {result : Except WorkerError WorkerExecution} {cancelled : Bool} {now : Nat}
      (hthread : s.threads run = some ⟨request, .flagRead result cancelled⟩)
      (hinactive : ∀ session, s.sessions request.sessionId = some session →
        session.state.activeRunId ≠ some run) :
    Move s (.finishRun run now) (s.setThread run none) .idle

/-! ### Every step is a move -/

lemma parseSessionId_eq_ok {value : String} {id : SessionId} (h : parseSessionId value = .ok id) :
    id = value := by
  rw [parseSessionId] at h
  split_ifs at h
  exact (Except.ok.inj h).symm

/-- A run begins in a session that is free. -/
lemma beginRun_eq_ok {begun : WorkerSystem} {call now : Nat} {id run prompt : String}
    {continuation : Bool} {waitMs : Option Nat}
    (h : s.beginRun call id run prompt continuation waitMs now = .ok begun) :
    ∃ session, s.sessions id = some session ∧ session.state.status.busy = false ∧
      begun = s.enterRun call session ⟨id, prompt, continuation, session.state, session.messages⟩
        run waitMs now := by
  rw [beginRun] at h
  cases hsession : s.sessions id with
  | none => simp [hsession] at h
  | some session =>
    rw [hsession] at h
    dsimp only at h
    split_ifs at h with hclosed hbusy
    exact ⟨session, rfl, by simpa using hbusy, (Except.ok.inj h).symm⟩

/-- A run begins in a session that was just inserted. -/
lemma beginRun_inserted {session : WorkerSession} {call now : Nat} {id run prompt : String}
    {continuation : Bool} {waitMs : Option Nat} (hopen : session.state.closed = false)
    (hfree : session.state.status.busy = false) :
    (s.insertSession id session).beginRun call id run prompt continuation waitMs now =
      .ok ((s.insertSession id session).enterRun call session
        ⟨id, prompt, continuation, session.state, session.messages⟩ run waitMs now) := by
  simp [beginRun, insertSession, hopen, hfree]

/-- What `branch` copies is free. -/
lemma branchSource_eq_ok {request : BranchRequest} {session : WorkerSession}
    (h : s.branchSource request = .ok session) :
    s.sessions request.sessionId = some session ∧ session.state.status.busy = false := by
  rw [branchSource] at h
  cases hparse : parseSessionId request.sessionId with
  | error error => simp [hparse] at h
  | ok id =>
    obtain rfl := parseSessionId_eq_ok hparse
    rw [hparse] at h
    dsimp only at h
    cases hsession : s.sessions request.sessionId with
    | none => simp [hsession] at h
    | some source =>
      rw [hsession] at h
      dsimp only at h
      split_ifs at h with hbusy
      obtain rfl := Except.ok.inj h
      exact ⟨rfl, by simpa using hbusy⟩

lemma start_move {call : Nat} {request : StartRequest} {id run : String} {now : Nat}
    (hid : id ∉ s.issued) (hrun : run ∉ id :: s.issued) :
    Move s (.start call request id run now) (s.start call request id run now).1
      (s.start call request id run now).2 := by
  rw [start]
  split_ifs with hprompt
  · exact .stay trivial
  · dsimp only
    rw [beginRun_inserted rfl rfl]
    exact .started hid hrun

lemma continueSession_move {call : Nat} {request : ContinueRequest} {run : String} {now : Nat}
    (hrun : run ∉ s.issued) :
    Move s (.continueSession call request run now) (s.continueSession call request run now).1
      (s.continueSession call request run now).2 := by
  rw [continueSession]
  split_ifs with hprompt
  · exact .stay trivial
  · cases hparse : parseSessionId request.sessionId with
    | error error => exact .stay trivial
    | ok id =>
      obtain rfl := parseSessionId_eq_ok hparse
      dsimp only
      cases hbegin : s.beginRun call request.sessionId run request.prompt true request.waitMs now with
      | error error => exact .stay trivial
      | ok begun =>
        obtain ⟨session, hsession, hfree, rfl⟩ := beginRun_eq_ok hbegin
        exact .continued hrun hsession hfree

lemma cancel_move (request : CancelRequest) (now : Nat) :
    Move s (.cancel request now) (s.cancel request now).1 (s.cancel request now).2 := by
  rw [cancel]
  cases hparse : parseSessionId request.sessionId with
  | error error => exact .stay trivial
  | ok id =>
    obtain rfl := parseSessionId_eq_ok hparse
    dsimp only
    cases hsession : s.sessions request.sessionId with
    | none => exact .stay trivial
    | some session =>
      dsimp only
      cases hactive : session.state.activeRunId with
      | none => dsimp only; split_ifs <;> exact .stay trivial
      | some active =>
        dsimp only
        rw [cancelActive]
        split_ifs
        · exact .stay trivial
        · exact .cancelling hsession hactive

lemma branch_move {call : Nat} {request : BranchRequest} {id run : String} {now : Nat}
    (hid : id ∉ s.issued) (hrun : run ∉ id :: s.issued) :
    Move s (.branch call request id run now) (s.branch call request id run now).1
      (s.branch call request id run now).2 := by
  rw [branch]
  cases hsource : s.branchSource request with
  | error error => exact .stay trivial
  | ok source =>
    dsimp only
    cases hprompt : request.prompt with
    | none =>
      have hhandle : (s.insertSession id (source.branched request.sessionId id now)).handleFor id
          none = .ok ⟨id, none, .idle, resourceUris id⟩ := by
        simp [handleFor, insertSession, WorkerSession.branched]
      dsimp only
      rw [hhandle]
      exact .branched hid hsource
    | some prompt =>
      dsimp only
      split_ifs with hblank
      · exact .copied hid hsource hprompt hblank
      · rw [beginRun_inserted rfl rfl]
        exact .branchedRun hid hrun hsource

lemma compact_move (call : Nat) (request : CompactRequest) :
    Move s (.compact call request) (s.compact call request).1 (s.compact call request).2 := by
  rw [compact]
  cases s.compactRequest request with
  | error error => exact .stay trivial
  | ok request => exact .compacting

lemma compactEnd_move {call : Nat} {request : WorkerCompactRequest} (now : Nat)
    (result : Except WorkerError WorkerExecution)
    (hcall : s.calls call = some (.compacting request)) :
    Move s (.compactEnd call result now) (s.compactEnd call request result now).1
      (s.compactEnd call request result now).2 := by
  rw [compactEnd.eq_def]
  cases result with
  | error error => exact .closed
  | ok execution =>
    dsimp only
    cases hsession : (s.setCall call none).sessions request.sessionId with
    | none => exact .closed
    | some session =>
      dsimp only
      cases hepoch : session.nextEpoch with
      | none => exact .closed
      | some epoch => exact .compacted hcall hsession hepoch

lemma readHandle_move {call : Nat} {id run : String} {waitMs : Option Nat} (expired : Bool)
    (hcall : s.calls call = some (.waiting id run waitMs)) :
    Move s (.readHandle call expired) (s.readHandle call id run waitMs expired).1
      (s.readHandle call id run waitMs expired).2 := by
  rw [readHandle, handleFor]
  cases hsession : s.sessions id with
  | none => exact .closed
  | some session =>
    dsimp only
    split_ifs
    · exact .stay trivial
    · exact .handle hcall hsession

lemma finishRun_move {run : String} {request : WorkerRunRequest}
    {result : Except WorkerError WorkerExecution} {cancelled : Bool} (now : Nat)
    (hthread : s.threads run = some ⟨request, .flagRead result cancelled⟩) :
    Move s (.finishRun run now) (s.finishRun run request result cancelled now).1
      (s.finishRun run request result cancelled now).2 := by
  rw [finishRun]
  cases hsession : (s.setThread run none).sessions request.sessionId with
  | none =>
    refine .dropped hthread fun session h => ?_
    rw [setThread] at hsession
    rw [hsession] at h
    cases h
  | some session =>
    dsimp only
    split_ifs with hactive
    · exact .ended hthread hsession hactive
    · refine .dropped hthread fun session' h => ?_
      rw [setThread] at hsession
      rw [hsession] at h
      obtain rfl := Option.some.inj h
      exact hactive

/-- **Every step is a move.** -/
theorem fire_move (s : WorkerSystem) (input : WorkerInput) :
    Move s input (s.fire input).1 (s.fire input).2 := by
  cases input with
  | start call request id run now =>
    rw [fire]
    split_ifs with h
    · exact start_move h.2.1 h.2.2
    · exact .stay trivial
  | continueSession call request run now =>
    rw [fire]
    split_ifs with h
    · exact continueSession_move h.2
    · exact .stay trivial
  | cancel request now => exact cancel_move request now
  | branch call request id run now =>
    rw [fire]
    split_ifs with h
    · exact branch_move h.2.1 h.2.2
    · exact .stay trivial
  | compact call request =>
    rw [fire]
    split_ifs
    · exact compact_move call request
    · exact .stay trivial
  | compactEnd call result now =>
    rw [fire]
    split
    · exact compactEnd_move now result ‹_›
    · exact .stay trivial
  | engineReturn run result =>
    rw [fire]
    split
    · exact .engineReturned ‹_›
    · exact .stay trivial
  | readFlag run =>
    rw [fire]
    split
    · exact .flagRead ‹_›
    · exact .stay trivial
  | finishRun run now =>
    rw [fire]
    split
    · exact finishRun_move now ‹_›
    · exact .stay trivial
  | readHandle call expired =>
    rw [fire]
    split
    · exact readHandle_move expired ‹_›
    · exact .stay trivial
  | readResource id =>
    rw [fire]
    cases s.sessions id <;> exact .stay trivial

end WorkerSystem

end Rupi
