import Rupi.Worker.Session

/-!
The worker service as a step system.

Clients call it, run threads end their runs, and engines answer whenever they like; every
section under the lock is one step.

- `WorkerSystem`: the sessions, the run threads, the cancel flags and the calls that are
  still open.
- `WorkerInput`, `WorkerSystem.fire`: one step, with the event it shows.
- `Worker.step`: the step with the events so far.
-/

namespace Rupi

/-! ### Requests -/

structure StartRequest where
  prompt : String
  waitMs : Option Nat

structure ContinueRequest where
  sessionId : String
  prompt : String
  waitMs : Option Nat

structure CancelRequest where
  sessionId : String
  runId : Option String

structure BranchRequest where
  sessionId : String
  fromKind : Option String
  prompt : Option String
  waitMs : Option Nat

structure CompactRequest where
  sessionId : String
  mode : String
  phase : Option String
  summary : Option String
  force : Bool

inductive WorkerCompactMode where
  | conversation
  | phase
  | checkpoint
  deriving DecidableEq, Repr

/-- `WorkerCompactMode::from_str`. -/
def WorkerCompactMode.parse (text : String) : Except WorkerError WorkerCompactMode :=
  if text = "" ∨ text = "conversation" then .ok .conversation
  else if text = "phase" then .ok .phase
  else if text = "checkpoint" then .ok .checkpoint
  else .error (.invalid ("unsupported compaction mode " ++ text))

/-- What an engine is given for a turn. -/
structure WorkerRunRequest where
  sessionId : SessionId
  prompt : String
  continuation : Bool
  priorState : WorkerState
  priorMessages : List WorkerMessage

/-- What an engine is given for a compaction. -/
structure WorkerCompactRequest where
  sessionId : SessionId
  mode : WorkerCompactMode
  phase : Option String
  summary : Option String
  force : Bool
  priorState : WorkerState
  priorMessages : List WorkerMessage

structure WorkerRunHandle where
  sessionId : SessionId
  runId : Option String
  status : WorkerStatus
  resources : List String

/-- `parse_session_id`. -/
def parseSessionId (value : String) : Except WorkerError SessionId :=
  if trim value = "" ∨ '/' ∈ value.toList ∨ '\\' ∈ value.toList ∨
      containsText ['.', '.'] value.toList = true then
    .error (.invalid "invalid session id")
  else .ok value

/-- `resource_uris`. -/
def resourceUris (id : SessionId) : List String :=
  ["state", "summary", "messages", "trace", "diff", "artifacts", "checkpoint/latest"].map
    fun kind => "session://" ++ id ++ "/" ++ kind

/-! ### The system -/

/-- Where a run thread is: in the engine, back from it, or past the read of its flag. -/
inductive RunPhase where
  | engine
  | returned (result : Except WorkerError WorkerExecution)
  | flagRead (result : Except WorkerError WorkerExecution) (cancelled : Bool)

structure RunThread where
  request : WorkerRunRequest
  phase : RunPhase

/-- A call that has not returned: waiting for a handle, or inside the engine. -/
inductive OpenCall where
  | waiting (session run : String) (waitMs : Option Nat)
  | compacting (request : WorkerCompactRequest)

/-- The service with its threads and clients; `issued` are the identifiers that
`uuidv7` has given out, which it never gives out again. -/
structure WorkerSystem where
  sessions : SessionId → Option WorkerSession
  threads : String → Option RunThread
  flags : String → Bool
  calls : Nat → Option OpenCall
  issued : List String

/-- `WorkerService::new`. -/
def WorkerSystem.new : WorkerSystem := ⟨fun _ => none, fun _ => none, fun _ => false, fun _ => none, []⟩

/-- What a step shows. -/
inductive WorkerEvent where
  /-- The input does not occur in this state. -/
  | idle
  | refused (error : WorkerError)
  | started (session run : String)
  | continued (session run : String)
  | branched (source session : String) (run : Option String)
  | cancelling (session run : String)
  | alreadyTerminal (session : String) (status : WorkerStatus)
  | compacting (request : WorkerCompactRequest)
  | compacted (request : WorkerCompactRequest) (execution : WorkerExecution)
  | engineReturned (run : String)
  | flagRead (run : String)
  | ended (run : String) (request : WorkerRunRequest)
      (result : Except WorkerError WorkerExecution) (now : Nat) (status : WorkerStatus)
  | waiting (run : String)
  | handle (handle : WorkerRunHandle)
  | snapshot (session : WorkerSession)

/-- A step of a client, an engine or a run thread, with what it draws from outside: new
identifiers, the clock, the result of an engine. -/
inductive WorkerInput where
  | start (call : Nat) (request : StartRequest) (session run : String) (now : Nat)
  | continueSession (call : Nat) (request : ContinueRequest) (run : String) (now : Nat)
  | cancel (request : CancelRequest) (now : Nat)
  | branch (call : Nat) (request : BranchRequest) (session run : String) (now : Nat)
  | compact (call : Nat) (request : CompactRequest)
  | compactEnd (call : Nat) (result : Except WorkerError WorkerExecution) (now : Nat)
  | engineReturn (run : String) (result : Except WorkerError WorkerExecution)
  | readFlag (run : String)
  | finishRun (run : String) (now : Nat)
  | readHandle (call : Nat) (expired : Bool)
  | readResource (session : String)

namespace WorkerSystem

variable (s : WorkerSystem)

/-! ### Sections under the lock -/

/-- `insert_session`. -/
def insertSession (id : SessionId) (session : WorkerSession) : WorkerSystem :=
  { s with sessions := Function.update s.sessions id (some session), issued := id :: s.issued }

/-- A session is replaced. -/
def setSession (id : SessionId) (session : WorkerSession) : WorkerSystem :=
  { s with sessions := Function.update s.sessions id (some session) }

def setThread (run : String) (thread : Option RunThread) : WorkerSystem :=
  { s with threads := Function.update s.threads run thread }

def setCall (call : Nat) (state : Option OpenCall) : WorkerSystem :=
  { s with calls := Function.update s.calls call state }

/-- The run that `begin_run` enters, its thread and its call. -/
def enterRun (call : Nat) (session : WorkerSession) (request : WorkerRunRequest) (run : String)
    (waitMs : Option Nat) (now : Nat) : WorkerSystem where
  sessions := Function.update s.sessions request.sessionId (some (session.beginRun run now))
  threads := Function.update s.threads run (some ⟨request, .engine⟩)
  flags := Function.update s.flags run false
  calls := Function.update s.calls call (some (.waiting request.sessionId run waitMs))
  issued := run :: s.issued

/-- `begin_run`, up to its first handle. -/
def beginRun (call : Nat) (id run prompt : String) (continuation : Bool) (waitMs : Option Nat)
    (now : Nat) : Except WorkerError WorkerSystem :=
  match s.sessions id with
  | none => .error (.notFound "session was not found")
  | some session =>
    if session.state.closed then .error (.new "session_closed" "session is closed")
    else if session.state.status.busy then
      .error (.new "session_busy" "session already has a running job")
    else
      .ok (s.enterRun call session ⟨id, prompt, continuation, session.state, session.messages⟩ run
        waitMs now)

/-- `handle_for`. -/
def handleFor (id : SessionId) (requested : Option String) : Except WorkerError WorkerRunHandle :=
  match s.sessions id with
  | none => .error (.notFound "session was not found")
  | some session =>
    .ok ⟨id, requested.or session.state.activeRunId, session.state.status, resourceUris id⟩

/-! ### Calls -/

/-- `start`. -/
def start (call : Nat) (request : StartRequest) (id run : String) (now : Nat) :
    WorkerSystem × WorkerEvent :=
  if trim request.prompt = "" then (s, .refused (.invalid "prompt must not be empty"))
  else
    let inserted := s.insertSession id (.new id now)
    match inserted.beginRun call id run request.prompt false request.waitMs now with
    | .error error => (inserted, .refused error)
    | .ok begun => (begun, .started id run)

/-- `continue_session`. -/
def continueSession (call : Nat) (request : ContinueRequest) (run : String) (now : Nat) :
    WorkerSystem × WorkerEvent :=
  if trim request.prompt = "" then (s, .refused (.invalid "prompt must not be empty"))
  else
    match parseSessionId request.sessionId with
    | .error error => (s, .refused error)
    | .ok id =>
      match s.beginRun call id run request.prompt true request.waitMs now with
      | .error error => (s, .refused error)
      | .ok begun => (begun, .continued id run)

/-- `cancel`, for a session that has an active run. -/
def cancelActive (request : CancelRequest) (id : SessionId) (session : WorkerSession)
    (active : String) (now : Nat) : WorkerSystem × WorkerEvent :=
  if request.runId.any (· ≠ active) then
    (s, .refused (.new "run_not_found" "run id is not active"))
  else
    let flags := match session.cancel with
      | some token => Function.update s.flags token true
      | none => s.flags
    ({ s.setSession id (session.cancelRun now) with flags := flags }, .cancelling id active)

/-- `cancel`. -/
def cancel (request : CancelRequest) (now : Nat) : WorkerSystem × WorkerEvent :=
  match parseSessionId request.sessionId with
  | .error error => (s, .refused error)
  | .ok id =>
    match s.sessions id with
    | none => (s, .refused (.notFound ("session " ++ request.sessionId ++ " was not found")))
    | some session =>
      match session.state.activeRunId with
      | some active => s.cancelActive request id session active now
      | none =>
        if session.state.status.terminal then (s, .alreadyTerminal id session.state.status)
        else (s, .refused (.new "not_cancellable" "session has no active run"))

/-- The checks of `branch`, and the session it copies. -/
def branchSource (request : BranchRequest) : Except WorkerError WorkerSession :=
  match parseSessionId request.sessionId with
  | .error error => .error error
  | .ok id =>
    match s.sessions id with
    | none => .error (.notFound "source session was not found")
    | some source =>
      if source.state.status.busy then
        .error (.new "session_busy" "cannot branch a running session")
      else if request.fromKind = some "event" then
        .error (.new "unsupported" "historical event branching belongs to the replay boundary")
      else if request.fromKind = some "checkpoint" then
        .error (.new "unsupported" "checkpoint branching requires an engine checkpoint snapshot")
      else if request.fromKind.any (· ≠ "latest") then
        .error (.invalid "branch from must be latest")
      else .ok source

/-- `branch`. -/
def branch (call : Nat) (request : BranchRequest) (id run : String) (now : Nat) :
    WorkerSystem × WorkerEvent :=
  match s.branchSource request with
  | .error error => (s, .refused error)
  | .ok source =>
    let inserted := s.insertSession id (source.branched request.sessionId id now)
    match request.prompt with
    | none =>
      match inserted.handleFor id none with
      | .error error => (inserted, .refused error)
      | .ok _ => (inserted, .branched request.sessionId id none)
    | some prompt =>
      if trim prompt = "" then
        (inserted, .refused (.invalid "branch prompt must not be empty"))
      else
        match inserted.beginRun call id run prompt true request.waitMs now with
        | .error error => (inserted, .refused error)
        | .ok begun => (begun, .branched request.sessionId id (some run))

/-- `compact`, up to the call of the engine. -/
def compactRequest (request : CompactRequest) : Except WorkerError WorkerCompactRequest :=
  match parseSessionId request.sessionId with
  | .error error => .error error
  | .ok id =>
    match s.sessions id with
    | none => .error (.notFound "session was not found")
    | some session =>
      if session.state.status.busy then
        .error (.new "session_busy" "cannot compact a running session")
      else
        match WorkerCompactMode.parse request.mode with
        | .error error => .error error
        | .ok mode =>
          .ok ⟨id, mode, request.phase, request.summary, request.force, session.state,
            session.messages⟩

def compact (call : Nat) (request : CompactRequest) : WorkerSystem × WorkerEvent :=
  match s.compactRequest request with
  | .error error => (s, .refused error)
  | .ok request => (s.setCall call (some (.compacting request)), .compacting request)

/-- `compact`, from the return of the engine. -/
def compactEnd (call : Nat) (request : WorkerCompactRequest)
    (result : Except WorkerError WorkerExecution) (now : Nat) : WorkerSystem × WorkerEvent :=
  let s := s.setCall call none
  match result with
  | .error error => (s, .refused error)
  | .ok execution =>
    match s.sessions request.sessionId with
    | none => (s, .refused (.notFound "session was removed during compaction"))
    | some session =>
      match session.nextEpoch with
      | none =>
        (s, .refused (.new "epoch_exhausted" "worker context epoch space is exhausted"))
      | some epoch =>
        (s.setSession request.sessionId (session.compacted execution epoch now),
          .compacted request execution)

/-- One read of `wait_handle`: the handle is returned, or the client waits on. -/
def readHandle (call : Nat) (id run : String) (waitMs : Option Nat) (expired : Bool) :
    WorkerSystem × WorkerEvent :=
  match s.handleFor id (some run) with
  | .error error => (s.setCall call none, .refused error)
  | .ok handle =>
    if waitMs.isSome && !handle.status.terminal && !expired then (s, .waiting run)
    else (s.setCall call none, .handle handle)

/-- `finish_run`, at the end of a run thread. -/
def finishRun (run : String) (request : WorkerRunRequest)
    (result : Except WorkerError WorkerExecution) (cancelled : Bool) (now : Nat) :
    WorkerSystem × WorkerEvent :=
  let s := s.setThread run none
  match s.sessions request.sessionId with
  | none => (s, .idle)
  | some session =>
    if session.state.activeRunId = some run then
      (s.setSession request.sessionId (session.finishRun cancelled result now),
        .ended run request result now (WorkerSession.endStatus cancelled result))
    else (s, .idle)

/-! ### Steps -/

/-- A step. An input that does not occur changes nothing: a call number that is taken, an
identifier that was given out before, a thread or a call that is not there. -/
def fire : WorkerInput → WorkerSystem × WorkerEvent
  | .start call request id run now =>
    if (s.calls call).isNone ∧ id ∉ s.issued ∧ run ∉ id :: s.issued then
      s.start call request id run now
    else (s, .idle)
  | .continueSession call request run now =>
    if (s.calls call).isNone ∧ run ∉ s.issued then s.continueSession call request run now
    else (s, .idle)
  | .cancel request now => s.cancel request now
  | .branch call request id run now =>
    if (s.calls call).isNone ∧ id ∉ s.issued ∧ run ∉ id :: s.issued then
      s.branch call request id run now
    else (s, .idle)
  | .compact call request =>
    if (s.calls call).isNone then s.compact call request else (s, .idle)
  | .compactEnd call result now =>
    match s.calls call with
    | some (.compacting request) => s.compactEnd call request result now
    | _ => (s, .idle)
  | .engineReturn run result =>
    match s.threads run with
    | some ⟨request, .engine⟩ =>
      (s.setThread run (some ⟨request, .returned result⟩), .engineReturned run)
    | _ => (s, .idle)
  | .readFlag run =>
    match s.threads run with
    | some ⟨request, .returned result⟩ =>
      (s.setThread run (some ⟨request, .flagRead result (s.flags run)⟩), .flagRead run)
    | _ => (s, .idle)
  | .finishRun run now =>
    match s.threads run with
    | some ⟨request, .flagRead result cancelled⟩ => s.finishRun run request result cancelled now
    | _ => (s, .idle)
  | .readHandle call expired =>
    match s.calls call with
    | some (.waiting id run waitMs) => s.readHandle call id run waitMs expired
    | _ => (s, .idle)
  | .readResource id =>
    match s.sessions id with
    | none => (s, .refused (.notFound "session was not found"))
    | some session => (s, .snapshot session)

end WorkerSystem

/-- The service and its events, the last one first. -/
structure Worker where
  system : WorkerSystem
  events : List WorkerEvent

def Worker.new : Worker := ⟨.new, []⟩

def Worker.step (w : Worker) (input : WorkerInput) : Worker :=
  ⟨(w.system.fire input).1, (w.system.fire input).2 :: w.events⟩

end Rupi
