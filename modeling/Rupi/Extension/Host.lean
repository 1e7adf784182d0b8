import Rupi.Lib.Fallible
import Rupi.Lib.Locks
import Rupi.Lib.Run
import Rupi.Core.Value
import Rupi.Store.Trace

/-!
The extension host: starts, stops and requests of several threads, one section under a lock at
a time.

- `decodeResponse`: what a request gets from the line it has received.
- `HostTask`: where an operation is between its sections.
- `ExtensionHost.step`: one section of one operation, one line of a process, or its end.
-/

namespace Rupi

open Value Fallible Locks

/-! ### Responses -/

/-- `HostError`. -/
inductive HostError where
  | invalidModule (module : String)
  | spawn (message : String)
  | io (message : String)
  | protocol (message : String)
  | extension (message : String) (code : Option String)
  | processLost (message : String)
  deriving DecidableEq, Repr

/-- `matches!(error, HostError::ProcessLost(_))`. -/
def HostError.isLost : HostError → Bool
  | processLost _ => true
  | _ => false

/-- `RpcError`. -/
structure RpcError where
  message : String
  code : Option String
  deriving DecidableEq, Repr

/-- `RpcResponse`. -/
structure RpcResponse where
  id : Nat
  ok : Bool
  result : Option Value
  error : Option RpcError
  deriving DecidableEq

/-- `serde_json` and the texts of the standard library, as a request uses them; `ρ` is
`DispatchResult`. -/
structure RpcReader (ρ : Type) where
  response : String → Except String RpcResponse
  result : Value → Except String ρ
  utf8Error : Bytes → String

variable {ρ : Type}

/-- The text of a line. -/
def responseText (reader : RpcReader ρ) (bytes : Bytes) : Except HostError String :=
  match fromUtf8 bytes with
  | some line => .ok line
  | none => .error (.protocol ("response was not UTF-8: " ++ reader.utf8Error bytes))

/-- The response in a line. -/
def readResponse (reader : RpcReader ρ) (line : String) : Except HostError RpcResponse :=
  match reader.response line with
  | .ok response => .ok response
  | .error error => .error (.protocol ("invalid response: " ++ error))

/-- The result or the error of a response. -/
def RpcResponse.outcome (reader : RpcReader ρ) (response : RpcResponse) : Except HostError ρ :=
  if response.ok then
    match reader.result (response.result.getD .null) with
    | .ok result => .ok result
    | .error error => .error (.protocol ("invalid result: " ++ error))
  else
    let error := response.error.getD ⟨"unknown extension failure", none⟩
    .error (.extension error.message error.code)

/-- The end of `Process::request`: what a line is for the request with an id. -/
def decodeResponse (reader : RpcReader ρ) (bytes : Bytes) (id : Nat) : Except HostError ρ := do
  let line ← responseText reader bytes
  let response ← readResponse reader line
  ensure (response.id = id)
    (.protocol ("response id " ++ response.id.repr ++ " does not match " ++ id.repr))
  response.outcome reader

/-- **A result comes from a response with the id of the request.** -/
lemma decodeResponse_eq_ok {reader : RpcReader ρ} {bytes : Bytes} {id : Nat} {result : ρ}
    (h : decodeResponse reader bytes id = .ok result) :
    ∃ line response, fromUtf8 bytes = some line ∧ reader.response line = .ok response ∧
      response.id = id ∧ response.ok = true ∧
      reader.result (response.result.getD .null) = .ok result := by
  obtain ⟨line, hline, h⟩ := bind_eq_ok.1 h
  obtain ⟨response, hresponse, h⟩ := bind_eq_ok.1 h
  obtain ⟨_, hid, h⟩ := bind_eq_ok.1 h
  refine ⟨line, response, ?_, ?_, ensure_eq_ok.1 hid, ?_⟩
  · rw [responseText] at hline
    cases hutf : fromUtf8 bytes <;> simp_all
  · rw [readResponse] at hresponse
    cases hread : reader.response line <;> simp_all
  · rw [RpcResponse.outcome] at h
    split_ifs at h with hok
    refine ⟨hok, ?_⟩
    cases hresult : reader.result (response.result.getD .null) <;> simp_all

/-! ### The state -/

/-- `HostStatus`. -/
inductive HostStatus where
  | notStarted
  | starting
  | ready
  | stopped
  | failed
  deriving DecidableEq, Repr

/-- What the reader thread of a process sends. -/
inductive HostMessage where
  | line (bytes : Bytes)
  | readError (message : String)
  deriving DecidableEq, Repr

/-- A process that was spawned. `owed` is the request that was written to it and that it has not
answered yet; a message carries what was owed when it was read. -/
structure HostProcess where
  exited : Bool
  terminated : Bool
  closed : Bool
  nextId : Nat
  queue : List (Option Nat × HostMessage)
  owed : Option Nat
  attached : Bool
  loaded : Bool
  deriving DecidableEq, Repr

/-- A process that has just been spawned. -/
def HostProcess.fresh : HostProcess :=
  ⟨false, false, false, 1, [], none, false, false⟩

/-- `Process::terminate`. -/
def HostProcess.terminate (process : HostProcess) : HostProcess :=
  { process with exited := true, terminated := true }

/-- What an operation is for. -/
inductive HostGoal where
  | start
  | request
  | shutdown
  deriving DecidableEq, Repr

/-- The next section of `start_with_context`. -/
inductive StartStage where
  | lock
  | readStatus
  | validate
  | markInvalid (error : HostError)
  | markStarting
  | checkContext
  | stopSelf
  | terminate (p : Nat)
  | interrupted
  | urls
  | spawn
  | markUnspawned (error : HostError)
  | attach (p : Nat)
  deriving DecidableEq, Repr

/-- The next section of `Process::request`. -/
inductive ExchangeStage where
  | lock
  | checkExited
  | checkContext
  | takeId
  | write (id : Nat)
  | wait (id : Nat)
  | terminate (message : String)
  deriving DecidableEq, Repr

/-- The next section of an operation. A request that is done says which process it has lost. -/
inductive HostTask (ρ : Type) where
  | idle
  | shutdownCheck
  | checkModules (goal : HostGoal)
  | starting (goal : HostGoal) (stage : StartStage)
  | loading (goal : HostGoal) (p : Nat) (stage : ExchangeStage)
  | finish (goal : HostGoal) (p : Nat) (result : Except HostError ρ)
  | readChild (goal : HostGoal)
  | requesting (goal : HostGoal) (p : Nat) (stage : ExchangeStage)
  | markLost (goal : HostGoal) (p : Nat) (error : HostError)
  | stopping (result : Except HostError (Option ρ))
  | terminating (p : Nat) (result : Except HostError (Option ρ))
  | done (result : Except HostError (Option ρ)) (lost : Option Nat)

/-- The locks that are held from one section to the next. -/
inductive HostLock where
  | start
  | request (p : Nat)
  deriving DecidableEq, Repr

/-- What a section meets. -/
inductive HostEvent where
  | fine
  | interrupted
  /-- A module, a path or a request that is refused. -/
  | fails (error : HostError)
  /-- A process or a pipe that fails. -/
  | breaks (message : String)
  deriving DecidableEq, Repr

/-- The host with its processes and operations. `halted` is set by a stop and cleared by the next
operation that may start, `stopped` the same from the return of the stop on, and `answers` are
the lines that requests have received, with their processes and ids. -/
structure ExtensionHost (ρ : Type) where
  modules : Bool
  status : HostStatus
  child : Option Nat
  locks : Table HostLock Nat
  processes : Nat → HostProcess
  spawned : Nat
  tasks : Nat → HostTask ρ
  begun : List Nat
  halted : Bool
  stopped : Bool
  answers : List (Nat × Nat × Nat × Bytes)

/-- What happens next. -/
inductive HostInput where
  | start (t : Nat)
  | stop (t : Nat)
  | shutdown (t : Nat)
  | request (t : Nat)
  | go (t : Nat) (event : HostEvent)
  /-- The reader thread of a process reads a line, an overlong line, or the end. -/
  | line (p : Nat) (bytes : Bytes)
  | overflow (p : Nat) (message : String)
  | endOfOutput (p : Nat)
  | exit (p : Nat)
  deriving DecidableEq, Repr

namespace ExtensionHost

/-- `ExtensionHost::new`. -/
def new (modules : Bool) : ExtensionHost ρ where
  modules := modules
  status := .notStarted
  child := none
  locks _ := none
  processes _ := .fresh
  spawned := 0
  tasks _ := .idle
  begun := []
  halted := false
  stopped := false
  answers := []

variable (reader : RpcReader ρ) (s : ExtensionHost ρ) (t : Nat)

def goto (task : HostTask ρ) : ExtensionHost ρ :=
  { s with tasks := Function.update s.tasks t task }

def setProcess (p : Nat) (process : HostProcess) : ExtensionHost ρ :=
  { s with processes := Function.update s.processes p process }

/-- The lock is taken if it is free; otherwise the operation waits. -/
def acquire (name : HostLock) (task : HostTask ρ) : ExtensionHost ρ :=
  match s.locks name with
  | none => { s with locks := take s.locks name t }.goto t task
  | some _ => s

/-- The operation goes on without the lock. -/
def leave (name : HostLock) (task : HostTask ρ) : ExtensionHost ρ :=
  { s with locks := release s.locks name }.goto t task

end ExtensionHost

/-- What follows a request that has its result. -/
def HostGoal.settle (goal : HostGoal) (result : Except HostError (Option ρ)) (lost : Option Nat) :
    HostTask ρ :=
  match goal with
  | .shutdown => .stopping result
  | .start | .request => .done result lost

/-- What follows a start that has succeeded. -/
def HostGoal.started (goal : HostGoal) : HostTask ρ :=
  match goal with
  | .start => .done (.ok none) none
  | .request | .shutdown => .readChild goal

namespace ExtensionHost

variable (reader : RpcReader ρ) (s : ExtensionHost ρ) (t : Nat)

/-- One section of `Process::request`. `at'` is the operation inside it, and `back` the operation
behind it; its second argument says that the process is lost. -/
def exchangeStep (p : Nat) (at' : ExchangeStage → HostTask ρ)
    (back : Except HostError ρ → Bool → HostTask ρ) (event : HostEvent) (stage : ExchangeStage) :
    ExtensionHost ρ :=
  let process := s.processes p
  let back (s : ExtensionHost ρ) (result : Except HostError ρ) (lost : Bool) :=
    s.leave t (.request p) (back result lost)
  match stage with
  | .lock => s.acquire t (.request p) (at' .checkExited)
  | .checkExited =>
    if process.exited then back s (.error (.processLost "exited")) true
    else s.goto t (at' .checkContext)
  | .checkContext =>
    match event with
    | .interrupted => s.goto t (at' (.terminate "extension request was interrupted"))
    | _ => s.goto t (at' .takeId)
  | .takeId =>
    -- a request that is too long fails behind its id
    let s := s.setProcess p { process with nextId := (process.nextId + 1) % 2 ^ 64 }
    match event with
    | .fails error => back s (.error error) false
    | _ => s.goto t (at' (.write process.nextId))
  | .write id =>
    match event with
    | .breaks message => s.goto t (at' (.terminate message))
    | _ => (s.setProcess p { process with owed := some id }).goto t (at' (.wait id))
  | .wait id =>
    match event with
    | .interrupted => s.goto t (at' (.terminate "extension request was interrupted"))
    | _ =>
      match process.queue with
      | (_, .line bytes) :: queue =>
        back { s.setProcess p { process with queue := queue } with
            answers := s.answers ++ [(t, p, id, bytes)] }
          (decodeResponse reader bytes id) false
      | (_, .readError message) :: queue =>
        back (s.setProcess p { process with queue := queue })
          (.error (.protocol ("bounded response read failed: " ++ message))) true
      | [] =>
        if process.closed then back s (.error (.processLost "EOF from Node host")) true else s
  | .terminate message =>
    back (s.setProcess p process.terminate) (.error (.processLost message)) true

/-- One section of `start_with_context`. -/
def startStep (goal : HostGoal) (event : HostEvent) (stage : StartStage) : ExtensionHost ρ :=
  let goto (s : ExtensionHost ρ) (stage : StartStage) := s.goto t (.starting goal stage)
  let fail (s : ExtensionHost ρ) (error : HostError) :=
    s.leave t .start (goal.settle (.error error) none)
  match stage with
  | .lock => s.acquire t .start (.starting goal .readStatus)
  | .readStatus =>
    if s.status = .ready then s.leave t .start goal.started
    else if s.modules then goto s .validate
    else { s with status := .ready }.leave t .start goal.started
  | .validate =>
    match event with
    | .fails error => goto s (.markInvalid error)
    | _ => goto s .markStarting
  | .markInvalid error => fail { s with status := .failed } error
  | .markStarting => goto { s with status := .starting } .checkContext
  | .checkContext =>
    match event with
    | .interrupted => goto s .stopSelf
    | _ => goto s .urls
  | .stopSelf =>
    let stopped := { s with status := .stopped, child := none }
    match s.child with
    | some p => goto stopped (.terminate p)
    | none => goto stopped .interrupted
  | .terminate p => goto (s.setProcess p (s.processes p).terminate) .interrupted
  | .interrupted => fail s (.processLost "extension host start was interrupted")
  | .urls =>
    match event with
    | .fails error => fail s error
    | _ => goto s .spawn
  | .spawn =>
    match event with
    | .breaks message => goto s (.markUnspawned (.spawn message))
    | _ => goto { s with spawned := s.spawned + 1 } (.attach s.spawned)
  | .markUnspawned error => fail { s with status := .failed } error
  | .attach p =>
    { s.setProcess p { s.processes p with attached := true } with child := some p }.goto t
      (.loading goal p .lock)

/-- The last section of `start_with_context`. -/
def finishStep (goal : HostGoal) (p : Nat) : Except HostError ρ → ExtensionHost ρ
  | .ok _ =>
    { s.setProcess p { s.processes p with loaded := true } with status := .ready }.leave t .start
      goal.started
  | .error error =>
    { s with status := .failed, child := none }.leave t .start
      (goal.settle (.error error) (some p))

/-- What follows the exchange of a request: a lost process is marked. -/
def afterExchange (goal : HostGoal) (p : Nat) (result : Except HostError ρ) (lost : Bool) :
    HostTask ρ :=
  match result with
  | .ok result => goal.settle (.ok (some result)) none
  | .error error =>
    if error.isLost then .markLost goal p error
    else goal.settle (.error error) (if lost then some p else none)

/-- One section of an operation. -/
def taskStep (event : HostEvent) : ExtensionHost ρ :=
  match s.tasks t with
  | .idle | .done _ _ => s
  | .shutdownCheck =>
    if s.status = .ready ∧ s.modules = true then s.goto t (.checkModules .shutdown)
    else s.goto t (.stopping (.ok none))
  | .checkModules goal =>
    if s.modules then s.goto t (.starting goal .lock)
    else s.goto t (goal.settle (.error (.extension "no extensions configured" none)) none)
  | .starting goal stage => s.startStep t goal event stage
  | .loading goal p stage =>
    s.exchangeStep reader t p (.loading goal p) (fun result _ => .finish goal p result) event stage
  | .finish goal p result => s.finishStep t goal p result
  | .readChild goal =>
    match s.child with
    | some p => s.goto t (.requesting goal p .lock)
    | none => s.goto t (goal.settle (.error (.processLost "host is not running")) none)
  | .requesting goal p stage =>
    s.exchangeStep reader t p (.requesting goal p) (afterExchange goal p) event stage
  | .markLost goal p error =>
    { s with status := .stopped, child := none }.goto t (goal.settle (.error error) (some p))
  | .stopping result =>
    let stopped := { s with status := .stopped, child := none, halted := true }
    match s.child with
    | some p => stopped.goto t (.terminating p result)
    | none => { stopped with stopped := true }.goto t (.done result none)
  | .terminating p result =>
    { s.setProcess p (s.processes p).terminate with stopped := true }.goto t (.done result none)

/-- A new operation, which may start the host unless it is a stop. -/
def beginTask (task : HostTask ρ) (mayStart : Bool) : ExtensionHost ρ :=
  match s.tasks t with
  | .idle =>
    { s with
      begun := s.begun ++ [t]
      halted := s.halted && !mayStart
      stopped := s.stopped && !mayStart }.goto t task
  | _ => s

/-- The reader thread of a process sends a message. -/
def receive (p : Nat) (message : HostMessage) : ExtensionHost ρ :=
  let process := s.processes p
  s.setProcess p { process with queue := process.queue ++ [(process.owed, message)], owed := none }

/-- One step of the whole. -/
def step (s : ExtensionHost ρ) : HostInput → ExtensionHost ρ
  | .start t => s.beginTask t (.starting .start .lock) true
  | .stop t => s.beginTask t (.stopping (.ok none)) false
  | .shutdown t => s.beginTask t .shutdownCheck true
  | .request t => s.beginTask t (.checkModules .request) true
  | .go t event => s.taskStep reader t event
  | .line p bytes =>
    if p < s.spawned ∧ (s.processes p).closed = false then s.receive p (.line bytes) else s
  | .overflow p message =>
    if p < s.spawned ∧ (s.processes p).closed = false then
      let s := s.setProcess p { (s.processes p).terminate with closed := true }
      s.receive p (.readError message)
    else s
  | .endOfOutput p =>
    if p < s.spawned then s.setProcess p { s.processes p with closed := true } else s
  | .exit p =>
    if p < s.spawned then s.setProcess p { s.processes p with exited := true } else s

end ExtensionHost

end Rupi
