import Rupi.Core.Event
import Rupi.Core.Text
import Rupi.Lib.Keyed

/-!
The sessions of the worker, and what one engine result does to a session.

- `WorkerSession`: everything the service keeps of a session.
- `applyExecution`, `begin`, `cancelRun`, `finishRun`, `compacted`: the updates of one
  session.
- `WorkerSession.contents`: a session without the marks of its life cycle, which is what
  engine results are applied to.
- **`contents_finishRun`**, `contents_compacted`: an update of a session is that update of
  its contents.
-/

namespace Rupi

/-! ### Statuses and errors -/

/-- `WorkerStatus`. -/
inductive WorkerStatus where
  | idle
  | running
  | cancelling
  | completed
  | cancelled
  | failed
  deriving DecidableEq, Repr

namespace WorkerStatus

def terminal : WorkerStatus → Bool
  | completed | cancelled | failed => true
  | idle | running | cancelling => false

/-- The status of a session that has a job. -/
def busy : WorkerStatus → Bool
  | running | cancelling => true
  | idle | completed | cancelled | failed => false

lemma not_busy_of_terminal {status : WorkerStatus} (h : status.terminal = true) :
    status.busy = false := by
  cases status <;> simp_all [terminal, busy]

end WorkerStatus

/-- `WorkerError`. -/
structure WorkerError where
  code : String
  message : String
  retryable : Bool := false
  recoverable : Bool := true
  stateMayHaveChanged : Bool := false
  deriving DecidableEq, Repr

/-- `WorkerError::new`. -/
def WorkerError.new (code message : String) : WorkerError := { code, message }

def WorkerError.invalid (message : String) : WorkerError := .new "invalid_params" message

def WorkerError.notFound (message : String) : WorkerError := .new "session_not_found" message

/-! ### Sessions -/

structure WorkerExternalContext where
  provider : String
  resourceId : String
  citation : Option String
  provenance : String
  deriving DecidableEq, Repr

structure WorkerMessage where
  role : String
  text : String
  epoch : Nat
  model : ModelRef
  seq : Option Nat
  externalContext : Option WorkerExternalContext
  deriving DecidableEq, Repr

structure WorkerTraceEntry where
  seq : Nat
  kind : String
  timestampMs : Nat
  epoch : Option Nat
  model : Option ModelRef
  provenance : Option String
  deriving DecidableEq, Repr

inductive WorkerSummarySource where
  | declared
  | provider
  | runtime
  deriving DecidableEq, Repr

structure WorkerSummary where
  text : String
  source : WorkerSummarySource
  updatedAtMs : Nat
  deriving DecidableEq, Repr

structure WorkerDiffFile where
  path : String
  status : String
  additions : Nat
  deletions : Nat
  deriving DecidableEq, Repr

structure WorkerArtifact where
  id : String
  kind : String
  label : String
  citation : Option String
  deriving DecidableEq, Repr

structure WorkerCheckpoint where
  id : String
  summary : String
  createdAtMs : Nat
  deriving DecidableEq, Repr

structure WorkerModelEpoch where
  epoch : Nat
  model : ModelRef
  reason : String
  deriving DecidableEq, Repr

structure WorkerFailover where
  fromEpoch : Nat
  toEpoch : Nat
  reason : String
  deriving DecidableEq, Repr

/-- `WorkerState`: the stable state of one session. -/
structure WorkerState where
  sessionId : SessionId
  status : WorkerStatus
  activeRunId : Option String
  parentSession : Option SessionId
  branchedFromSeq : Option Nat
  primaryModel : Option ModelRef
  activeModel : Option ModelRef
  backupModel : Option ModelRef
  failedOver : Bool
  contextEpoch : Nat
  latestCheckpointId : Option String
  closed : Bool
  updatedAtMs : Nat
  epochs : List WorkerModelEpoch
  failovers : List WorkerFailover
  deriving DecidableEq, Repr

/-- `WorkerExecution`: the result of an engine. -/
structure WorkerExecution where
  summary : Option WorkerSummary := none
  messages : List WorkerMessage := []
  trace : List WorkerTraceEntry := []
  diff : Option (List WorkerDiffFile) := none
  artifacts : List WorkerArtifact := []
  checkpoint : Option WorkerCheckpoint := none
  epochs : List WorkerModelEpoch := []
  failovers : List WorkerFailover := []
  activeModel : Option ModelRef := none
  deriving DecidableEq, Repr

/-- `WorkerSession`; the cancel token of a run goes by the run's id. -/
structure WorkerSession where
  state : WorkerState
  summary : Option WorkerSummary
  messages : List WorkerMessage
  trace : List WorkerTraceEntry
  diff : Option (List WorkerDiffFile)
  artifacts : List WorkerArtifact
  checkpoint : Option WorkerCheckpoint
  cancel : Option String
  deriving DecidableEq, Repr

/-- The session that `start` inserts. -/
def WorkerSession.new (id : SessionId) (now : Nat) : WorkerSession where
  state :=
    { sessionId := id, status := .idle, activeRunId := none, parentSession := none,
      branchedFromSeq := none, primaryModel := none, activeModel := none, backupModel := none,
      failedOver := false, contextEpoch := 0, latestCheckpointId := none, closed := false,
      updatedAtMs := now, epochs := [], failovers := [] }
  summary := none
  messages := []
  trace := []
  diff := none
  artifacts := []
  checkpoint := none
  cancel := none

namespace WorkerSession

variable (session : WorkerSession)

/-- The session that `branch` inserts. -/
def branched (source id : SessionId) (now : Nat) : WorkerSession :=
  { session with
    state := { session.state with
      sessionId := id
      status := .idle
      activeRunId := none
      parentSession := some source
      branchedFromSeq := session.trace.getLast?.map WorkerTraceEntry.seq
      closed := false
      updatedAtMs := now }
    cancel := none }

/-! ### Engine results -/

/-- An epoch replaces the one of its number. -/
def mergeEpochs (known new : List WorkerModelEpoch) : List WorkerModelEpoch :=
  (new.foldl (fun epochs epoch => Keyed.put WorkerModelEpoch.epoch epoch epochs) known).insertionSort
    fun a b => a.epoch ≤ b.epoch

/-- A failover is kept once. -/
def mergeFailovers (known new : List WorkerFailover) : List WorkerFailover :=
  new.foldl (fun failovers failover =>
    if failover ∈ failovers then failovers else failovers ++ [failover]) known

/-- `apply_execution`. -/
def applyExecution (execution : WorkerExecution) : WorkerSession :=
  let checkpoint := execution.checkpoint.or session.checkpoint
  let failovers := mergeFailovers session.state.failovers execution.failovers
  { session with
    summary := execution.summary.or session.summary
    messages := if execution.messages = [] then session.messages else execution.messages
    trace := session.trace ++ execution.trace
    diff := execution.diff.or session.diff
    artifacts := session.artifacts ++ execution.artifacts
    checkpoint := checkpoint
    state := { session.state with
      epochs := mergeEpochs session.state.epochs execution.epochs
      failovers := failovers
      activeModel := execution.activeModel.or session.state.activeModel
      failedOver := !failovers.isEmpty
      latestCheckpointId := checkpoint.map WorkerCheckpoint.id } }

/-- The summary of a run that failed. -/
def failure (error : WorkerError) (now : Nat) : WorkerSession :=
  { session with summary := some ⟨error.message, .runtime, now⟩ }

/-- What the result of a run leaves of the session. -/
def applyResult (result : Except WorkerError WorkerExecution) (now : Nat) : WorkerSession :=
  match result with
  | .ok execution => session.applyExecution execution
  | .error error => session.failure error now

/-! ### The life cycle -/

/-- What `begin_run` changes. -/
def beginRun (run : String) (now : Nat) : WorkerSession :=
  { session with
    state := { session.state with status := .running, activeRunId := some run, updatedAtMs := now }
    cancel := some run }

/-- What `cancel` changes. -/
def cancelRun (now : Nat) : WorkerSession :=
  { session with state := { session.state with status := .cancelling, updatedAtMs := now } }

/-- The status a run ends with. -/
def endStatus (cancelled : Bool) (result : Except WorkerError WorkerExecution) : WorkerStatus :=
  if cancelled then .cancelled
  else match result with
    | .ok _ => .completed
    | .error _ => .failed

/-- What `finish_run` changes for the active run. -/
def finishRun (cancelled : Bool) (result : Except WorkerError WorkerExecution) (now : Nat) :
    WorkerSession :=
  let applied := session.applyResult result now
  { applied with
    state := { applied.state with
      status := endStatus cancelled result, activeRunId := none, updatedAtMs := now }
    cancel := none }

/-- `u32::MAX`. -/
def maxContextEpoch : Nat := 2 ^ 32 - 1

/-- `checked_add(1)` on the context epoch. -/
def nextEpoch : Option Nat :=
  if session.state.contextEpoch < maxContextEpoch then some (session.state.contextEpoch + 1)
  else none

/-- What the second half of `compact` changes. -/
def compacted (execution : WorkerExecution) (epoch now : Nat) : WorkerSession :=
  let applied := session.applyExecution execution
  { applied with
    state := { applied.state with
      contextEpoch := epoch
      updatedAtMs := now
      status := if applied.state.status = .idle then .completed else applied.state.status } }

end WorkerSession

/-! ### Contents -/

/-- The state without identity, run and clock. -/
def WorkerState.settled (state : WorkerState) : WorkerState :=
  { state with
    sessionId := "", status := .idle, activeRunId := none, parentSession := none
    branchedFromSeq := none, closed := false, updatedAtMs := 0 }

/-- A session without identity, run and clock. -/
def WorkerSession.contents (session : WorkerSession) : WorkerSession :=
  { session with state := session.state.settled, cancel := none }

/-- An accepted engine result. -/
inductive Accepted where
  | run (result : Except WorkerError WorkerExecution) (now : Nat)
  | compaction (execution : WorkerExecution)

/-- What an accepted result does to contents. -/
def Accepted.apply (contents : WorkerSession) : Accepted → WorkerSession
  | run result now => contents.applyResult result now
  | compaction execution =>
    let applied := contents.applyExecution execution
    { applied with
      state := { applied.state with contextEpoch := contents.state.contextEpoch + 1 } }

namespace WorkerSession

variable (session : WorkerSession)

@[simp] lemma contents_new (id : SessionId) (now : Nat) :
    (WorkerSession.new id now).contents = (WorkerSession.new "" 0).contents := rfl

@[simp] lemma contents_branched (source id : SessionId) (now : Nat) :
    (session.branched source id now).contents = session.contents := rfl

@[simp] lemma contents_beginRun (run : String) (now : Nat) :
    (session.beginRun run now).contents = session.contents := rfl

@[simp] lemma contents_cancelRun (now : Nat) :
    (session.cancelRun now).contents = session.contents := rfl

/-- The end of a run applies its result. -/
lemma contents_finishRun (cancelled : Bool) (result : Except WorkerError WorkerExecution)
    (now : Nat) :
    (session.finishRun cancelled result now).contents =
      (Accepted.run result now).apply session.contents := by
  cases result <;> rfl

/-- An accepted compaction applies its result and counts. -/
lemma contents_compacted (execution : WorkerExecution) {epoch : Nat} (now : Nat)
    (h : session.nextEpoch = some epoch) :
    (session.compacted execution epoch now).contents =
      (Accepted.compaction execution).apply session.contents := by
  rw [nextEpoch] at h
  split_ifs at h
  obtain rfl := Option.some.inj h
  rfl

end WorkerSession

end Rupi
