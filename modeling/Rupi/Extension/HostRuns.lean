import Rupi.Extension.Host

/-!
When the extension host neither gets stuck nor mixes answers.

- `ExtensionHost.Safe`: answers with their own ids, a ready host with a loaded process, nothing
  left behind a stop, own lines for every request, and no lost process kept.
- `ExtensionHost.Fair`: an error marks no process but the one it came from.
- `ExtensionHost.Clear`: the races and the lines that the host is not made for do not occur.
- `ExtensionHost.host_safe_of_clear`: the first two, in every run whose steps all meet the third.
-/

namespace Rupi

open Run Locks

variable {ρ : Type}

/-! ### Where an operation is -/

namespace ExchangeStage

/-- The request lock is held. -/
def locked : ExchangeStage → Bool
  | lock => false
  | _ => true

/-- The process was found running. -/
def checked : ExchangeStage → Bool
  | lock | checkExited => false
  | _ => true

end ExchangeStage

/-- The start lock is held, and the host was found not ready. -/
def StartStage.underWay : StartStage → Bool
  | lock | readStatus => false
  | _ => true

/-- The start lock is held. -/
def StartStage.locked : StartStage → Bool
  | lock => false
  | _ => true

namespace HostTask

/-- The locks that an operation holds. -/
def holds : HostTask ρ → HostLock → Bool
  | starting _ stage, name => stage.locked && decide (name = .start)
  | loading _ p stage, name =>
    decide (name = .start) || (stage.locked && decide (name = .request p))
  | finish _ _ _, name => decide (name = .start)
  | requesting _ p stage, name => stage.locked && decide (name = .request p)
  | _, _ => false

/-- The operation has found the process running and has not returned from it. -/
def engaged : HostTask ρ → Nat → Bool
  | loading _ p stage, q | requesting _ p stage, q => stage.checked && decide (q = p)
  | _, _ => false

/-- The operation may still start a process. -/
def mayStart : HostTask ρ → Bool
  | shutdownCheck | checkModules _ | starting _ _ => true
  | _ => false

/-- The operation is about to terminate the process of its request. -/
def cuts : HostTask ρ → Nat → Bool
  | loading _ p (.terminate _), q | requesting _ p (.terminate _), q => decide (q = p)
  | _, _ => false

/-- The operation is between the two sections of a stop. -/
def stops : HostTask ρ → Bool
  | terminating _ _ => true
  | _ => false

end HostTask

namespace ExtensionHost

variable (reader : RpcReader ρ) (s : ExtensionHost ρ)

/-! ### The claims about a state and a step -/

/-- The operation got a line that holds the result in a response with the id of its request. -/
def Answered (t : Nat) (result : ρ) : Prop :=
  ∃ p id bytes line response, (t, p, id, bytes) ∈ s.answers ∧ fromUtf8 bytes = some line ∧
    reader.response line = .ok response ∧ response.id = id ∧ response.ok = true ∧
    reader.result (response.result.getD .null) = .ok result

/-- The request waits for the answer of a process. -/
def Waits (t p id : Nat) : Prop :=
  ∃ goal, s.tasks t = .loading goal p (.wait id) ∨ s.tasks t = .requesting goal p (.wait id)

/-- What holds in a state, whatever happened before. -/
structure Safe : Prop where
  own : ∀ t result lost, s.tasks t = .done (.ok (some result)) lost → s.Answered reader t result
  ready : s.status = .ready → s.modules = true →
    ∃ p, s.child = some p ∧ (s.processes p).loaded = true
  stopped : s.stopped = true → s.child = none ∧ s.status ≠ .ready
  ordered : ∀ t p id asked bytes rest, s.Waits t p id →
    (s.processes p).queue = (asked, .line bytes) :: rest → asked = some id
  fresh : ∀ t result p, s.tasks t = .done result (some p) → s.child ≠ some p

/-- A ready host has not terminated its process. -/
def Live : Prop :=
  s.status = .ready → s.modules = true → ∀ p, s.child = some p → (s.processes p).terminated = false

/-- What holds of a step: an error that marks the host comes from its process, or from one it no
longer has while no other is being started. -/
def Fair : HostInput → Prop
  | .go t _ =>
    match s.tasks t with
    | .markLost _ p _ => s.child = some p ∨ (s.child = none ∧ s.locks .start = none)
    | .finish _ p (.error _) => s.child = some p ∨ s.child = none
    | _ => True
  | _ => True

/-- The races and the lines that the host is not made for:
a stop while an operation may still start a process, or the other way round;
the end of a load whose process was taken or terminated since;
a request that has lost its process after another was started;
a line that nobody has asked for; an overlong line of the process that the host has. -/
def Clear : HostInput → Prop
  | .start _ | .request _ | .shutdown _ => ∀ u ∈ s.begun, (s.tasks u).stops = false
  | .go t _ =>
    match s.tasks t with
    | .stopping _ => ∀ u ∈ s.begun, (s.tasks u).mayStart = false
    | .finish _ p (.ok _) => s.child = some p ∧ (s.processes p).terminated = false
    | .markLost _ p _ => s.child = some p ∨ (s.child = none ∧ s.locks .start = none)
    | _ => True
  | .line p _ => (s.processes p).owed ≠ none
  | .overflow p _ => s.child ≠ some p
  | _ => True

/-- No request terminates the process of a ready host. -/
def Uncut : HostInput → Prop
  | .go t _ =>
    s.status = .ready → ∀ p, s.child = some p → (s.tasks t).cuts p = false
  | _ => True

/-! ### What an operation can rely on -/

end ExtensionHost

namespace HostProcess

/-- A message is no line. -/
def noLine (message : Option Nat × HostMessage) : Prop := ∀ bytes, message.2 ≠ .line bytes

/-- No line is there, and none will come. -/
def Clean (process : HostProcess) : Prop :=
  (∀ message ∈ process.queue, noLine message) ∧ (process.owed = none ∨ process.closed = true)

/-- The line for a request is still owed or will not come, or it is the only one there. -/
def Awaiting (process : HostProcess) (id : Nat) : Prop :=
  ((∀ message ∈ process.queue, noLine message) ∧
      (process.owed = some id ∨ process.closed = true)) ∨
    ∃ bytes rest, process.queue = (some id, .line bytes) :: rest ∧
      (∀ message ∈ rest, noLine message) ∧ (process.owed = none ∨ process.closed = true)

/-- An error of the reader is there. -/
def HasError (process : HostProcess) : Prop :=
  ∃ message ∈ process.queue, noLine message

/-- What an exchange relies on. -/
def Exchanging (process : HostProcess) : ExchangeStage → Prop
  | .checkContext | .takeId | .write _ => process.Clean
  | .wait id => process.Awaiting id
  | _ => True

/-- A process stays what it was. -/
structure Follows (process process' : HostProcess) : Prop where
  exited : process.exited = true → process'.exited = true
  closed : process.closed = true → process'.closed = true
  attached : process.attached = true → process'.attached = true
  loaded : process.loaded = true → process'.loaded = true

/-- The messages are the same. -/
structure Same (process process' : HostProcess) : Prop where
  queue : process'.queue = process.queue
  owed : process'.owed = process.owed
  closed : process'.closed = process.closed

lemma Follows.refl (process : HostProcess) : process.Follows process := ⟨id, id, id, id⟩

lemma Same.refl (process : HostProcess) : process.Same process := ⟨rfl, rfl, rfl⟩

lemma Same.clean {process process' : HostProcess} (h : process.Same process')
    (hc : process.Clean) : process'.Clean := by
  rw [Clean, h.queue, h.owed, h.closed]
  exact hc

lemma Same.exchanging {process process' : HostProcess} {stage : ExchangeStage}
    (h : process.Same process') (he : process.Exchanging stage) : process'.Exchanging stage := by
  cases stage with
  | checkContext | takeId | write => exact h.clean he
  | wait id =>
    rw [Exchanging, Awaiting, h.queue, h.owed, h.closed]
    exact he
  | lock | checkExited | terminate => trivial

lemma Same.hasError {process process' : HostProcess} (h : process.Same process')
    (he : process'.HasError) : process.HasError := by
  rwa [HasError, h.queue] at he

end HostProcess

namespace ExtensionHost

variable (reader : RpcReader ρ) (s : ExtensionHost ρ)

/-- What an exchange with a process relies on: an error of its reader is that of a process that
the host no longer has. -/
def Engaged (p : Nat) (stage : ExchangeStage) : Prop :=
  (s.processes p).Exchanging stage ∧
    (stage.checked = true → (s.processes p).HasError → s.child ≠ some p)

/-- What an operation relies on. -/
def Relies (t : Nat) : HostTask ρ → Prop
  | .starting _ stage =>
    (stage.underWay = true → s.status ≠ .ready) ∧
      ∀ p, stage = .attach p → p < s.spawned ∧ (s.processes p).attached = false
  | .loading _ p stage =>
    s.status ≠ .ready ∧ (s.processes p).attached = true ∧ (s.child = none ∨ s.child = some p) ∧
      s.Engaged p stage
  | .finish _ p _ =>
    s.status ≠ .ready ∧ (s.processes p).attached = true ∧ (s.child = none ∨ s.child = some p)
  | .requesting _ p stage => (s.processes p).attached = true ∧ s.Engaged p stage
  | .markLost _ p _ => (s.processes p).attached = true
  | .stopping result => ∀ value, result = .ok (some value) → s.Answered reader t value
  | .terminating _ result =>
    s.halted = true ∧ ∀ value, result = .ok (some value) → s.Answered reader t value
  | .done result lost =>
    (∀ p, lost = some p → (s.processes p).attached = true ∧ s.child ≠ some p) ∧
      ∀ value, result = .ok (some value) → s.Answered reader t value
  | _ => True

/-- The invariant of a run. -/
structure Inv : Prop where
  locks : Locks.Agrees HostTask.holds s.locks s.tasks
  relies : ∀ t, s.Relies reader t (s.tasks t)
  calm : ∀ p, (∀ t, (s.tasks t).engaged p = false) →
    (s.processes p).exited = true ∨ (s.processes p).Clean
  errors : ∀ p, (s.processes p).HasError →
    (s.processes p).exited = true ∧ (s.processes p).closed = true
  ready : s.status = .ready → s.modules = true →
    ∃ p, s.child = some p ∧ (s.processes p).loaded = true
  attached : ∀ p, s.child = some p → (s.processes p).attached = true
  unspawned : ∀ p, s.spawned ≤ p → (s.processes p).attached = false
  known : ∀ t, t ∉ s.begun → s.tasks t = .idle
  halted : s.halted = true →
    s.child = none ∧ s.status ≠ .ready ∧ ∀ t, (s.tasks t).mayStart = false
  stopped : s.stopped = true → s.halted = true

/-! ### What a section does -/

/-- What a section of an operation does with what all of them share. -/
structure Touches (s s₁ : ExtensionHost ρ) (t : Nat) : Prop where
  tasks : s₁.tasks = s.tasks
  begun : s₁.begun = s.begun
  modules : s₁.modules = s.modules
  locks : s₁.locks = s.locks
  answers : s.answers ⊆ s₁.answers
  status : s₁.status = .ready → s.status = .ready ∨ (s.tasks t).holds .start = true
  child : s₁.child = s.child ∨ s₁.child = none ∨ ∃ p, s₁.child = some p ∧
    (s.tasks t).holds .start = true ∧ (s.processes p).attached = false ∧
    (s₁.processes p).attached = true
  follows : ∀ p, (s.processes p).Follows (s₁.processes p)
  same : ∀ p, (s.processes p).Same (s₁.processes p) ∨ (s.tasks t).engaged p = true
  attached : ∀ p, (s₁.processes p).attached = true →
    (s.processes p).attached = true ∨ ((s.tasks t).holds .start = true ∧ p < s₁.spawned)
  spawned : s.spawned ≤ s₁.spawned
  errors : ∀ p, (s₁.processes p).HasError → (s.processes p).HasError
  cuts : ∀ p, (s₁.processes p).terminated = true →
    (s.processes p).terminated = true ∨ s₁.status ≠ .ready ∨ (s.tasks t).cuts p = true
  ready : s₁.status = .ready → s.modules = true →
    (s.status = .ready ∧ s₁.child = s.child) ∨
      ∃ p, s₁.child = some p ∧ (s₁.processes p).loaded = true ∧
        (s₁.processes p).terminated = false
  halted : s.halted = true → s₁.halted = true
  halting : s₁.halted = true →
    s₁.child = none ∧ s₁.status ≠ .ready ∧ ∀ u, (s.tasks u).mayStart = false
  stopped : s₁.stopped = true → s₁.halted = true

/-- What holds of an operation behind its section. -/
structure Passes (s s₁ : ExtensionHost ρ) (t : Nat) (task : HostTask ρ) : Prop where
  relies : s₁.Relies reader t task
  calm : ∀ p, (s.tasks t).engaged p = true →
    task.engaged p = true ∨ (s₁.processes p).exited = true ∨ (s₁.processes p).Clean
  mayStart : task.mayStart = true → (s.tasks t).mayStart = true

/-- One section of an operation: it waits, or the shared state is touched and the operation goes
on. -/
inductive Section (s : ExtensionHost ρ) (t : Nat) : ExtensionHost ρ → Prop
  | stay : Section s t s
  | go (s₁ : ExtensionHost ρ) (locks : Table HostLock Nat) (task : HostTask ρ)
      (begun : s.tasks t ≠ .idle) (touches : s.Touches s₁ t)
      (agrees : Locks.Agrees HostTask.holds locks (Function.update s.tasks t task))
      (passes : s.Passes reader s₁ t task) :
      Section s t ({ s₁ with locks := locks }.goto t task)

end ExtensionHost

end Rupi
