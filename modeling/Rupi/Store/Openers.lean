import Rupi.Lib.Locks
import Rupi.Lib.Run
import Rupi.Store.Lease
import Rupi.Store.Retention

/-!
Processes that open sessions, and passes that delete them, one file-system call at a time.

- `OpenStage`: the calls of `Store::begin` and `Store::resume`.
- `SweepStage`: the calls of `retention::apply` and `retention::dry_run`.
- `Openers.step`: one call of one process, in any order of the processes.

The calls that only read a file which none but the lease's holder writes are joined with the
call that follows them.
-/

namespace Rupi

/-- A process that runs one operation of the store. -/
abbrev Pid := Nat

/-- A session file: none, one without a header yet, or one with a header. -/
inductive SessionFile where
  | absent
  | empty
  | headed
  deriving DecidableEq, Repr

/-- The paths of a session. -/
structure SessionFiles where
  session : SessionFile
  trace : Bool
  wal : Bool
  dir : Bool
  blobs : Bool
  checkpoints : Bool
  deriving DecidableEq, Repr

namespace SessionFiles

variable (files : SessionFiles)

/-- What an open session needs. -/
def complete : Prop :=
  files.session = .headed ∧ files.trace = true ∧ files.wal = true ∧ files.dir = true ∧
    files.blobs = true ∧ files.checkpoints = true

instance : Decidable files.complete := inferInstanceAs (Decidable (_ ∧ _))

/-- `ensure_session_dirs`, its three calls. -/
def createDir : SessionFiles := { files with dir := true }
def createBlobs : SessionFiles := { files with dir := true, blobs := true }
def createCheckpoints : SessionFiles := { files with dir := true, checkpoints := true }

/-- The directory removed with all that is in it. -/
def removeDir : SessionFiles := { files with dir := false, blobs := false, checkpoints := false }

end SessionFiles

/-- The two ways to open a session. -/
inductive Opening where
  | «begin»
  | resume
  deriving DecidableEq, Repr

/-- The next call of `Store::begin` or `Store::resume`. -/
inductive OpenStage where
  | readHeader
  | createDir
  | createBlobs
  | createCheckpoints
  | acquire (stage : LeaseStage)
  | migrate
  | openJournal
  | readFirstLine
  | createLog
  | writeHeader
  | resumeLog
  | openWal
  /-- `Store::session`, which creates the blob directory or panics. -/
  | openBlobs
  | recover
  deriving DecidableEq, Repr

/-- The next call of the removal of one session in a pass. -/
inductive RemoveStage where
  | acquire (stage : LeaseStage)
  | session
  | trace
  | wal
  | lookDir
  | dir
  | release
  deriving DecidableEq, Repr

/-- The next call of a retention pass. -/
inductive SweepStage where
  | acquire (stage : LeaseStage)
  | list
  | probe (id : SessionId) (todo : List SessionId) (found : List Candidate) (total : Nat)
      (stage : ProbeStage)
  | measure (id : SessionId) (todo : List SessionId) (found : List Candidate) (total : Nat)
  | remove (id : SessionId) (rest : List SessionId) (stage : RemoveStage)
  | done
  deriving DecidableEq, Repr

/-- The arguments of a retention pass. -/
structure Bounds where
  retention : TraceRetention
  nowMs : Nat
  keepNewest : Nat
  deriving DecidableEq, Repr

/-- Where a process is. -/
inductive Process where
  | idle
  | panicked
  | opening (how : Opening) (id : SessionId) (stage : OpenStage)
  | opened (how : Opening) (id : SessionId)
  | sweeping (dry : Bool) (bounds : Bounds) (stage : SweepStage)
  deriving DecidableEq, Repr

namespace OpenStage

/-- The lease is held before this call. -/
def locked : OpenStage → Bool
  | readHeader | createDir | createBlobs | createCheckpoints => false
  | acquire stage => stage.locked
  | _ => true

/-- The first call, after the name is checked. -/
def first : Opening → OpenStage
  | .begin => createDir
  | .resume => readHeader

/-- The call after the lease is acquired. -/
def leased : Opening → OpenStage
  | .begin => openJournal
  | .resume => migrate

end OpenStage

namespace Process

/-- The kernel locks that a process holds. -/
def holds : Process → LeaseName → Bool
  | opening _ id stage, name => stage.locked && decide (name = .session id)
  | opened _ id, name => decide (name = .session id)
  | sweeping _ _ (.acquire stage), name => stage.locked && decide (name = .retention)
  | sweeping dry _ (.probe id _ _ _ stage), name =>
    (!dry && decide (name = .retention)) ||
      (decide (stage = .unlock) && decide (name = .session id))
  | sweeping dry _ (.remove id _ (.acquire stage)), name =>
    (!dry && decide (name = .retention)) || (stage.locked && decide (name = .session id))
  | sweeping dry _ (.remove id _ _), name =>
    (!dry && decide (name = .retention)) || decide (name = .session id)
  | sweeping dry _ _, name => !dry && decide (name = .retention)
  | _, _ => false

/-- The process is between the two calls of a probe that lock and unlock. -/
def probes : Process → Bool
  | sweeping _ _ (.probe _ _ _ _ .unlock) => true
  | _ => false

/-- Between a successful `SessionLease::acquire` of a session, or its lock, and the release. -/
def owns (process : Process) (id : SessionId) : Bool :=
  process.holds (.session id) && !process.probes

end Process

namespace Bounds

variable (bounds : Bounds)

/-- The victims of a plan, from what the probes have found. -/
def victims (total : Nat) (found : List Candidate) : List SessionId :=
  (Drain.drain (Retention.expired bounds.retention bounds.nowMs)
    (Retention.oversized bounds.retention) Retention.weight total
    (Retention.byAge found)).map (·.session.id)

/-- A pass goes on to the next victim. -/
def removing (dry : Bool) : List SessionId → Process
  | [] => .sweeping dry bounds .done
  | id :: rest => .sweeping dry bounds (.remove id rest (.acquire .createDir))

/-- A pass goes on to the next name of the listing, or from its plan to the victims. -/
def planning (dry : Bool) (found : List Candidate) (total : Nat) : List SessionId → Process
  | [] => bounds.removing dry (if dry then [] else bounds.victims total found)
  | id :: todo => .sweeping dry bounds (.probe id todo found total .lookDir)

/-- The names behind the newest, if a bound asks for them. -/
def unprotected (listed : List SessionId) : List SessionId :=
  if bounds.retention.maxAgeDays.isNone && bounds.retention.maxBytes.isNone then []
  else listed.drop bounds.keepNewest

end Bounds

/-- What happens next: a process starts an operation, makes its next call, drops its session, or
ends, by a crash or because a call failed for a reason of its own; or an old process that holds a
lease without a lock file exits. A call that reads the sessions directory, which other processes
change while it is read, may find any names and sizes. -/
inductive OpenerInput where
  | «open» (p : Pid) (how : Opening) (id : SessionId)
  | sweep (p : Pid) (dry : Bool) (bounds : Bounds)
  | call (p : Pid) (listed : List SessionId) (bytes : Nat)
  | drop (p : Pid)
  | stop (p : Pid)
  | ownerExit (name : LeaseName)
  deriving DecidableEq, Repr

/-- The store, its kernel locks and the processes. `lost` remembers the sessions of which a pass
has removed a path since the session file was created. -/
structure Openers where
  files : SessionId → SessionFiles
  lost : SessionId → Bool
  leases : LeaseName → LeaseDir
  locks : Locks.Table LeaseName Pid
  processes : Pid → Process

namespace Openers

variable (s : Openers) (p : Pid)

/-- A machine that has just started. -/
def boot (files : SessionId → SessionFiles) (leases : LeaseName → LeaseDir) : Openers where
  files := files
  lost _ := false
  leases := leases
  locks _ := none
  processes _ := .idle

/-- The process is at its next call. -/
def goto (process : Process) : Openers :=
  { s with processes := Function.update s.processes p process }

/-- The process has ended or its operation has failed: its files are closed. -/
def leave (process : Process) : Openers :=
  { s with
    locks := Locks.releaseAll s.locks p
    processes := Function.update s.processes p process }

def setFiles (id : SessionId) (files : SessionFiles) : Openers :=
  { s with files := Function.update s.files id files }

def setLease (name : LeaseName) (lease : LeaseDir) : Openers :=
  { s with leases := Function.update s.leases name lease }

def setLost (id : SessionId) (lost : Bool) : Openers :=
  { s with lost := Function.update s.lost id lost }

/-- The kernel lock of the lease is taken. -/
def lock (name : LeaseName) : Openers := { s with locks := Locks.take s.locks name p }

/-- The kernel lock of the lease is given back. -/
def unlock (name : LeaseName) : Openers := { s with locks := Locks.release s.locks name }

/-- One call of `SessionLease::acquire`: `at'` is the process inside it, `acquired` behind it, and
`refused` what is left where it returns that the session is active elsewhere, or that its marker
is corrupt. -/
def acquireStep (name : LeaseName) (at' : LeaseStage → Process) (acquired : Process)
    (refused : Openers → Openers) (stage : LeaseStage) : Openers :=
  let (lease, outcome) := stage.step (s.leases name) (s.locks name).isNone
  let s := s.setLease name lease
  match outcome with
  | .next stage => s.goto p (at' stage)
  | .locked => (s.lock p name).goto p (at' .checkMarker)
  | .active => refused s
  | .corruptMarker => refused (s.unlock name)
  | .acquired => s.goto p acquired

/-- One call of `Store::begin` or `Store::resume`. -/
def openStep (how : Opening) (id : SessionId) (stage : OpenStage) : Openers :=
  let files := s.files id
  let goto (s : Openers) (stage : OpenStage) := s.goto p (.opening how id stage)
  match stage with
  | .readHeader => if files.session = .headed then goto s .createDir else s.leave p .idle
  | .createDir => goto (s.setFiles id files.createDir) .createBlobs
  | .createBlobs => goto (s.setFiles id files.createBlobs) .createCheckpoints
  | .createCheckpoints =>
    goto (s.setFiles id files.createCheckpoints) (.acquire .createDir)
  | .acquire stage =>
    s.acquireStep p (.session id) (fun stage => .opening how id (.acquire stage))
      (.opening how id (.leased how)) (fun s => s.leave p .idle) stage
  | .migrate => if files.session = .headed then goto s .openJournal else s.leave p .idle
  | .openJournal =>
    goto (s.setFiles id { files with trace := true })
      (match how with
        | .begin => .readFirstLine
        | .resume => .resumeLog)
  | .readFirstLine => if files.session = .headed then s.leave p .idle else goto s .createLog
  | .createLog =>
    -- a file that is there already stays as it is
    if files.session = .absent then
      goto ((s.setFiles id { files with session := .empty }).setLost id false) .writeHeader
    else goto s .writeHeader
  | .writeHeader =>
    -- the header is written through the open file, even where its path is gone
    let session := if files.session = .absent then .absent else .headed
    goto (s.setFiles id { files with session := session }) .openWal
  | .resumeLog => if files.session = .headed then goto s .openWal else s.leave p .idle
  | .openWal => goto (s.setFiles id { files with wal := true }) .openBlobs
  | .openBlobs =>
    if SessionLog.isSessionId id then
      let s := s.setFiles id files.createBlobs
      match how with
      | .begin => s.goto p (.opened .begin id)
      | .resume => goto s .recover
    else s.leave p .panicked
  | .recover =>
    if files.session = .headed then s.goto p (.opened how id) else s.leave p .idle

/-- One call of the removal of a session, under its lease. -/
def removeStep (dry : Bool) (bounds : Bounds) (id : SessionId) (rest : List SessionId)
    (stage : RemoveStage) : Openers :=
  let files := s.files id
  let goto (s : Openers) (stage : RemoveStage) :=
    s.goto p (.sweeping dry bounds (.remove id rest stage))
  match stage with
  | .acquire stage =>
    s.acquireStep p (.session id)
      (fun stage => .sweeping dry bounds (.remove id rest (.acquire stage)))
      (.sweeping dry bounds (.remove id rest .session))
      (fun s => s.goto p (bounds.removing dry rest)) stage
  | .session =>
    goto ((s.setFiles id { files with session := .absent }).setLost id
      (s.lost id || decide (files.session ≠ .absent))) .trace
  | .trace =>
    goto ((s.setFiles id { files with trace := false }).setLost id (s.lost id || files.trace)) .wal
  | .wal =>
    goto ((s.setFiles id { files with wal := false }).setLost id (s.lost id || files.wal)) .lookDir
  | .lookDir => goto s (if files.dir then .dir else .release)
  | .dir =>
    -- a directory that has gone since is an error of the pass
    if files.dir then goto ((s.setFiles id files.removeDir).setLost id true) .release
    else s.leave p .idle
  | .release => (s.unlock (.session id)).goto p (bounds.removing dry rest)

/-- One call of a retention pass. -/
def sweepStep (dry : Bool) (bounds : Bounds) (listed : List SessionId) (bytes : Nat)
    (stage : SweepStage) : Openers :=
  match stage with
  | .acquire stage =>
    s.acquireStep p .retention (fun stage => .sweeping dry bounds (.acquire stage))
      (.sweeping dry bounds .list) (fun s => s.leave p .idle) stage
  | .list => s.goto p (bounds.planning dry [] bytes (bounds.unprotected listed))
  | .probe id todo found total stage =>
    let goto (s : Openers) (stage : ProbeStage) :=
      s.goto p (.sweeping dry bounds (.probe id todo found total stage))
    let name := LeaseName.session id
    let s' := if stage = .unlock then s.unlock name else s
    match stage.step (s.leases name) (s.locks name).isNone with
    | .next stage => goto s' stage
    | .locked => goto (s'.lock p name) .unlock
    | .answer true => s'.goto p (bounds.planning dry found total todo)
    | .answer false => s'.goto p (.sweeping dry bounds (.measure id todo found total))
  | .measure id todo found total =>
    let candidate := (StoredSession.mk id bytes false).dated?
    s.goto p (bounds.planning dry (found ++ candidate.toList) total todo)
  | .remove id rest stage => s.removeStep p dry bounds id rest stage
  | .done => s.leave p .idle

/-- One step of the whole. -/
def step (s : Openers) : OpenerInput → Openers
  | .open p how id =>
    match s.processes p with
    | .idle => if SessionLog.isSessionId id then s.goto p (.opening how id (.first how)) else s
    | _ => s
  | .sweep p dry bounds =>
    match s.processes p with
    | .idle =>
      s.goto p (.sweeping dry bounds (if dry then .list else .acquire .createDir))
    | _ => s
  | .call p listed bytes =>
    match s.processes p with
    | .opening how id stage => s.openStep p how id stage
    | .sweeping dry bounds stage => s.sweepStep p dry bounds listed bytes stage
    | _ => s
  | .drop p =>
    match s.processes p with
    | .opened _ id => (s.unlock (.session id)).goto p .idle
    | _ => s
  | .stop p => s.leave p .idle
  | .ownerExit name => s.setLease name { s.leases name with ownerAlive := false }

end Openers

end Rupi
