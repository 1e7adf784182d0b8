import Rupi.Store.Openers

/-!
Opening a session excludes deleting it.

- `Openers.Safe`: one owner of a lease, and everything of an open session in its place.
- `Openers.Fair`: no pass deletes an open session, and an opener is refused only for an owner.
- `Openers.Clear`: no opener meets a probe at the lock, and `begin` finds its directories there.
- `Openers.safe_of_clear`: the first two, in every run whose steps all meet the third.
- `Openers.gap_and_probe_go_wrong`: and not in every run.
-/

namespace Rupi

open Locks Run

/-! ### The claims about a state and a step -/

namespace SessionFiles

/-- The directories that only `ensure_session_dirs` creates. -/
def Rooted (files : SessionFiles) : Prop := files.dir = true ∧ files.checkpoints = true

/-- Only directories were added. -/
structure Grows (files files' : SessionFiles) : Prop where
  session : files'.session = files.session
  trace : files'.trace = files.trace
  wal : files'.wal = files.wal
  dir : files.dir = true → files'.dir = true
  blobs : files.blobs = true → files'.blobs = true
  checkpoints : files.checkpoints = true → files'.checkpoints = true

lemma Grows.refl (files : SessionFiles) : Grows files files := ⟨rfl, rfl, rfl, id, id, id⟩

lemma grows_createDir (files : SessionFiles) : Grows files files.createDir :=
  ⟨rfl, rfl, rfl, fun _ => rfl, id, id⟩

lemma grows_createBlobs (files : SessionFiles) : Grows files files.createBlobs :=
  ⟨rfl, rfl, rfl, fun _ => rfl, fun _ => rfl, id⟩

lemma grows_createCheckpoints (files : SessionFiles) : Grows files files.createCheckpoints :=
  ⟨rfl, rfl, rfl, fun _ => rfl, id, fun _ => rfl⟩

lemma Grows.rooted {files files' : SessionFiles} (h : Grows files files') (hr : files.Rooted) :
    files'.Rooted :=
  ⟨h.dir hr.1, h.checkpoints hr.2⟩

end SessionFiles

/-- The call removes a path. -/
def RemoveStage.removes : RemoveStage → Bool
  | .session | .trace | .wal | .dir => true
  | _ => false

namespace Openers

variable (s : Openers)

/-- What holds in a state, whatever happened before. -/
structure Safe : Prop where
  exclusive : ∀ id p q, (s.processes p).owns id = true → (s.processes q).owns id = true → p = q
  whole : ∀ p how id, s.processes p = .opened how id →
    (s.files id).complete ∧ s.lost id = false
  calm : ∀ p, s.processes p ≠ .panicked

/-- The session whose files the next step removes. -/
def removes : OpenerInput → Option SessionId
  | .call p _ _ =>
    match s.processes p with
    | .sweeping _ _ (.remove id _ stage) => if stage.removes then some id else none
    | _ => none
  | _ => none

/-- The session that the next step refuses to open as active elsewhere, with the call that does. -/
def refuses : OpenerInput → Option (SessionId × LeaseStage)
  | .call p _ _ =>
    match s.processes p with
    | .opening _ id (.acquire stage) =>
      if (stage.step (s.leases (.session id)) (s.locks (.session id)).isNone).2 = .active
      then some (id, stage) else none
    | _ => none
  | _ => none

/-- What holds of a step: nothing of an open session is removed, and who is refused is refused
because a process owns the lease, or for the marker of one beside a lock file that was absent. -/
structure Fair (input : OpenerInput) : Prop where
  keeps : ∀ id, s.removes input = some id → ∀ p how, s.processes p ≠ .opened how id
  refused : ∀ id stage, s.refuses input = some (id, stage) →
    (∃ p, (s.processes p).owns id = true) ∨
      (stage = .lookOwner ∧ (s.leases (.session id)).ownerAlive = true)

/-- The lock that an opener tries is not held by a probe, and `begin` takes it only while the
directories that it has created are there. -/
def Clear : OpenerInput → Prop
  | .call p _ _ =>
    match s.processes p with
    | .opening how id (.acquire .tryLock) =>
      match s.locks (.session id) with
      | some q => (s.processes q).probes = false
      | none => how = .begin → (s.files id).dir = true ∧ (s.files id).checkpoints = true
    | _ => True
  | _ => True

instance (input : OpenerInput) : Decidable (s.Clear input) := by
  unfold Clear
  split
  · split
    · split <;> infer_instance
    · infer_instance
  · infer_instance

/-! ### What a process can rely on -/

/-- What an opener has found or made by a call. -/
def Needs (files : SessionFiles) : Opening → OpenStage → Prop
  | .begin, .acquire stage => stage.locked = true → files.Rooted
  | .begin, .openJournal => files.Rooted
  | .begin, .readFirstLine | .begin, .createLog => files.Rooted ∧ files.trace = true
  | .begin, .writeHeader => files.Rooted ∧ files.trace = true ∧ files.session ≠ .absent
  | .begin, .openWal => files.Rooted ∧ files.trace = true ∧ files.session = .headed
  | .begin, .openBlobs =>
    files.Rooted ∧ files.trace = true ∧ files.session = .headed ∧ files.wal = true
  | .resume, .acquire _ | .resume, .migrate => files.session ≠ .absent → files.Rooted
  | .resume, .openJournal => files.Rooted ∧ files.session = .headed
  | .resume, .resumeLog | .resume, .openWal =>
    files.Rooted ∧ files.session = .headed ∧ files.trace = true
  | .resume, .openBlobs =>
    files.Rooted ∧ files.session = .headed ∧ files.trace = true ∧ files.wal = true
  | .resume, .recover => files.complete
  | _, .readHeader | _, .createDir | _, .createBlobs | _, .createCheckpoints => True
  -- the calls of the other way to open
  | .begin, .migrate | .begin, .resumeLog | .begin, .recover => False
  | .resume, .readFirstLine | .resume, .createLog | .resume, .writeHeader => False

/-- A pass behind the removal of the session file. -/
def Stripped (files : SessionFiles) : RemoveStage → Prop
  | .trace | .wal | .lookDir | .dir => files.session = .absent
  | _ => True

/-- What a process relies on. -/
def Relies (files : SessionId → SessionFiles) : Process → Prop
  | .idle => True
  | .panicked => False
  | .opening how id stage => SessionLog.isSessionId id = true ∧ Needs (files id) how stage
  | .opened _ id => (files id).complete
  | .sweeping _ _ (.remove id _ stage) => Stripped (files id) stage
  | .sweeping dry _ (.acquire _) => dry = false
  | .sweeping _ _ _ => True

/-- The invariant of a run. -/
structure Inv : Prop where
  locks : Locks.Agrees Process.holds s.locks s.processes
  relies : ∀ p, Relies s.files (s.processes p)
  lost : ∀ id, s.lost id = true → (s.files id).session = .absent

variable {s}

lemma needs_of_unlocked {files : SessionFiles} {how : Opening} {stage : OpenStage}
    (h : stage.locked = false) (hr : files.session ≠ .absent → files.Rooted) :
    Needs files how stage := by
  cases how <;> cases stage <;> simp_all [Needs, OpenStage.locked]

lemma Needs.grows {files files' : SessionFiles} {how : Opening} {stage : OpenStage}
    (h : Needs files how stage) (hg : files.Grows files') : Needs files' how stage := by
  have hr : files.Rooted → files'.Rooted := hg.rooted
  cases how <;> cases stage <;>
    simp_all [Needs, hg.session, hg.trace, hg.wal, SessionFiles.complete, hg.dir, hg.blobs,
      hg.checkpoints]

lemma Stripped.grows {files files' : SessionFiles} {stage : RemoveStage}
    (h : Stripped files stage) (hg : files.Grows files') : Stripped files' stage := by
  cases stage <;> simp_all [Stripped, hg.session]

/-! ### What one call keeps -/

section Update

variable {files : SessionId → SessionFiles} {lost : SessionId → Bool}
  {leases : LeaseName → LeaseDir} {locks : Table LeaseName Pid} {p : Pid} {c : Process}
  {id : SessionId} {f : SessionFiles}

/-- A process relies on nothing that another process changes: that one adds directories, or it
holds the lease. -/
lemma Relies.other {c : Process} (h : Relies s.files c)
    (hfiles : ∀ id, (s.files id).Grows (files id) ∨
      (c.holds (.session id) = false ∧ ((files id).session ≠ .absent → (files id).Rooted))) :
    Relies files c := by
  cases c with
  | idle => trivial
  | panicked => exact h.elim
  | opening how id stage =>
    refine ⟨h.1, ?_⟩
    rcases hfiles id with hgrows | ⟨hfree, hr⟩
    · exact h.2.grows hgrows
    · exact needs_of_unlocked (by simpa [Process.holds] using hfree) hr
  | opened how id =>
    rcases hfiles id with hgrows | ⟨hfree, -⟩
    · obtain ⟨hsession, htrace, hwal, hdir, hblobs, hcheckpoints⟩ := h
      exact ⟨hgrows.session.trans hsession, hgrows.trace.trans htrace, hgrows.wal.trans hwal,
        hgrows.dir hdir, hgrows.blobs hblobs, hgrows.checkpoints hcheckpoints⟩
    · simp [Process.holds] at hfree
  | sweeping dry bounds stage =>
    cases stage with
    | acquire | list | probe | measure | done => exact h
    | remove id rest stage =>
      rcases hfiles id with hgrows | ⟨hfree, -⟩
      · exact h.grows hgrows
      · cases stage <;> simp [Process.holds, Stripped, Relies] at hfree ⊢

/-- One call of a process: its locks, its files and what it relies on are its own affair. -/
lemma Inv.call (h : s.Inv)
    (hlocks : Locks.Agrees Process.holds locks (Function.update s.processes p c))
    (hfiles : ∀ id, (s.files id).Grows (files id) ∨
      ((s.processes p).holds (.session id) = true ∧
        ((files id).session ≠ .absent → (files id).Rooted)))
    (hown : Relies files c) (hlost : ∀ id, lost id = true → (files id).session = .absent) :
    Inv ⟨files, lost, leases, locks, Function.update s.processes p c⟩ where
  locks := hlocks
  lost := hlost
  relies q := by
    by_cases hq : q = p
    · simpa [hq] using hown
    · change Relies files (Function.update s.processes p c q)
      rw [Function.update_of_ne hq]
      refine (h.relies q).other fun id => (hfiles id).imp_right fun ⟨hheld, hr⟩ => ⟨?_, hr⟩
      by_contra hother
      exact hq (h.locks.exclusive (by simpa using hother) hheld)

/-- A call that changes no path of a session. -/
lemma Inv.quiet (h : s.Inv)
    (hlocks : Locks.Agrees Process.holds locks (Function.update s.processes p c))
    (hown : Relies s.files c) :
    Inv ⟨s.files, s.lost, leases, locks, Function.update s.processes p c⟩ :=
  h.call hlocks (fun _ => .inl (.refl _)) hown h.lost

/-- A call that changes paths of one session. -/
lemma Inv.touch {l : Bool} (h : s.Inv)
    (hlocks : Locks.Agrees Process.holds locks (Function.update s.processes p c))
    (hfiles : (s.files id).Grows f ∨
      ((s.processes p).holds (.session id) = true ∧ (f.session ≠ .absent → f.Rooted)))
    (hown : Relies (Function.update s.files id f) c) (hlost : l = true → f.session = .absent) :
    Inv ⟨Function.update s.files id f, Function.update s.lost id l, leases, locks,
      Function.update s.processes p c⟩ := by
  refine h.call hlocks (fun id' => ?_) hown fun id' => ?_
  · by_cases hid : id' = id
    · simpa [hid] using hfiles
    · exact .inl (by rw [Function.update_of_ne hid]; exact .refl _)
  · by_cases hid : id' = id
    · simpa [hid] using hlost
    · simpa [Function.update_of_ne hid] using h.lost id'

/-- A call that changes paths of one session, and deletes nothing. -/
lemma Inv.make (h : s.Inv)
    (hlocks : Locks.Agrees Process.holds locks (Function.update s.processes p c))
    (hfiles : (s.files id).Grows f ∨
      ((s.processes p).holds (.session id) = true ∧ (f.session ≠ .absent → f.Rooted)))
    (hown : Relies (Function.update s.files id f) c)
    (hlost : (s.files id).session = .absent → f.session = .absent) :
    Inv ⟨Function.update s.files id f, s.lost, leases, locks,
      Function.update s.processes p c⟩ := by
  rw [← Function.update_eq_self id s.lost]
  exact h.touch hlocks hfiles hown fun hl => hlost (h.lost id hl)

/-- A process that closes its files. -/
lemma Inv.leave (h : s.Inv) (hc : ∀ n, c.holds n = false) (hown : Relies s.files c) :
    (s.leave p c).Inv :=
  h.quiet (h.locks.releaseAll hc) hown

end Update

/-! ### The calls of an acquire -/

/-- One call of `SessionLease::acquire`: the lock of this lease is the only one that changes
hands. -/
lemma Inv.acquireStep {p : Pid} {name : LeaseName} {at' : LeaseStage → Process}
    {acquired : Process} {refused : Openers → Openers} {stage : LeaseStage} (h : s.Inv)
    (hp : s.processes p = at' stage) (hheld : ∀ stage, (at' stage).holds name = stage.locked)
    (hothers : ∀ stage' m, m ≠ name → (at' stage').holds m = (at' stage).holds m)
    (hacquired : acquired.holds name = true)
    (hacquired' : ∀ m, m ≠ name → acquired.holds m = (at' stage).holds m)
    (hnext : ∀ stage', stage'.locked = stage.locked → Relies s.files (at' stage'))
    (hlocked : stage = .tryLock → s.locks name = none → Relies s.files (at' .checkMarker))
    (hdone : stage.locked = true → Relies s.files acquired)
    (hactive : ∀ leases, stage.locked = false → Inv (refused { s with leases := leases }))
    (hcorrupt : ∀ leases, stage.locked = true →
      Inv (refused (Openers.unlock { s with leases := leases } name))) :
    (s.acquireStep p name at' acquired refused stage).Inv := by
  have hkeep : ∀ stage', stage'.locked = stage.locked →
      ∀ m, (at' stage').holds m = (s.processes p).holds m := by
    intro stage' hlock m
    rw [hp]
    by_cases hm : m = name
    · rw [hm, hheld, hheld, hlock]
    · exact hothers stage' m hm
  cases hl : stage.locked with
  | false =>
    rcases LeaseStage.step_unlocked (s.leases name) (s.locks name).isNone hl with
      ⟨stage', hout, hl'⟩ | ⟨hfree, hout⟩ | hout
    · have hsame : stage'.locked = stage.locked := hl'.trans hl.symm
      simp only [Openers.acquireStep, hout]
      exact h.quiet (h.locks.keep (hkeep stage' hsame)) (hnext stage' hsame)
    · have hfree' : s.locks name = none := Option.isNone_iff_eq_none.1 hfree
      have htry : stage = .tryLock := by
        cases stage with
        | tryLock => rfl
        | lookOwner =>
          rw [LeaseStage.step] at hout
          split at hout <;> cases hout
        | createDir | lookLock | openLock => cases hout
        | checkMarker | writeOwner => cases hl
      simp only [Openers.acquireStep, hout]
      refine h.quiet (h.locks.take hfree' (by rw [hheld]; rfl) fun m hm => ?_)
        (hlocked htry hfree')
      rw [hp]
      exact hothers _ m hm
    · simp only [Openers.acquireStep, hout]
      exact hactive _ hl
  | true =>
    rcases LeaseStage.step_locked (s.leases name) (s.locks name).isNone hl with
      hout | hout | hout
    · have hsame : LeaseStage.writeOwner.locked = stage.locked := hl.symm
      simp only [Openers.acquireStep, hout]
      exact h.quiet (h.locks.keep (hkeep _ hsame)) (hnext _ hsame)
    · simp only [Openers.acquireStep, hout]
      exact hcorrupt _ hl
    · simp only [Openers.acquireStep, hout]
      refine h.quiet (h.locks.keep fun m => ?_) (hdone hl)
      rw [hp]
      by_cases hm : m = name
      · rw [hm, hacquired, hheld, hl]
      · exact hacquired' m hm

/-! ### The calls of an opener -/

section Opener

variable {p : Pid} {how : Opening} {id : SessionId} {stage stage' : OpenStage} {f : SessionFiles}

/-- An opener goes on in the same files. -/
lemma Inv.advance (h : s.Inv) (hp : s.processes p = .opening how id stage)
    (hlocked : stage'.locked = stage.locked) (hneeds : Needs (s.files id) how stage') :
    (s.goto p (.opening how id stage')).Inv := by
  refine h.quiet (h.locks.keep fun n => by rw [hp, Process.holds, Process.holds, hlocked]) ⟨?_, hneeds⟩
  have hr := h.relies p
  rw [hp] at hr
  exact hr.1

/-- An opener goes on after a call that makes something. -/
lemma Inv.build (h : s.Inv) (hp : s.processes p = .opening how id stage)
    (hlocked : stage'.locked = stage.locked)
    (hf : (s.files id).Grows f ∨ (stage.locked = true ∧ (f.session ≠ .absent → f.Rooted)))
    (hneeds : Needs f how stage') (hlost : (s.files id).session = .absent → f.session = .absent) :
    ((s.setFiles id f).goto p (.opening how id stage')).Inv := by
  have hr := h.relies p
  rw [hp] at hr
  refine h.make (h.locks.keep fun n => ?_) (hf.imp_right fun ⟨hl, hf⟩ => ⟨?_, hf⟩) ⟨hr.1, ?_⟩ hlost
  · rw [hp, Process.holds, Process.holds, hlocked]
  · rwa [Function.update_self]
  · simp [hp, Process.holds, hl]

/-- An opener whose call fails. -/
lemma Inv.giveUp (h : s.Inv) (p : Pid) : (s.leave p .idle).Inv := h.leave (fun _ => rfl) trivial

lemma Inv.acquireSession (h : s.Inv) {stage : LeaseStage}
    (hp : s.processes p = .opening how id (.acquire stage))
    (hclear : stage = .tryLock → s.locks (.session id) = none → how = .begin →
      (s.files id).Rooted) :
    (s.openStep p how id (.acquire stage)).Inv := by
  have hr := h.relies p
  rw [hp] at hr
  obtain ⟨hid, hneeds⟩ := hr
  change (s.acquireStep p (.session id) (fun stage => .opening how id (.acquire stage))
    (.opening how id (.leased how)) (fun s => s.leave p .idle) stage).Inv
  refine h.acquireStep hp ?_ ?_ ?_ ?_ ?_ ?_ ?_ ?_ ?_
  · intro stage
    simp [Process.holds, OpenStage.locked]
  · intro stage' m hm
    simp [Process.holds, hm]
  · cases how <;> simp [Process.holds, OpenStage.locked, OpenStage.leased]
  · intro m hm
    simp [Process.holds, hm]
  · intro stage' hl
    refine ⟨hid, ?_⟩
    cases how with
    | «begin» => exact fun hl' => hneeds (hl ▸ hl')
    | resume => exact hneeds
  · intro htry hfree
    refine ⟨hid, ?_⟩
    cases how with
    | «begin» => exact fun _ => hclear htry hfree rfl
    | resume => exact hneeds
  · intro hl
    refine ⟨hid, ?_⟩
    cases how with
    | «begin» => exact hneeds hl
    | resume => exact hneeds
  · intro leases _
    exact h.quiet (h.locks.releaseAll fun _ => rfl) trivial
  · intro leases hl
    refine h.quiet ?_ trivial
    have hheld : s.locks (.session id) = some p :=
      (h.locks _ _).2 (by simp [hp, Process.holds, OpenStage.locked, hl])
    change Locks.Agrees _ (releaseAll (release s.locks _) p) _
    rw [releaseAll_release hheld]
    exact h.locks.releaseAll fun _ => rfl

/-- **One call of an opener.** -/
lemma Inv.openStep (h : s.Inv) (hp : s.processes p = .opening how id stage)
    (hclear : stage = .acquire .tryLock → s.locks (.session id) = none → how = .begin →
      (s.files id).Rooted) :
    (s.openStep p how id stage).Inv := by
  have hr := h.relies p
  rw [hp] at hr
  obtain ⟨hid, hneeds⟩ := hr
  cases stage with
  | readHeader =>
    rw [Openers.openStep]
    split_ifs
    · exact h.advance hp rfl (by cases how <;> trivial)
    · exact h.giveUp p
  | createDir =>
    exact h.build hp rfl (.inl (SessionFiles.grows_createDir _)) (by cases how <;> trivial) fun hs => hs
  | createBlobs =>
    exact h.build hp rfl (.inl (SessionFiles.grows_createBlobs _)) (by cases how <;> trivial) fun hs => hs
  | createCheckpoints =>
    refine h.build hp rfl (.inl (SessionFiles.grows_createCheckpoints _)) ?_ fun hs => hs
    cases how with
    | «begin» => exact fun hl => by cases hl
    | resume => exact fun _ => ⟨rfl, rfl⟩
  | acquire stage => exact h.acquireSession hp fun htry => hclear (by rw [htry])
  | migrate =>
    cases how with
    | «begin» => exact hneeds.elim
    | resume =>
      rw [Openers.openStep]
      split_ifs with hs
      · exact h.advance hp rfl ⟨hneeds (by rw [hs]; simp), hs⟩
      · exact h.giveUp p
  | openJournal =>
    cases how with
    | «begin» => exact h.build hp rfl (.inr ⟨rfl, fun _ => hneeds⟩) ⟨hneeds, rfl⟩ fun hs => hs
    | resume =>
      exact h.build hp rfl (.inr ⟨rfl, fun _ => hneeds.1⟩) ⟨hneeds.1, hneeds.2, rfl⟩ fun hs => hs
  | readFirstLine =>
    cases how with
    | «begin» =>
      rw [Openers.openStep]
      split_ifs
      · exact h.giveUp p
      · exact h.advance hp rfl hneeds
    | resume => exact hneeds.elim
  | createLog =>
    cases how with
    | «begin» =>
      rw [Openers.openStep]
      split_ifs with hs
      · refine h.touch (h.locks.keep fun n => by rw [hp]; rfl) (.inr ⟨?_, fun _ => hneeds.1⟩) ⟨hid, ?_⟩
          fun hl => by cases hl
        · simp [hp, Process.holds, OpenStage.locked]
        · rw [Function.update_self]
          exact ⟨hneeds.1, hneeds.2, by simp⟩
      · exact h.advance hp rfl ⟨hneeds.1, hneeds.2, hs⟩
    | resume => exact hneeds.elim
  | writeHeader =>
    cases how with
    | «begin» =>
      obtain ⟨hroot, htrace, hs⟩ := hneeds
      refine h.build hp rfl (.inr ⟨rfl, fun _ => hroot⟩) ⟨hroot, htrace, if_neg hs⟩ fun hs' => ?_
      exact absurd hs' hs
    | resume => exact hneeds.elim
  | resumeLog =>
    cases how with
    | «begin» => exact hneeds.elim
    | resume =>
      rw [Openers.openStep]
      split_ifs
      · exact h.advance hp rfl hneeds
      · exact h.giveUp p
  | openWal =>
    cases how with
    | «begin» =>
      obtain ⟨hroot, htrace, hs⟩ := hneeds
      exact h.build hp rfl (.inr ⟨rfl, fun _ => hroot⟩) ⟨hroot, htrace, hs, rfl⟩ fun hs => hs
    | resume =>
      obtain ⟨hroot, hs, htrace⟩ := hneeds
      exact h.build hp rfl (.inr ⟨rfl, fun _ => hroot⟩) ⟨hroot, hs, htrace, rfl⟩ fun hs => hs
  | openBlobs =>
    rw [Openers.openStep]
    simp only [hid, if_true]
    cases how with
    | «begin» =>
      obtain ⟨hroot, htrace, hs, hwal⟩ := hneeds
      refine h.make (h.locks.keep fun n => ?_) (.inl (SessionFiles.grows_createBlobs _)) ?_ fun hs => hs
      · simp [hp, Process.holds, OpenStage.locked]
      · simp only [Relies, Function.update_self]
        exact ⟨hs, htrace, hwal, rfl, rfl, hroot.2⟩
    | resume =>
      obtain ⟨hroot, hs, htrace, hwal⟩ := hneeds
      exact h.build hp rfl (.inl (SessionFiles.grows_createBlobs _))
        ⟨hs, htrace, hwal, rfl, rfl, hroot.2⟩ fun hs => hs
  | recover =>
    cases how with
    | «begin» => exact hneeds.elim
    | resume =>
      rw [Openers.openStep]
      split_ifs
      · exact h.quiet (h.locks.keep fun n => by simp [hp, Process.holds, OpenStage.locked]) hneeds
      · exact h.giveUp p

end Opener

/-! ### The calls of a pass -/

section Sweep

variable {p : Pid} {dry : Bool} {bounds : Bounds} {id : SessionId} {rest : List SessionId}

lemma holds_removing (n : LeaseName) :
    (bounds.removing dry rest).holds n = (!dry && decide (n = .retention)) := by
  cases rest <;> simp [Bounds.removing, Process.holds, LeaseStage.locked]

lemma relies_removing {files : SessionId → SessionFiles} :
    Relies files (bounds.removing dry rest) := by
  cases rest <;> trivial

lemma holds_planning {found : List Candidate} {total : Nat} {todo : List SessionId}
    (n : LeaseName) :
    (bounds.planning dry found total todo).holds n = (!dry && decide (n = .retention)) := by
  cases todo with
  | nil => exact holds_removing n
  | cons id todo => simp [Bounds.planning, Process.holds]

lemma relies_planning {files : SessionId → SessionFiles} {found : List Candidate} {total : Nat}
    {todo : List SessionId} : Relies files (bounds.planning dry found total todo) := by
  cases todo with
  | nil => exact relies_removing
  | cons id todo => trivial

/-- A pass takes a path away, under the lease, when the session file is gone or goes first. -/
lemma Inv.strip (h : s.Inv) {stage' : RemoveStage} {f : SessionFiles} {l : Bool}
    (hheld : (s.processes p).holds (.session id) = true)
    (hkeep : ∀ n, (Process.sweeping dry bounds (.remove id rest stage')).holds n =
      (s.processes p).holds n)
    (hf : f.session = .absent) :
    (((s.setFiles id f).setLost id l).goto p
      (.sweeping dry bounds (.remove id rest stage'))).Inv := by
  refine h.touch (h.locks.keep hkeep) (.inr ⟨hheld, fun hs => absurd hf hs⟩) ?_ fun _ => hf
  cases stage' <;> simp [Relies, Stripped, hf]

lemma Inv.removeStep (h : s.Inv) {stage : RemoveStage}
    (hp : s.processes p = .sweeping dry bounds (.remove id rest stage)) :
    (s.removeStep p dry bounds id rest stage).Inv := by
  have hr := h.relies p
  rw [hp] at hr
  cases stage with
  | acquire stage =>
    change (s.acquireStep p (.session id)
      (fun stage => .sweeping dry bounds (.remove id rest (.acquire stage)))
      (.sweeping dry bounds (.remove id rest .session))
      (fun s => s.goto p (bounds.removing dry rest)) stage).Inv
    refine h.acquireStep hp ?_ ?_ ?_ ?_ ?_ ?_ ?_ ?_ ?_
    · intro stage
      simp [Process.holds]
    · intro stage' m hm
      simp [Process.holds, hm]
    · simp [Process.holds]
    · intro m hm
      simp [Process.holds, hm]
    · exact fun _ _ => trivial
    · exact fun _ _ => trivial
    · exact fun _ => trivial
    · intro leases hl
      refine h.quiet (h.locks.keep fun n => ?_) relies_removing
      rw [holds_removing, hp]
      simp [Process.holds, hl]
    · intro leases hl
      refine h.quiet (h.locks.release ?_ ?_ fun n hn => ?_) relies_removing
      · simp [hp, Process.holds, hl]
      · simp [holds_removing]
      · rw [holds_removing, hp]
        simp [Process.holds, hn]
  | session =>
    exact h.strip (by simp [hp, Process.holds]) (fun n => by rw [hp]; rfl) rfl
  | trace =>
    exact h.strip (by simp [hp, Process.holds]) (fun n => by rw [hp]; rfl) hr
  | wal =>
    exact h.strip (by simp [hp, Process.holds]) (fun n => by rw [hp]; rfl) hr
  | lookDir =>
    refine h.quiet (h.locks.keep fun n => ?_) ?_
    · cases (s.files id).dir <;> simp [hp, Process.holds]
    · cases (s.files id).dir
      · trivial
      · exact hr
  | dir =>
    rw [Openers.removeStep]
    split_ifs
    · exact h.strip (by simp [hp, Process.holds]) (fun n => by rw [hp]; rfl) hr
    · exact h.giveUp p
  | release =>
    refine h.quiet (h.locks.release ?_ ?_ fun n hn => ?_) relies_removing
    · simp [hp, Process.holds]
    · simp [holds_removing]
    · rw [holds_removing, hp]
      simp [Process.holds, hn]

lemma Inv.probeStep (h : s.Inv) {todo : List SessionId} {found : List Candidate} {total : Nat}
    {stage : ProbeStage} (listed : List SessionId) (bytes : Nat)
    (hp : s.processes p = .sweeping dry bounds (.probe id todo found total stage)) :
    (s.sweepStep p dry bounds listed bytes (.probe id todo found total stage)).Inv := by
  -- outside the two calls that lock and unlock, a probe holds nothing of the session
  have hnext : ∀ stage' : ProbeStage, stage ≠ .unlock → stage' ≠ .unlock →
      (s.goto p (.sweeping dry bounds (.probe id todo found total stage'))).Inv := by
    intro stage' hs hs'
    exact h.quiet (h.locks.keep fun n => by simp [hp, Process.holds, hs, hs']) trivial
  have hanswer : stage ≠ .unlock → ∀ c : Process, Relies s.files c →
      (∀ n, c.holds n = (!dry && decide (n = .retention))) → (s.goto p c).Inv := by
    intro hs c hown hc
    refine h.quiet (h.locks.keep fun n => ?_) hown
    rw [hc, hp]
    simp [Process.holds, hs]
  have hmeasure : ∀ n, (Process.sweeping dry bounds (.measure id todo found total)).holds n =
      (!dry && decide (n = .retention)) := fun _ => rfl
  cases stage with
  | lookDir =>
    rw [Openers.sweepStep]
    simp only [ProbeStage.step]
    cases (s.leases (.session id)).present
    · exact hanswer (by simp) _ trivial hmeasure
    · exact hnext .lookLock (by simp) (by simp)
  | lookLock =>
    refine hnext _ (by simp) ?_
    split_ifs <;> simp
  | lookOwner =>
    rw [Openers.sweepStep]
    simp only [ProbeStage.step]
    cases (s.leases (.session id)).ownerAlive
    · exact hanswer (by simp) _ trivial hmeasure
    · exact hanswer (by simp) _ relies_planning holds_planning
  | openLock => exact hnext .tryLock (by simp) (by simp)
  | tryLock =>
    rw [Openers.sweepStep]
    cases hfree : s.locks (.session id) with
    | none =>
      simp only [ProbeStage.step]
      refine h.quiet (h.locks.take hfree ?_ fun n hn => ?_) trivial
      · simp [Process.holds]
      · simp [hp, Process.holds, hn]
    | some q =>
      simp only [ProbeStage.step]
      exact hanswer (by simp) _ relies_planning holds_planning
  | unlock =>
    refine h.quiet (h.locks.release ?_ (by simp [Process.holds]) fun n hn => ?_) trivial
    · simp [hp, Process.holds]
    · simp [hp, Process.holds, hn]

/-- **One call of a pass.** -/
lemma Inv.sweepStep (h : s.Inv) {stage : SweepStage} (listed : List SessionId) (bytes : Nat)
    (hp : s.processes p = .sweeping dry bounds stage) :
    (s.sweepStep p dry bounds listed bytes stage).Inv := by
  have hr := h.relies p
  rw [hp] at hr
  cases stage with
  | acquire stage =>
    have hdry : dry = false := hr
    change (s.acquireStep p .retention (fun stage => .sweeping dry bounds (.acquire stage))
      (.sweeping dry bounds .list) (fun s => s.leave p .idle) stage).Inv
    refine h.acquireStep hp ?_ ?_ ?_ ?_ ?_ ?_ ?_ ?_ ?_
    · intro stage
      simp [Process.holds]
    · intro stage' m hm
      simp [Process.holds, hm]
    · simp [Process.holds, hdry]
    · intro m hm
      simp [Process.holds, hm]
    · exact fun _ _ => hr
    · exact fun _ _ => hr
    · exact fun _ => trivial
    · intro leases hl
      exact h.quiet (h.locks.releaseAll fun _ => rfl) trivial
    · intro leases hl
      refine h.quiet ?_ trivial
      have hheld : s.locks .retention = some p := (h.locks _ _).2 (by simp [hp, Process.holds, hl])
      change Locks.Agrees _ (releaseAll (release s.locks _) p) _
      rw [releaseAll_release hheld]
      exact h.locks.releaseAll fun _ => rfl
  | list =>
    exact h.quiet (h.locks.keep fun n => by rw [holds_planning, hp]; rfl) relies_planning
  | probe id todo found total stage => exact h.probeStep listed bytes hp
  | measure id todo found total =>
    exact h.quiet (h.locks.keep fun n => by rw [holds_planning, hp]; rfl) relies_planning
  | remove id rest stage => exact h.removeStep hp
  | done => exact h.giveUp p

end Sweep

/-! ### Runs -/

/-- **One step of the whole.** -/
theorem Inv.step (h : s.Inv) {input : OpenerInput} (hclear : s.Clear input) :
    (s.step input).Inv := by
  cases input with
  | «open» p how id =>
    rw [Openers.step]
    split
    case h_1 hp =>
      split_ifs with hid
      · refine h.quiet (h.locks.keep fun n => ?_) ⟨hid, ?_⟩
        · cases how <;> simp [hp, Process.holds, OpenStage.first, OpenStage.locked]
        · cases how <;> trivial
      · exact h
    case h_2 => exact h
  | sweep p dry bounds =>
    rw [Openers.step]
    split
    case h_1 hp =>
      refine h.quiet (h.locks.keep fun n => ?_) ?_
      · cases dry <;> simp [hp, Process.holds, LeaseStage.locked]
      · cases dry <;> trivial
    case h_2 => exact h
  | call p listed bytes =>
    rw [Openers.step]
    split
    case h_1 how id stage hp =>
      refine h.openStep hp ?_
      rintro rfl hfree rfl
      simp only [Clear, hp, hfree] at hclear
      exact hclear trivial
    case h_2 dry bounds stage hp => exact h.sweepStep listed bytes hp
    case h_3 => exact h
  | drop p =>
    rw [Openers.step]
    split
    case h_1 how id hp =>
      refine h.quiet (h.locks.release ?_ rfl fun n hn => ?_) trivial
      · simp [hp, Process.holds]
      · simp [hp, Process.holds, hn]
    case h_2 => exact h
  | stop p => exact h.giveUp p
  | ownerExit name => exact ⟨h.locks, h.relies, h.lost⟩

lemma inv_boot (files : SessionId → SessionFiles) (leases : LeaseName → LeaseDir) :
    (boot files leases).Inv where
  locks _ _ := ⟨(nomatch ·), (nomatch ·)⟩
  relies _ := trivial
  lost _ h := nomatch h

lemma Inv.safe (h : s.Inv) : s.Safe where
  exclusive id p q hp hq := by
    rw [Process.owns, Bool.and_eq_true] at hp hq
    exact h.locks.exclusive hp.1 hq.1
  whole p how id hp := by
    have hr := h.relies p
    rw [hp] at hr
    refine ⟨hr, ?_⟩
    by_contra hlost
    have habsent := h.lost id (by simpa using hlost)
    rw [hr.1] at habsent
    cases habsent
  calm p hp := by
    have hr := h.relies p
    rw [hp] at hr
    exact hr

lemma Inv.fair (h : s.Inv) {input : OpenerInput} (hclear : s.Clear input) : s.Fair input where
  keeps id hid p how hp := by
    cases input with
    | call q listed bytes =>
      simp only [removes] at hid
      split at hid
      case h_1 dry bounds id' rest stage hq =>
        split_ifs at hid with hstage
        cases hid
        have hheld : (s.processes q).holds (.session id) = true := by
          cases stage <;> simp_all [RemoveStage.removes, Process.holds]
        have hpq : p = q := h.locks.exclusive (by simp [hp, Process.holds]) hheld
        rw [hpq, hq] at hp
        cases hp
      case h_2 => cases hid
    | _ => cases hid
  refused id stage hid := by
    cases input with
    | call p listed bytes =>
      simp only [refuses] at hid
      split at hid
      case h_1 how id' stage' hp =>
        split_ifs at hid with hactive
        cases hid
        cases stage with
        | lookOwner =>
          rw [LeaseStage.step] at hactive
          split_ifs at hactive with howner
          exact .inr ⟨rfl, howner⟩
        | tryLock =>
          cases hq : s.locks (.session id) with
          | none => simp [LeaseStage.step, hq] at hactive
          | some q =>
            simp only [Clear, hp, hq] at hclear
            exact .inl ⟨q, by rw [Process.owns, (h.locks _ _).1 hq, hclear]; rfl⟩
        | checkMarker =>
          rw [LeaseStage.step] at hactive
          split_ifs at hactive
        | createDir | lookLock | openLock | writeOwner => cases hactive
      case h_2 => cases hid
    | _ => cases hid

/-- A dated name. -/
def datedId : SessionId := "018bcfe56800-7000-8000-000000000000"

/-- A store without sessions. -/
def emptyStore : Openers :=
  boot (fun _ => ⟨.absent, false, false, false, false, false⟩) fun _ => ⟨false, .absent, false⟩

/-- A store with a session that nobody holds. -/
def closedStore : Openers :=
  boot (fun _ => ⟨.headed, true, true, true, true, true⟩) fun name =>
    if name = .retention then ⟨false, .absent, false⟩ else ⟨true, .marked, false⟩

/-- Some calls of a process, one after another. -/
def calls (p : Pid) (n : Nat) : List OpenerInput := List.replicate n (.call p [] 0)

/-- A bound that every session exceeds. -/
def sweepAll : Bounds := ⟨⟨none, some 0⟩, 0, 0⟩

/-- `begin` with a name in use creates its directories; a pass removes the session with them; then
`begin` takes the lease. -/
def gapRun : List OpenerInput :=
  .open 0 .begin datedId :: calls 0 3 ++
    (.sweep 1 false sweepAll :: calls 1 7 ++ .call 1 [datedId] 100 :: calls 1 5 ++
      .call 1 [] 100 :: calls 1 13) ++
    calls 0 12

/-- A pass that deletes nothing stands between the two calls of its probe. -/
def probeRun : List OpenerInput :=
  .sweep 1 true sweepAll :: .call 1 [datedId] 100 :: calls 1 4 ++
    .open 0 .resume datedId :: calls 0 7

lemma not_safe_of_gap : ¬ (run step closedStore gapRun).Safe := by
  intro h
  have hopened : (run step closedStore gapRun).processes 0 = .opened .begin datedId := by
    decide
  have hmissing : ¬ ((run step closedStore gapRun).files datedId).complete := by decide
  exact hmissing (h.whole 0 .begin datedId hopened).1

lemma not_fair_of_probe :
    ¬ (run step closedStore probeRun).Fair (.call 0 [] 0) := by
  intro h
  have hclear : Along step Clear closedStore probeRun := by decide
  have hinv : (run step closedStore probeRun).Inv :=
    hclear.invariant (fun _ _ h hc => Inv.step h hc) (inv_boot _ _)
  have hlock : (run step closedStore probeRun).locks (.session datedId) = some 1 := by
    decide
  have hprobe : ((run step closedStore probeRun).processes 1).owns datedId = false := by
    decide
  rcases h.refused datedId .tryLock (by decide) with ⟨p, hp⟩ | ⟨hstage, -⟩
  · have hheld := hp
    rw [Process.owns, Bool.and_eq_true, ← hinv.locks, hlock] at hheld
    cases hheld.1
    rw [hprobe] at hp
    cases hp
  · cases hstage

end Openers

end Rupi
