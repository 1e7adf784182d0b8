import Rupi.Core.Session

/-!
The lease of a session: a directory with a lock file that the kernel locks.

- `LeaseStage.step`: the calls of `SessionLease::acquire`, one by one.
- `ProbeStage.step`: the calls of `SessionLease::is_active`, which takes the same lock.
-/

namespace Rupi

/-- The leases of a store. -/
inductive LeaseName where
  | session (id : SessionId)
  | retention
  deriving DecidableEq, Repr

/-- The lock file, with the marker that it holds. -/
inductive LockFile where
  | absent
  | blank
  | marked
  | corrupt
  deriving DecidableEq, Repr

/-- A lease directory: its lock file, and whether `legacy_owner_alive` is true of an owner marker
beside it. -/
structure LeaseDir where
  present : Bool
  lock : LockFile
  ownerAlive : Bool
  deriving DecidableEq, Repr

/-- The next call of `SessionLease::acquire`. -/
inductive LeaseStage where
  | createDir
  | lookLock
  | lookOwner
  | openLock
  | tryLock
  | checkMarker
  | writeOwner
  deriving DecidableEq, Repr

/-- What a call of `SessionLease::acquire` leads to. -/
inductive LeaseOutcome where
  | next (stage : LeaseStage)
  /-- The lock is taken, and the marker is read next. -/
  | locked
  | active
  | corruptMarker
  | acquired
  deriving DecidableEq, Repr

namespace LeaseStage

/-- The kernel lock is held before this call. -/
def locked : LeaseStage → Bool
  | checkMarker | writeOwner => true
  | _ => false

/-- One call of `SessionLease::acquire`, where the kernel lock is free or not. -/
def step (lease : LeaseDir) (free : Bool) : LeaseStage → LeaseDir × LeaseOutcome
  | createDir => ({ lease with present := true }, .next lookLock)
  | lookLock => (lease, .next (if lease.lock = .absent then lookOwner else openLock))
  | lookOwner => (lease, if lease.ownerAlive then .active else .next openLock)
  | openLock =>
    ({ lease with lock := if lease.lock = .absent then .blank else lease.lock }, .next tryLock)
  | tryLock => (lease, if free then .locked else .active)
  | checkMarker =>
    if lease.lock = .corrupt then (lease, .corruptMarker)
    else ({ lease with lock := .marked }, .next writeOwner)
  | writeOwner => ({ lease with ownerAlive := true }, .acquired)

lemma step_unlocked (lease : LeaseDir) (free : Bool) {stage : LeaseStage}
    (h : stage.locked = false) :
    (∃ stage', (stage.step lease free).2 = .next stage' ∧ stage'.locked = false) ∨
      (free = true ∧ (stage.step lease free).2 = .locked) ∨
      (stage.step lease free).2 = .active := by
  cases stage with
  | createDir => exact .inl ⟨lookLock, rfl, rfl⟩
  | lookLock =>
    refine .inl ⟨if lease.lock = .absent then lookOwner else openLock, rfl, ?_⟩
    split_ifs <;> rfl
  | lookOwner =>
    rw [step]
    split_ifs
    · exact .inr (.inr rfl)
    · exact .inl ⟨openLock, rfl, rfl⟩
  | openLock => exact .inl ⟨tryLock, rfl, rfl⟩
  | tryLock =>
    rw [step]
    split_ifs with hfree
    · exact .inr (.inl ⟨hfree, rfl⟩)
    · exact .inr (.inr rfl)
  | checkMarker | writeOwner => cases h

lemma step_locked (lease : LeaseDir) (free : Bool) {stage : LeaseStage}
    (h : stage.locked = true) :
    (stage.step lease free).2 = .next writeOwner ∨ (stage.step lease free).2 = .corruptMarker ∨
      (stage.step lease free).2 = .acquired := by
  cases stage with
  | checkMarker =>
    rw [step]
    split_ifs
    · exact .inr (.inl rfl)
    · exact .inl rfl
  | writeOwner => exact .inr (.inr rfl)
  | createDir | lookLock | lookOwner | openLock | tryLock => cases h

end LeaseStage

/-- The next call of `SessionLease::is_active`. -/
inductive ProbeStage where
  | lookDir
  | lookLock
  | lookOwner
  | openLock
  | tryLock
  | unlock
  deriving DecidableEq, Repr

/-- What a call of `SessionLease::is_active` leads to. -/
inductive ProbeOutcome where
  | next (stage : ProbeStage)
  /-- The probe holds the lock now, until its next call. -/
  | locked
  | answer (active : Bool)
  deriving DecidableEq, Repr

namespace ProbeStage

/-- One call of `SessionLease::is_active`. -/
def step (lease : LeaseDir) (free : Bool) : ProbeStage → ProbeOutcome
  | lookDir => if lease.present then .next lookLock else .answer false
  | lookLock => .next (if lease.lock = .absent then lookOwner else openLock)
  | lookOwner => .answer lease.ownerAlive
  | openLock => .next tryLock
  | tryLock => if free then .locked else .answer true
  | unlock => .answer false

end ProbeStage

end Rupi
