import Rupi.Lib.Drain
import Rupi.Store.Journal
import Rupi.Store.SessionLog

/-!
Bounded trace retention.

- `SessionsDir`: the sessions of a store, as a pass finds them.
- `Retention.plan`, `Retention.apply`: which sessions a pass deletes, and what it leaves.
- `Retention.Safe`: the protected sessions stay, the oldest eligible ones go, and as many as
  the bounds ask for.
- `Retention.safe_iff_ordersAgree`: a pass is safe when the order of the names protects the newest
  sessions, as far as it is reached.
-/

namespace Rupi

/-- A session of the store: its name, the bytes of its files, and whether its lease is held. -/
structure StoredSession where
  id : SessionId
  bytes : Nat
  leased : Bool
  deriving DecidableEq, Repr

/-- The sessions directory: every session file has a name of its own. -/
structure SessionsDir where
  sessions : List StoredSession
  otherBytes : Nat
  named : ∀ session ∈ sessions, SessionLog.isSessionId session.id = true
  distinct : (sessions.map (·.id)).Nodup

/-- `TraceRetention`, its two bounds. -/
structure TraceRetention where
  maxAgeDays : Option Nat
  maxBytes : Option Nat
  deriving DecidableEq, Repr

/-! ### The age of a session -/

/-- The value of a hexadecimal digit. -/
def hexDigitValue (c : Char) : Option Nat :=
  if c.isDigit then some (c.toNat - 48)
  else if 'a' ≤ c ∧ c ≤ 'f' then some (c.toNat - 87)
  else if 'A' ≤ c ∧ c ≤ 'F' then some (c.toNat - 55)
  else none

/-- `session_started_ms`: the timestamp in a name of the shape of a UUIDv7. -/
def sessionStartedMs (id : SessionId) : Option Nat :=
  let digits := ((id.toList.filter (· ≠ '-')).take 12).map hexDigitValue
  if digits.length = 12 ∧ digits.all Option.isSome then
    let value := (digits.filterMap fun digit => digit).foldl (fun value digit => value * 16 + digit) 0
    if value < 1000000000000 then none else some value
  else none

/-! ### The plan of a pass -/

/-- A dated session, with its start. -/
structure Candidate where
  started : Nat
  session : StoredSession
  deriving DecidableEq, Repr

namespace SessionsDir

variable (dir : SessionsDir)

/-- `list_session_ids`: the greatest name first. -/
def listing : List StoredSession := dir.sessions.insertionSort fun a b => b.id ≤ a.id

/-- `state_bytes`. -/
def stateBytes : Nat := dir.otherBytes + (dir.sessions.map (·.bytes)).sum

/-- `remove_session`, for several sessions. -/
def without (ids : List SessionId) : SessionsDir where
  sessions := dir.sessions.filter (·.id ∉ ids)
  otherBytes := dir.otherBytes
  named session h := dir.named session (List.mem_of_mem_filter h)
  distinct := dir.distinct.sublist (List.filter_sublist.map _)

end SessionsDir

namespace StoredSession

/-- The session with its start, if it is dated. -/
def dated? (session : StoredSession) : Option Candidate :=
  (sessionStartedMs session.id).map fun started => ⟨started, session⟩

/-- The session with its start, if it is dated and nobody holds its lease. -/
def candidate? (session : StoredSession) : Option Candidate :=
  if session.leased then none else session.dated?

end StoredSession

/-- `RetentionReport`. -/
structure RetentionReport where
  removed : List (SessionId × Nat)
  freedBytes : Nat
  remainingBytes : Nat
  protectedCount : Nat
  undated : Nat
  leased : Nat
  deriving DecidableEq, Repr

namespace Retention

open Drain

variable (dir : SessionsDir) (retention : TraceRetention) (nowMs keepNewest : Nat)

/-- Milliseconds of a day. -/
def dayMs : Nat := 86400000

/-- Older than the age bound. -/
def expired (candidate : Candidate) : Bool :=
  retention.maxAgeDays.any fun days => candidate.started < nowMs - min (days * dayMs) u64Max

/-- Over the size bound. -/
def oversized (remaining : Nat) : Bool := retention.maxBytes.any (· < remaining)

/-- Candidates, the oldest first. -/
def byAge (candidates : List Candidate) : List Candidate :=
  candidates.insertionSort fun a b => a.started ≤ b.started

/-- The sessions that a pass may delete: those behind the newest names, dated and free. -/
def candidates : List Candidate :=
  byAge ((dir.listing.drop keepNewest).filterMap StoredSession.candidate?)

/-- The bytes of a candidate. -/
def weight (candidate : Candidate) : Nat := candidate.session.bytes

/-- The sessions that a pass deletes. -/
def victims : List Candidate :=
  if retention.maxAgeDays.isNone && retention.maxBytes.isNone then []
  else
    drain (expired retention nowMs) (oversized retention) weight dir.stateBytes
      (candidates dir keepNewest)

/-- `plan`. -/
def plan : RetentionReport :=
  let victims := victims dir retention nowMs keepNewest
  let bounded := !(retention.maxAgeDays.isNone && retention.maxBytes.isNone)
  let unprotected := if bounded then dir.listing.drop keepNewest else []
  let free := unprotected.filter fun session => !session.leased
  { removed := victims.map fun victim => (victim.session.id, victim.session.bytes)
    freedBytes := total weight victims
    remainingBytes := dir.stateBytes - total weight victims
    protectedCount := min dir.listing.length keepNewest
    undated := (free.filter fun session => (sessionStartedMs session.id).isNone).length
    leased := (unprotected.filter (·.leased)).length }

/-- A victim whose lease was taken since the plan was made is left. -/
def skip (report : RetentionReport) (id : SessionId) (bytes : Nat) : RetentionReport :=
  { report with
    leased := report.leased + 1
    removed := report.removed.filter (·.1 ≠ id)
    freedBytes := report.freedBytes - bytes
    remainingBytes := report.remainingBytes + bytes }

/-- `apply`, when other processes hold the leases of these sessions by then. -/
def apply (raced : SessionId → Bool) : SessionsDir × RetentionReport :=
  let report := plan dir retention nowMs keepNewest
  let skipped := report.removed.filter fun entry => raced entry.1
  let removed := report.removed.filter fun entry => !raced entry.1
  (dir.without (removed.map (·.1)),
    skipped.foldl (fun report entry => skip report entry.1 entry.2) report)

/-! ### What a safe pass is -/

/-- All dated sessions, the last started first. -/
def newestFirst : List Candidate :=
  (dir.listing.filterMap StoredSession.dated?).insertionSort fun a b => b.started ≤ a.started

/-- The dated sessions that started last. -/
def newest : List Candidate := (newestFirst dir).take keepNewest

/-- The dated sessions that nobody holds, the oldest first. -/
def free : List Candidate := byAge (dir.listing.filterMap StoredSession.candidate?)

/-- The sessions a pass should choose from: dated, free, and none of the newest. -/
def eligible : List Candidate := (free dir).filter (· ∉ newest dir keepNewest)

/-- **A safe pass**: its victims, and what is left when nobody took a lease since. -/
structure Safe : Prop where
  unleased : ∀ victim ∈ victims dir retention nowMs keepNewest, victim.session.leased = false
  dated : ∀ victim ∈ victims dir retention nowMs keepNewest,
    sessionStartedMs victim.session.id = some victim.started
  recent : ∀ victim ∈ victims dir retention nowMs keepNewest, victim ∉ newest dir keepNewest
  oldest : victims dir retention nowMs keepNewest <+: eligible dir keepNewest
  settled :
    let left := (apply dir retention nowMs keepNewest fun _ => false).1
    (oversized retention left.stateBytes = false ∧ ∀ candidate ∈ eligible dir keepNewest,
        candidate.session ∈ left.sessions → expired retention nowMs candidate = false) ∨
      ∀ candidate ∈ eligible dir keepNewest, candidate.session ∉ left.sessions
  balance :
    let report := (apply dir retention nowMs keepNewest fun _ => false).2
    report.freedBytes + report.remainingBytes = dir.stateBytes

/-- A session that only one of the two orders protects is not reached: it is not expired, and
the older sessions that neither protects are enough for the size bound. -/
def OrdersAgree : Prop :=
  ∀ older candidate newer, free dir = older ++ candidate :: newer →
    ((candidate.session ∈ dir.listing.take keepNewest) ↔ candidate ∈ newest dir keepNewest) ∨
      (expired retention nowMs candidate = false ∧
        oversized retention (dir.stateBytes - total weight (older.filter fun other =>
          other.session ∉ dir.listing.take keepNewest ∧
            other ∉ newest dir keepNewest)) = false)

/-! ### The lists of a pass -/

section Lists

variable {dir : SessionsDir} {retention : TraceRetention} {nowMs keepNewest : Nat}

instance : IsTrans Candidate fun a b => a.started ≤ b.started :=
  ⟨fun _ _ _ hab hbc => Nat.le_trans hab hbc⟩

instance : Std.Total fun a b : Candidate => a.started ≤ b.started :=
  ⟨fun a b => Nat.le_total a.started b.started⟩

lemma mem_listing {session : StoredSession} : session ∈ dir.listing ↔ session ∈ dir.sessions :=
  List.mem_insertionSort _

lemma nodup_listing (dir : SessionsDir) : dir.listing.Nodup :=
  (List.perm_insertionSort _ _).nodup_iff.mpr dir.distinct.of_map

/-- A name belongs to one session. -/
lemma session_ext {a b : StoredSession} (ha : a ∈ dir.sessions) (hb : b ∈ dir.sessions)
    (h : a.id = b.id) : a = b :=
  List.inj_on_of_nodup_map dir.distinct ha hb h

lemma dated?_eq_some {session : StoredSession} {candidate : Candidate}
    (h : session.dated? = some candidate) :
    candidate.session = session ∧ sessionStartedMs session.id = some candidate.started := by
  obtain ⟨started, hstarted, rfl⟩ := Option.map_eq_some_iff.mp h
  exact ⟨rfl, hstarted⟩

lemma candidate?_eq_some {session : StoredSession} {candidate : Candidate}
    (h : session.candidate? = some candidate) :
    candidate.session = session ∧ session.leased = false ∧
      sessionStartedMs session.id = some candidate.started := by
  rw [StoredSession.candidate?] at h
  split_ifs at h with hleased
  obtain ⟨hsession, hstarted⟩ := dated?_eq_some h
  exact ⟨hsession, by simpa using hleased, hstarted⟩

/-- A candidate is a session of the store, free and dated. -/
lemma mem_free {candidate : Candidate} (h : candidate ∈ free dir) :
    candidate.session ∈ dir.sessions ∧ candidate.session.leased = false ∧
      sessionStartedMs candidate.session.id = some candidate.started := by
  rw [free, byAge, List.mem_insertionSort, List.mem_filterMap] at h
  obtain ⟨session, hsession, hcandidate⟩ := h
  obtain ⟨rfl, hleased, hstarted⟩ := candidate?_eq_some hcandidate
  exact ⟨mem_listing.mp hsession, hleased, hstarted⟩

/-- A session is a candidate once. -/
lemma candidate_ext {a b : Candidate} (ha : a ∈ free dir) (hb : b ∈ free dir)
    (h : a.session.id = b.session.id) : a = b := by
  obtain ⟨hamem, -, hastarted⟩ := mem_free ha
  obtain ⟨hbmem, -, hbstarted⟩ := mem_free hb
  have hsession := session_ext hamem hbmem h
  rw [hsession, hbstarted] at hastarted
  cases a
  cases b
  simp_all

lemma nodup_free (dir : SessionsDir) : (free dir).Nodup := by
  refine (List.perm_insertionSort _ _).nodup_iff.mpr ?_
  refine (nodup_listing dir).filterMap fun a b c ha hb => ?_
  obtain ⟨rfl, -⟩ := candidate?_eq_some (Option.mem_def.mp ha)
  obtain ⟨rfl, -⟩ := candidate?_eq_some (Option.mem_def.mp hb)
  rfl

/-- The candidates of a pass are the free dated sessions behind the newest names. -/
lemma candidates_eq (dir : SessionsDir) (keepNewest : Nat) :
    candidates dir keepNewest =
      (free dir).filter fun candidate => candidate.session ∉ dir.listing.take keepNewest := by
  rw [free, byAge, filter_insertionSort, candidates, byAge]
  congr 1
  have hnodup := nodup_listing dir
  conv_rhs => rw [← List.take_append_drop keepNewest dir.listing, List.filterMap_append]
  rw [← List.take_append_drop keepNewest dir.listing] at hnodup
  have hdisjoint := List.disjoint_of_nodup_append hnodup
  rw [List.filter_append, List.take_append_drop]
  have hfirst : ((dir.listing.take keepNewest).filterMap StoredSession.candidate?).filter
      (fun candidate => candidate.session ∉ dir.listing.take keepNewest) = [] := by
    rw [List.filter_eq_nil_iff]
    intro candidate hcandidate
    obtain ⟨session, hsession, heq⟩ := List.mem_filterMap.mp hcandidate
    obtain ⟨rfl, -⟩ := candidate?_eq_some heq
    simpa using hsession
  have hsecond : ((dir.listing.drop keepNewest).filterMap StoredSession.candidate?).filter
      (fun candidate => candidate.session ∉ dir.listing.take keepNewest) =
        (dir.listing.drop keepNewest).filterMap StoredSession.candidate? := by
    rw [List.filter_eq_self]
    intro candidate hcandidate
    obtain ⟨session, hsession, heq⟩ := List.mem_filterMap.mp hcandidate
    obtain ⟨rfl, -⟩ := candidate?_eq_some heq
    simpa using fun hmem => hdisjoint hmem hsession
  rw [hfirst, hsecond, List.nil_append]

/-- An unbounded pass drains nothing either. -/
lemma victims_eq (dir : SessionsDir) (retention : TraceRetention) (nowMs keepNewest : Nat) :
    victims dir retention nowMs keepNewest =
      drain (expired retention nowMs) (oversized retention) weight dir.stateBytes
        ((free dir).filter fun candidate =>
          candidate.session ∉ dir.listing.take keepNewest) := by
  rw [victims, candidates_eq]
  split_ifs with hunbounded
  · rw [Bool.and_eq_true, Option.isNone_iff_eq_none, Option.isNone_iff_eq_none] at hunbounded
    refine (drain_eq_nil ?_ fun candidate _ => ?_).symm
    · simp [oversized, hunbounded.2]
    · simp [expired, hunbounded.1]
  · rfl

lemma victims_sublist (dir : SessionsDir) (retention : TraceRetention) (nowMs keepNewest : Nat) :
    (victims dir retention nowMs keepNewest).Sublist (free dir) := by
  rw [victims_eq]
  exact (drain_sublist _ _).trans List.filter_sublist

/-- An older session has expired when a younger one has. -/
lemma pairwise_expired (dir : SessionsDir) (retention : TraceRetention) (nowMs : Nat) :
    (free dir).Pairwise fun a b =>
      expired retention nowMs b = true → expired retention nowMs a = true := by
  refine (List.pairwise_insertionSort _ _).imp fun {a b} hle hexpired => ?_
  rw [expired] at hexpired ⊢
  cases hdays : retention.maxAgeDays with
  | none => simp [hdays] at hexpired
  | some days =>
    rw [hdays, Option.any_some, decide_eq_true_iff] at hexpired
    rw [Option.any_some, decide_eq_true_iff]
    exact Nat.lt_of_le_of_lt hle hexpired

lemma oversized_mono {m n : Nat} (hle : m ≤ n) (h : oversized retention m = true) :
    oversized retention n = true := by
  rw [oversized] at h ⊢
  cases hbytes : retention.maxBytes with
  | none => simp [hbytes] at h
  | some limit =>
    rw [hbytes, Option.any_some, decide_eq_true_iff] at h
    rw [Option.any_some, decide_eq_true_iff]
    exact Nat.lt_of_lt_of_le h hle

/-! ### What a pass leaves -/

/-- The names that a pass deletes. -/
def victimIds (dir : SessionsDir) (retention : TraceRetention) (nowMs keepNewest : Nat) :
    List SessionId :=
  (victims dir retention nowMs keepNewest).map (·.session.id)

/-- Without a race the pass deletes its victims and reports its plan. -/
lemma apply_eq (dir : SessionsDir) (retention : TraceRetention) (nowMs keepNewest : Nat) :
    apply dir retention nowMs keepNewest (fun _ => false) =
      (dir.without (victimIds dir retention nowMs keepNewest),
        plan dir retention nowMs keepNewest) := by
  simp [apply, plan, victimIds, Function.comp_def]

/-- A free session is left exactly when it is no victim. -/
lemma mem_without_iff {candidate : Candidate} (h : candidate ∈ free dir) :
    candidate.session ∈ (dir.without (victimIds dir retention nowMs keepNewest)).sessions ↔
      candidate ∉ victims dir retention nowMs keepNewest := by
  have hids : candidate.session.id ∈ victimIds dir retention nowMs keepNewest ↔
      candidate ∈ victims dir retention nowMs keepNewest := by
    rw [victimIds, List.mem_map]
    constructor
    · rintro ⟨victim, hvictim, hid⟩
      rwa [← candidate_ext ((victims_sublist _ _ _ _).subset hvictim) h hid]
    · exact fun hvictim => ⟨candidate, hvictim, rfl⟩
  rw [SessionsDir.without, List.mem_filter, decide_eq_true_iff, hids]
  exact and_iff_right (mem_free h).1

/-- The bytes that a pass frees are those of its victims. -/
lemma stateBytes_without (dir : SessionsDir) (retention : TraceRetention) (nowMs keepNewest : Nat) :
    (dir.without (victimIds dir retention nowMs keepNewest)).stateBytes +
      total weight (victims dir retention nowMs keepNewest) = dir.stateBytes := by
  have hvictims := victims_sublist dir retention nowMs keepNewest
  -- the sessions deleted are those of the victims, in another order
  have hperm : (dir.sessions.filter fun session =>
      session.id ∈ victimIds dir retention nowMs keepNewest).Perm
        ((victims dir retention nowMs keepNewest).map (·.session)) := by
    rw [List.perm_ext_iff_of_nodup (dir.distinct.of_map.filter _)]
    · intro session
      rw [List.mem_filter, decide_eq_true_iff, victimIds, List.mem_map, List.mem_map]
      constructor
      · rintro ⟨hsession, victim, hvictim, hid⟩
        exact ⟨victim, hvictim, session_ext (mem_free (hvictims.subset hvictim)).1 hsession hid⟩
      · rintro ⟨victim, hvictim, rfl⟩
        exact ⟨(mem_free (hvictims.subset hvictim)).1, victim, hvictim, rfl⟩
    · refine List.Nodup.map_on (fun a ha b hb h => ?_) ((nodup_free dir).sublist hvictims)
      exact candidate_ext (hvictims.subset ha) (hvictims.subset hb) (congrArg StoredSession.id h)
  have hbytes := (hperm.map (·.bytes)).sum_eq
  rw [List.map_map] at hbytes
  have hsplit : (dir.sessions.map (·.bytes)).sum =
      ((dir.sessions.filter fun session =>
          session.id ∈ victimIds dir retention nowMs keepNewest).map (·.bytes)).sum +
        ((dir.sessions.filter fun session =>
          session.id ∉ victimIds dir retention nowMs keepNewest).map (·.bytes)).sum := by
    rw [← List.sum_append, ← List.map_append]
    refine ((List.Perm.map _ ?_).sum_eq).symm
    simpa using List.filter_append_perm
      (fun session => decide (session.id ∈ victimIds dir retention nowMs keepNewest)) dir.sessions
  have htotal : total weight (victims dir retention nowMs keepNewest) =
      ((victims dir retention nowMs keepNewest).map ((·.bytes) ∘ (·.session))).sum := rfl
  have hwithout : (dir.without (victimIds dir retention nowMs keepNewest)).stateBytes =
      dir.otherBytes + ((dir.sessions.filter fun session =>
        session.id ∉ victimIds dir retention nowMs keepNewest).map (·.bytes)).sum := rfl
  have hbefore : dir.stateBytes = dir.otherBytes + (dir.sessions.map (·.bytes)).sum := rfl
  rw [hwithout, hbefore, htotal, ← hbytes, hsplit]
  omega

/-! ### When a pass is safe -/

/-- What a pass leaves, in terms of draining. -/
lemma drained_iff (dir : SessionsDir) (retention : TraceRetention) (nowMs keepNewest : Nat) :
    Drained (expired retention nowMs) (oversized retention) weight dir.stateBytes
        (victims dir retention nowMs keepNewest) (eligible dir keepNewest) ↔
      Safe dir retention nowMs keepNewest := by
  have hvictims := victims_sublist dir retention nowMs keepNewest
  have hbytes := stateBytes_without dir retention nowMs keepNewest
  have hfree : ∀ candidate ∈ eligible dir keepNewest, candidate ∈ free dir :=
    fun candidate h => List.mem_of_mem_filter h
  have hleft : dir.stateBytes - total weight (victims dir retention nowMs keepNewest) =
      (dir.without (victimIds dir retention nowMs keepNewest)).stateBytes := by omega
  constructor
  · rintro ⟨htaken, hdone⟩
    refine
      { unleased := fun victim h => (mem_free (hvictims.subset h)).2.1
        dated := fun victim h => (mem_free (hvictims.subset h)).2.2
        recent := fun victim h => ?_
        oldest := htaken
        settled := ?_
        balance := ?_ }
    · simpa using (List.mem_filter.mp (htaken.subset h)).2
    · rw [apply_eq]
      rw [hleft] at hdone
      obtain ⟨hsize, hage⟩ | hall := hdone
      · exact .inl ⟨hsize, fun candidate h hmem =>
          hage candidate h ((mem_without_iff (hfree candidate h)).mp hmem)⟩
      · exact .inr fun candidate h hmem =>
          (mem_without_iff (hfree candidate h)).mp hmem (hall candidate h)
    · rw [apply_eq]
      simp only [plan]
      omega
  · intro h
    refine ⟨h.oldest, ?_⟩
    have hsettled := h.settled
    rw [apply_eq] at hsettled
    rw [hleft]
    obtain ⟨hsize, hage⟩ | hall := hsettled
    · exact .inl ⟨hsize, fun candidate h hnot =>
        hage candidate h ((mem_without_iff (hfree candidate h)).mpr hnot)⟩
    · refine .inr fun candidate h => ?_
      by_contra hnot
      exact hall candidate h ((mem_without_iff (hfree candidate h)).mpr hnot)

end Lists

/-- **A pass is safe exactly when the order of the names protects the newest sessions**, as
far as the pass reaches: a session that one of the two orders protects and the other does not
is neither expired nor needed for the size bound. -/
theorem safe_iff_ordersAgree :
    Safe dir retention nowMs keepNewest ↔ OrdersAgree dir retention nowMs keepNewest := by
  rw [← drained_iff, victims_eq, eligible,
    drained_filter_iff (fun m n => oversized_mono) (nodup_free dir)
      (pairwise_expired dir retention nowMs)]
  refine forall_congr' fun older => forall_congr' fun candidate => forall_congr' fun newer =>
    forall_congr' fun _ => ?_
  have hagree : (decide (candidate.session ∉ dir.listing.take keepNewest) ≠
      decide (candidate ∉ newest dir keepNewest)) ↔
        ¬ (candidate.session ∈ dir.listing.take keepNewest ↔ candidate ∈ newest dir keepNewest) := by
    rw [Ne, decide_eq_decide, not_iff_not]
    exact not_iff_not
  rw [hagree, ← or_iff_not_imp_left]
  simp only [Bool.decide_and]

/-- A store with one dated session, and an imported one whose name sorts before it. -/
def importedDir : SessionsDir where
  sessions := [⟨"legacy-session", 10, false⟩, ⟨"018bcfe56800-7000-8000-000000000000", 10, false⟩]
  otherBytes := 0
  named := by decide
  distinct := by decide

/-- The imported name takes the protected place: the newest dated session is deleted. -/
theorem undated_name_takes_place :
    ¬ ∀ (dir : SessionsDir) (retention : TraceRetention) (nowMs keepNewest : Nat),
      Safe dir retention nowMs keepNewest := by
  intro h
  have hsafe := (h importedDir ⟨some 1, none⟩ 1800000000000 1).recent
  have hvictim : (⟨1700000000000, ⟨"018bcfe56800-7000-8000-000000000000", 10, false⟩⟩ : Candidate) ∈
      victims importedDir ⟨some 1, none⟩ 1800000000000 1 := by decide
  have hnewest : (⟨1700000000000, ⟨"018bcfe56800-7000-8000-000000000000", 10, false⟩⟩ : Candidate) ∈
      newest importedDir 1 := by decide
  exact hsafe _ hvictim hnewest

end Retention

end Rupi
