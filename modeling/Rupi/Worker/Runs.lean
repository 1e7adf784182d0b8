import Rupi.Lib.Run
import Rupi.Worker.Sound

/-!
What the service says about its runs.

- `ownStatus`: the status of a run, from what happened to it.
- `HandlesTrue`, `CancelsKept`: a handle gives the status of its own run, and a run whose
  cancel was accepted ends as cancelled.
- `Undisturbed`: no cancel comes after the read of the flag, and no run begins while a
  client waits.
- **`worker_keeps_word`**: the sessions and their runs go together in every run of the
  service, and when its steps are undisturbed it keeps its word.
-/

namespace Rupi

/-! ### What the service says of a run -/

/-- What an event does to the status of a run. -/
def WorkerEvent.statusOf (run : String) : WorkerEvent → Option WorkerStatus
  | .started _ r | .continued _ r | .branched _ _ (some r) =>
    if r = run then some .running else none
  | .cancelling _ r => if r = run then some .cancelling else none
  | .ended r _ _ _ status => if r = run then some status else none
  | _ => none

/-- The status of a run, from the last event about it. -/
def ownStatus (run : String) : List WorkerEvent → Option WorkerStatus
  | [] => none
  | event :: earlier => (event.statusOf run).or (ownStatus run earlier)

/-- Every handle for a run gave the status that the run had. -/
def HandlesTrue : List WorkerEvent → Prop
  | [] => True
  | event :: earlier =>
    (∀ handle run, event = .handle handle → handle.runId = some run →
      ownStatus run earlier = some handle.status) ∧ HandlesTrue earlier

/-- A cancel of the run was answered with `Cancelling`. -/
def CancelAccepted (run : String) (events : List WorkerEvent) : Prop :=
  ∃ id, .cancelling id run ∈ events

/-- A run whose cancel was accepted ends as cancelled. -/
def CancelsKept (events : List WorkerEvent) : Prop :=
  ∀ run status, CancelAccepted run events → ownStatus run events = some status →
    status.terminal = true → status = .cancelled

/-- The steps after which the service can keep its word: no cancel after the thread of the
run has read its flag, and no run while a client still waits in the session. -/
def WorkerSystem.Undisturbed (s : WorkerSystem) : WorkerInput → Prop
  | .cancel request _ => ∀ session run thread result,
    s.sessions request.sessionId = some session → session.state.activeRunId = some run →
      s.threads run = some thread → thread.phase ≠ .flagRead result false
  | .continueSession _ request _ _ => ∀ session,
    s.sessions request.sessionId = some session → session.state.status.busy = false →
      ∀ call run waitMs, s.calls call ≠ some (.waiting request.sessionId run waitMs)
  | _ => True

/-- What the events and the system know of each other. -/
structure Words (s : WorkerSystem) (events : List WorkerEvent) : Prop where
  own : ∀ {id session run}, s.sessions id = some session →
    session.state.activeRunId = some run → ownStatus run events = some session.state.status
  known : ∀ {run status}, ownStatus run events = some status → run ∈ s.issued ∧ status ≠ .idle
  asked : ∀ {run}, CancelAccepted run events →
    (∃ thread, s.threads run = some thread ∧ s.flags run = true ∧
      ∀ result, thread.phase ≠ .flagRead result false) ∨
      ownStatus run events = some .cancelled
  waiting : ∀ {call id run waitMs}, s.calls call = some (.waiting id run waitMs) →
    ∃ session, s.sessions id = some session ∧
      ownStatus run events = some session.state.status ∧
      ∀ active, session.state.activeRunId = some active → active = run
  handles : HandlesTrue events

/-- An event about no run. -/
def WorkerEvent.IsSilent (event : WorkerEvent) : Prop :=
  (∀ run, event.statusOf run = none) ∧ ∀ handle, event ≠ .handle handle

namespace Words

variable {s : WorkerSystem} {events : List WorkerEvent} {event : WorkerEvent}
  {id run : String} {session : WorkerSession}

lemma ownStatus_cons (h : event.statusOf run = none) :
    ownStatus run (event :: events) = ownStatus run events := by
  rw [ownStatus, h, Option.none_or]

lemma ownStatus_cons_some {status : WorkerStatus} (h : event.statusOf run = some status) :
    ownStatus run (event :: events) = some status := by
  rw [ownStatus, h, Option.some_or]

lemma cancelAccepted_cons (h : event.statusOf run ≠ some .cancelling) :
    CancelAccepted run (event :: events) ↔ CancelAccepted run events := by
  refine exists_congr fun id => ?_
  rw [List.mem_cons, or_iff_right]
  rintro rfl
  simp [WorkerEvent.statusOf] at h

lemma handles_cons (h : HandlesTrue events) (hevent : ∀ handle, event ≠ .handle handle) :
    HandlesTrue (event :: events) :=
  ⟨fun handle _ heq => absurd heq (hevent handle), h⟩

/-- An event about no run changes nothing. -/
lemma silent (h : Words s events) (hsilent : event.IsSilent) : Words s (event :: events) := by
  obtain ⟨hstatus, hhandle⟩ := hsilent
  have hsame := fun run => @ownStatus_cons events event run (hstatus run)
  refine ⟨?_, ?_, ?_, ?_, handles_cons h.handles hhandle⟩
  · intro id session run hsession hactive
    rw [hsame]
    exact h.own hsession hactive
  · intro run status hown
    rw [hsame] at hown
    exact h.known hown
  · intro run hask
    rw [cancelAccepted_cons (by rw [hstatus]; simp)] at hask
    rw [hsame]
    exact h.asked hask
  · intro call id run waitMs hcall
    rw [hsame]
    exact h.waiting hcall

/-- A call that ends, or waits for an engine. -/
lemma setCall (h : Words s events) {call : Nat} {state : Option OpenCall}
    (hstate : ∀ id run waitMs, state ≠ some (.waiting id run waitMs)) :
    Words (s.setCall call state) events := by
  refine ⟨h.own, h.known, h.asked, ?_, h.handles⟩
  intro call' id run waitMs hcall
  rcases update_cases hcall with ⟨-, heq⟩ | ⟨-, hcall⟩
  · exact absurd heq (hstate id run waitMs)
  · exact h.waiting hcall

/-- A new session. -/
lemma insertSession (h : Words s events) (hsound : s.Sound) (hid : id ∉ s.issued)
    (hactive : session.state.activeRunId = none) :
    Words (s.insertSession id session) events := by
  refine ⟨?_, fun hown => ⟨List.mem_cons_of_mem _ (h.known hown).1, (h.known hown).2⟩, h.asked, ?_,
    h.handles⟩
  · intro id' session' run hsession hrun
    rcases update_eq_some hsession with ⟨rfl, rfl⟩ | ⟨-, hsession⟩
    · rw [hactive] at hrun
      cases hrun
    · exact h.own hsession hrun
  · intro call id' run waitMs hcall
    obtain ⟨session', hsession, hown, hrun⟩ := h.waiting hcall
    exact ⟨session', update_of_ne_some hsession fun heq => hid (heq ▸ hsound.issued hsession), hown,
      hrun⟩

/-- The run that begins was not heard of. -/
lemma unknown (h : Words s events) (hrun : run ∉ s.issued) : ownStatus run events = none := by
  by_contra hown
  obtain ⟨status, hstatus⟩ := Option.ne_none_iff_exists'.mp hown
  exact hrun (h.known hstatus).1

/-- A run that begins in a free session, where no client waits. -/
lemma enterRun (h : Words s events) (hsound : s.Sound) {request : WorkerRunRequest}
    {call now : Nat} {waitMs : Option Nat} (hrun : run ∉ s.issued)
    (hfree : ∀ call run waitMs, s.calls call ≠ some (.waiting request.sessionId run waitMs))
    (hevent : event.statusOf run = some .running)
    (hother : ∀ r, r ≠ run → event.statusOf r = none)
    (hhandle : ∀ handle, event ≠ .handle handle) :
    Words (s.enterRun call session request run waitMs now) (event :: events) := by
  have hasked : ∀ r, CancelAccepted r (event :: events) → CancelAccepted r events := by
    intro r
    refine (cancelAccepted_cons ?_).mp
    by_cases heq : r = run
    · simp [heq, hevent]
    · simp [hother r heq]
  refine ⟨?_, ?_, ?_, ?_, handles_cons h.handles hhandle⟩
  · intro id session' run' hsession hactive
    rcases update_eq_some hsession with ⟨rfl, rfl⟩ | ⟨-, hsession⟩
    · obtain rfl := Option.some.inj hactive
      exact ownStatus_cons_some hevent
    · obtain ⟨thread, hthread, -⟩ := hsound.thread hsession hactive
      have hne : run' ≠ run := fun heq => hrun (heq ▸ hsound.issuedRun hthread)
      rw [ownStatus_cons (hother run' hne)]
      exact h.own hsession hactive
  · intro run' status hown
    by_cases heq : run' = run
    · subst heq
      rw [ownStatus_cons_some hevent] at hown
      obtain rfl := Option.some.inj hown
      exact ⟨List.mem_cons_self, by simp⟩
    · rw [ownStatus_cons (hother run' heq)] at hown
      exact ⟨List.mem_cons_of_mem _ (h.known hown).1, (h.known hown).2⟩
  · intro run' hask
    have hne : run' ≠ run := by
      rintro rfl
      rcases h.asked (hasked _ hask) with ⟨thread, hthread, -⟩ | hown
      · exact hrun (hsound.issuedRun hthread)
      · exact hrun (h.known hown).1
    rw [ownStatus_cons (hother run' hne)]
    rcases h.asked (hasked _ hask) with ⟨thread, hthread, hflag, hphase⟩ | hown
    · refine .inl ⟨thread, update_of_ne_some hthread hne, ?_, hphase⟩
      rw [← hflag]
      exact Function.update_of_ne hne ..
    · exact .inr hown
  · intro call' id run' waitMs' hcall
    rcases update_cases hcall with ⟨rfl, heq⟩ | ⟨-, hcall⟩
    · simp only [Option.some.injEq, OpenCall.waiting.injEq] at heq
      obtain ⟨rfl, rfl, rfl⟩ := heq
      exact ⟨_, Function.update_self .., ownStatus_cons_some hevent,
        fun active hactive => (Option.some.inj hactive).symm⟩
    · obtain ⟨session', hsession, hown, hactive⟩ := h.waiting hcall
      have hne : run' ≠ run := by
        rintro rfl
        exact hrun (h.known hown).1
      refine ⟨session', update_of_ne_some hsession fun heq => ?_, ?_, hactive⟩
      · exact hfree call' run' waitMs' (heq ▸ hcall)
      · rw [ownStatus_cons (hother run' hne)]
        exact hown

/-- A run is active in one session only. -/
lemma active_unique (hsound : s.Sound) {id' : String} {session' : WorkerSession}
    (hsession : s.sessions id = some session) (hactive : session.state.activeRunId = some run)
    (hsession' : s.sessions id' = some session')
    (hactive' : session'.state.activeRunId = some run) : id' = id := by
  obtain ⟨thread, hthread, rfl⟩ := hsound.thread hsession hactive
  obtain ⟨thread', hthread', rfl⟩ := hsound.thread hsession' hactive'
  rw [hthread] at hthread'
  obtain rfl := Option.some.inj hthread'
  rfl

/-- Who waits for an active run waits in its session. -/
lemma waiting_active (h : Words s events) (hsound : s.Sound) {call : Nat} {id' : String}
    {waitMs : Option Nat} (hsession : s.sessions id = some session)
    (hactive : session.state.activeRunId = some run)
    (hcall : s.calls call = some (.waiting id' run waitMs)) : id' = id := by
  obtain ⟨session', hsession', hown, hunique⟩ := h.waiting hcall
  rw [h.own hsession hactive] at hown
  have hbusy := hsound.busy_of_active hsession hactive
  rw [Option.some.inj hown] at hbusy
  obtain ⟨active, hactive'⟩ := Option.ne_none_iff_exists'.mp ((hsound.busy hsession').mp hbusy)
  obtain rfl := hunique active hactive'
  exact active_unique hsound hsession hactive hsession' hactive'

/-- An event about the active run of a session, with the status it gives the session. -/
lemma update (h : Words s events) (hsound : s.Sound) {session' : WorkerSession}
    {threads : String → Option RunThread} {flags : String → Bool}
    (hsession : s.sessions id = some session) (hactive : session.state.activeRunId = some run)
    (hevent : event.statusOf run = some session'.state.status)
    (hother : ∀ r, r ≠ run → event.statusOf r = none)
    (hhandle : ∀ handle, event ≠ .handle handle)
    (hactive' : ∀ r, session'.state.activeRunId = some r → r = run)
    (hidle : session'.state.status ≠ .idle)
    (hthreads : ∀ r, r ≠ run → threads r = s.threads r ∧ flags r = s.flags r)
    (hasked : CancelAccepted run (event :: events) →
      (∃ thread, threads run = some thread ∧ flags run = true ∧
        ∀ result, thread.phase ≠ .flagRead result false) ∨ session'.state.status = .cancelled) :
    Words { s.setSession id session' with threads := threads, flags := flags }
      (event :: events) := by
  refine ⟨?_, ?_, ?_, ?_, handles_cons h.handles hhandle⟩
  · intro id' found run' hfound hrun'
    rcases update_eq_some hfound with ⟨rfl, rfl⟩ | ⟨hne, hfound⟩
    · obtain rfl := hactive' run' hrun'
      exact ownStatus_cons_some hevent
    · have hrun : run' ≠ run := by
        rintro rfl
        exact hne (active_unique hsound hsession hactive hfound hrun')
      rw [ownStatus_cons (hother run' hrun)]
      exact h.own hfound hrun'
  · intro run' status hown
    by_cases heq : run' = run
    · subst heq
      rw [ownStatus_cons_some hevent] at hown
      obtain rfl := Option.some.inj hown
      obtain ⟨thread, hthread, -⟩ := hsound.thread hsession hactive
      exact ⟨hsound.issuedRun hthread, hidle⟩
    · rw [ownStatus_cons (hother run' heq)] at hown
      exact h.known hown
  · intro run' hask
    by_cases heq : run' = run
    · subst heq
      rw [ownStatus_cons_some hevent]
      exact (hasked hask).imp_right (congrArg some)
    · rw [cancelAccepted_cons (by simp [hother run' heq])] at hask
      rw [ownStatus_cons (hother run' heq)]
      obtain ⟨hthread, hflag⟩ := hthreads run' heq
      rcases h.asked hask with ⟨thread, hfound, hset, hphase⟩ | hown
      · exact .inl ⟨thread, hthread.trans hfound, hflag.trans hset, hphase⟩
      · exact .inr hown
  · intro call id' run' waitMs hcall
    by_cases heq : run' = run
    · subst heq
      obtain rfl := h.waiting_active hsound hsession hactive hcall
      exact ⟨session', Function.update_self .., ownStatus_cons_some hevent, hactive'⟩
    · obtain ⟨found, hfound, hown, hunique⟩ := h.waiting hcall
      refine ⟨found, update_of_ne_some hfound fun hid => heq ?_, ?_, hunique⟩
      · rw [hid, hsession] at hfound
        obtain rfl := Option.some.inj hfound
        exact (hunique run hactive).symm
      · rw [ownStatus_cons (hother run' heq)]
        exact hown

/-- A free session that takes a compaction. -/
lemma setSession (h : Words s events) {session' : WorkerSession}
    (hsession : s.sessions id = some session)
    (hactive : session'.state.activeRunId = session.state.activeRunId)
    (hstatus : session.state.status ≠ .idle → session'.state.status = session.state.status) :
    Words (s.setSession id session') events := by
  refine ⟨?_, h.known, h.asked, ?_, h.handles⟩
  · intro id' found run hfound hrun
    rcases update_eq_some hfound with ⟨rfl, rfl⟩ | ⟨-, hfound⟩
    · have hown := h.own hsession (hactive ▸ hrun)
      rw [hstatus (h.known hown).2]
      exact hown
    · exact h.own hfound hrun
  · intro call id' run waitMs hcall
    obtain ⟨found, hfound, hown, hunique⟩ := h.waiting hcall
    by_cases heq : id' = id
    · subst heq
      rw [hsession] at hfound
      obtain rfl := Option.some.inj hfound
      refine ⟨session', Function.update_self .., ?_, fun r hr => hunique r (hactive ▸ hr)⟩
      rw [hstatus (h.known hown).2]
      exact hown
    · exact ⟨found, update_of_ne_some hfound heq, hown, hunique⟩

/-- A thread moves on; one whose flag is set does not read it as unset. -/
lemma setThread (h : Words s events) {request : WorkerRunRequest} {phase : RunPhase}
    (hphase : s.flags run = true → ∀ result, phase ≠ .flagRead result false) :
    Words (s.setThread run (some ⟨request, phase⟩)) events := by
  refine ⟨h.own, h.known, ?_, h.waiting, h.handles⟩
  intro run' hask
  rcases h.asked hask with ⟨thread, hthread, hflag, hfound⟩ | hown
  · by_cases heq : run' = run
    · subst heq
      exact .inl ⟨_, Function.update_self .., hflag, hphase hflag⟩
    · exact .inl ⟨thread, update_of_ne_some hthread heq, hflag, hfound⟩
  · exact .inr hown

lemma isSilent_of_isQuiet (h : event.IsQuiet) : event.IsSilent := by
  refine ⟨fun run => ?_, ?_⟩ <;> cases event <;> simp_all [WorkerEvent.IsQuiet, WorkerEvent.statusOf]

/-- No client waits in a session that is not there. -/
lemma not_waiting (h : Words s events) (hsound : s.Sound) (hid : id ∉ s.issued) (call : Nat)
    (run : String) (waitMs : Option Nat) : s.calls call ≠ some (.waiting id run waitMs) := by
  intro hcall
  obtain ⟨session, hsession, -⟩ := h.waiting hcall
  exact hid (hsound.issued hsession)

/-- **Every undisturbed move keeps the word of the service.** -/
lemma move (h : Words s events) (hsound : s.Sound) {input : WorkerInput} {s' : WorkerSystem}
    (hmove : s.Move input s' event) (hok : s.Undisturbed input) : Words s' (event :: events) := by
  have hnone : ∀ id run waitMs, (none : Option OpenCall) ≠ some (.waiting id run waitMs) := by simp
  cases hmove with
  | stay hquiet => exact h.silent (isSilent_of_isQuiet hquiet)
  | closed => exact (h.setCall hnone).silent (isSilent_of_isQuiet trivial)
  | @handle call expired id run waitMs session hcall hsession =>
    have hsilent : Words (s.setCall call none) events := h.setCall hnone
    obtain ⟨found, hfound, hown, -⟩ := h.waiting hcall
    rw [hsession] at hfound
    obtain rfl := Option.some.inj hfound
    refine ⟨hsilent.own, hsilent.known, ?_, hsilent.waiting, ?_, h.handles⟩
    · intro run' hask
      exact hsilent.asked ((cancelAccepted_cons (by simp [WorkerEvent.statusOf])).mp hask)
    · rintro _ run' ⟨⟩ heq
      obtain rfl := Option.some.inj heq
      exact hown
  | started hid hrun =>
    refine (h.insertSession hsound hid rfl).enterRun (hsound.insertSession hid rfl rfl rfl) hrun
      (h.not_waiting hsound hid) ?_ ?_ (by simp)
    · simp [WorkerEvent.statusOf]
    · intro r hne
      simp [WorkerEvent.statusOf, Ne.symm hne]
  | continued hrun hsession hfree =>
    refine h.enterRun hsound hrun (hok _ hsession hfree) ?_ ?_ (by simp)
    · simp [WorkerEvent.statusOf]
    · intro r hne
      simp [WorkerEvent.statusOf, Ne.symm hne]
  | @cancelling request now session active hsession hactive =>
    refine h.update hsound hsession hactive ?_ ?_ (by simp) ?_ ?_ ?_ ?_
    · simp [WorkerEvent.statusOf, WorkerSession.cancelRun]
    · intro r hne
      simp [WorkerEvent.statusOf, Ne.symm hne]
    · intro r hr
      exact Option.some.inj (hr.symm.trans hactive)
    · simp [WorkerSession.cancelRun]
    · intro r hne
      rw [hsound.token hsession, hactive]
      exact ⟨rfl, Function.update_of_ne hne ..⟩
    · intro _
      obtain ⟨thread, hthread, -⟩ := hsound.thread hsession hactive
      refine .inl ⟨thread, hthread, ?_, fun result => hok session active thread result hsession
        hactive hthread⟩
      rw [hsound.token hsession, hactive]
      exact Function.update_self ..
  | copied hid =>
    exact (h.insertSession hsound hid rfl).silent (isSilent_of_isQuiet trivial)
  | branched hid =>
    exact (h.insertSession hsound hid rfl).silent ⟨fun _ => rfl, by simp⟩
  | branchedRun hid hrun =>
    refine (h.insertSession hsound hid rfl).enterRun (hsound.insertSession hid rfl rfl rfl) hrun
      (h.not_waiting hsound hid) ?_ ?_ (by simp)
    · simp [WorkerEvent.statusOf]
    · intro r hne
      simp [WorkerEvent.statusOf, Ne.symm hne]
  | compacting => exact (h.setCall (by simp)).silent ⟨fun _ => rfl, by simp⟩
  | compacted hcall hsession hepoch =>
    refine Words.silent ((h.setCall hnone).setSession hsession rfl fun hidle => ?_)
      ⟨fun _ => rfl, by simp⟩
    exact if_neg hidle
  | engineReturned hthread =>
    exact (h.setThread fun _ _ => by simp).silent ⟨fun _ => rfl, by simp⟩
  | flagRead hthread =>
    exact (h.setThread fun hflag result => by simp [hflag]).silent ⟨fun _ => rfl, by simp⟩
  | @ended run request result cancelled now session hthread hsession hactive =>
    refine @update s events _ _ run session h hsound _ (Function.update s.threads run none) s.flags
      hsession hactive ?_ ?_ (by simp) ?_ ?_ ?_ ?_
    · simp [WorkerEvent.statusOf, WorkerSession.finishRun]
    · intro r hne
      simp [WorkerEvent.statusOf, Ne.symm hne]
    · intro r hr
      cases hr
    · cases cancelled <;> cases result <;> simp [WorkerSession.finishRun, WorkerSession.endStatus]
    · intro r hne
      exact ⟨Function.update_of_ne hne .., rfl⟩
    · intro hask
      rw [cancelAccepted_cons] at hask
      · rcases h.asked hask with ⟨thread, hfound, -, hphase⟩ | hown
        · rw [hthread] at hfound
          obtain rfl := Option.some.inj hfound
          cases cancelled with
          | true => exact .inr rfl
          | false => exact absurd rfl (hphase result)
        · have hbusy := hsound.busy_of_active hsession hactive
          rw [← Option.some.inj (hown.symm.trans (h.own hsession hactive))] at hbusy
          cases hbusy
      · cases cancelled <;> cases result <;> simp [WorkerEvent.statusOf, WorkerSession.endStatus]
  | dropped hthread hinactive =>
    obtain ⟨session, hsession, hactive⟩ := hsound.active hthread
    exact absurd hactive (hinactive session hsession)

/-- The word about cancels. -/
lemma cancelsKept (h : Words s events) (hsound : s.Sound) : CancelsKept events := by
  intro run status hask hown hterminal
  rcases h.asked hask with ⟨thread, hthread, -⟩ | hcancelled
  · obtain ⟨session, hsession, hactive⟩ := hsound.active hthread
    have hbusy := hsound.busy_of_active hsession hactive
    rw [← Option.some.inj (hown.symm.trans (h.own hsession hactive)),
      WorkerStatus.not_busy_of_terminal hterminal] at hbusy
    cases hbusy
  · exact Option.some.inj (hown.symm.trans hcancelled)

end Words

lemma Words.new : Words WorkerSystem.new [] where
  own h := by cases h
  known h := by cases h
  asked h := by
    obtain ⟨id, hmem⟩ := h
    cases hmem
  waiting h := by cases h
  handles := trivial

lemma Worker.sound_run (inputs : List WorkerInput) :
    (Run.run Worker.step Worker.new inputs).system.Sound := by
  have hstep : ∀ (w : Worker) input, w.system.Sound → True → (w.step input).system.Sound :=
    fun w input hsound _ => hsound.move (w.system.fire_move input)
  exact (Run.along_true Worker.new inputs).invariant hstep WorkerSystem.Sound.new

/-- **The service keeps its word.** In every run its sessions and their runs go together;
when the steps are undisturbed, every handle gives the status of its own run, and every run
whose cancel was accepted ends as cancelled. -/
theorem worker_keeps_word (inputs : List WorkerInput) :
    (Run.run Worker.step Worker.new inputs).system.Sound ∧
      (Run.Along Worker.step (fun w => w.system.Undisturbed) Worker.new inputs →
        HandlesTrue (Run.run Worker.step Worker.new inputs).events ∧
          CancelsKept (Run.run Worker.step Worker.new inputs).events) := by
  refine ⟨Worker.sound_run inputs, fun hok => ?_⟩
  have hinv : ∀ (w : Worker) input, w.system.Sound ∧ Words w.system w.events →
      w.system.Undisturbed input →
      (w.step input).system.Sound ∧ Words (w.step input).system (w.step input).events := by
    rintro w input ⟨hsound, hwords⟩ hundisturbed
    have hmove := w.system.fire_move input
    exact ⟨hsound.move hmove, hwords.move hsound hmove hundisturbed⟩
  obtain ⟨hsound, hwords⟩ := hok.invariant hinv ⟨WorkerSystem.Sound.new, Words.new⟩
  exact ⟨hwords.handles, hwords.cancelsKept hsound⟩

namespace CancelledRun

/-- A run is started, cancelled in its engine, and ends; its client reads the handle last. -/
def inputs : List WorkerInput :=
  [.start 0 ⟨"go", some 100⟩ "s" "r" 0, .cancel ⟨"s", some "r"⟩ 1, .engineReturn "r" (.ok {}),
    .readFlag "r", .finishRun "r" 2, .readHandle 0 false]

/-- The steps are undisturbed: the cancel finds the thread in its engine. -/
lemma undisturbed :
    Run.Along Worker.step (fun w => w.system.Undisturbed) Worker.new inputs := by
  refine ⟨trivial, ?_, trivial, trivial, trivial, trivial, trivial⟩
  intro session run thread result hsession hactive hthread
  obtain rfl : run = "r" := by
    have hfound : some _ = some session := hsession
    obtain rfl := Option.some.inj hfound
    exact (Option.some.inj hactive).symm
  have hfound : some _ = some thread := hthread
  obtain rfl := Option.some.inj hfound
  simp

end CancelledRun

theorem worker_keeps_word_cancelled :
    ownStatus "r" (Run.run Worker.step Worker.new CancelledRun.inputs).events = some .cancelled ∧
      HandlesTrue (Run.run Worker.step Worker.new CancelledRun.inputs).events ∧
      CancelsKept (Run.run Worker.step Worker.new CancelledRun.inputs).events :=
  ⟨by decide, (worker_keeps_word CancelledRun.inputs).2 CancelledRun.undisturbed⟩

namespace LateSteps

/-- A cancel comes between the read of the flag and the end of the run. -/
def cancelInputs : List WorkerInput :=
  [.start 0 ⟨"go", none⟩ "s" "r" 0, .engineReturn "r" (.ok {}), .readFlag "r",
    .cancel ⟨"s", some "r"⟩ 1, .finishRun "r" 2]

/-- A run is begun while the client of the run before it still waits. -/
def continueInputs : List WorkerInput :=
  [.start 0 ⟨"go", some 100⟩ "s" "r" 0, .engineReturn "r" (.ok {}), .readFlag "r",
    .finishRun "r" 1, .continueSession 1 ⟨"s", "on", none⟩ "q" 2, .readHandle 0 true]

end LateSteps

/-- The accepted cancel is lost, and the handle of a completed run says that it is running. -/
theorem lateSteps_break_word :
    ¬ CancelsKept (Run.run Worker.step Worker.new LateSteps.cancelInputs).events ∧
      ¬ HandlesTrue (Run.run Worker.step Worker.new LateSteps.continueInputs).events := by
  constructor
  · intro hkept
    have hasked : CancelAccepted "r"
        (Run.run Worker.step Worker.new LateSteps.cancelInputs).events :=
      ⟨"s", List.mem_cons_of_mem _ List.mem_cons_self⟩
    have hended := hkept "r" .completed hasked (by decide) rfl
    cases hended
  · intro htrue
    have hown := htrue.1 _ "r" rfl rfl
    have hcompleted : ownStatus "r"
        (Run.run Worker.step Worker.new (LateSteps.continueInputs.take 5)).events =
          some .completed := by decide
    have hstatus := Option.some.inj (hown.symm.trans hcompleted)
    cases hstatus

end Rupi
