import Rupi.Worker.Moves

/-!
The sessions of the worker and their runs.

- `WorkerSystem.Sound`: a session is busy exactly while it has an active run, and the
  active runs are those with a thread.
- **`Sound.move`**: every move of the service keeps it so.
-/

namespace Rupi

lemma update_cases {α β : Type*} [DecidableEq α] {f : α → β} {a b : α} {x y : β}
    (h : Function.update f a x b = y) : b = a ∧ x = y ∨ b ≠ a ∧ f b = y := by
  rw [Function.update_apply] at h
  split_ifs at h with heq
  · exact .inl ⟨heq, h⟩
  · exact .inr ⟨heq, h⟩

lemma update_eq_some {α β : Type*} [DecidableEq α] {f : α → Option β} {a b : α} {x y : β}
    (h : Function.update f a (some x) b = some y) : b = a ∧ y = x ∨ b ≠ a ∧ f b = some y :=
  (update_cases h).imp_left (And.imp_right fun heq => (Option.some.inj heq).symm)

lemma update_none_eq_some {α β : Type*} [DecidableEq α] {f : α → Option β} {a b : α} {y : β}
    (h : Function.update f a none b = some y) : b ≠ a ∧ f b = some y :=
  (update_cases h).resolve_left fun heq => Option.some_ne_none y heq.2.symm

lemma update_of_ne_some {α β : Type*} [DecidableEq α] {f : α → Option β} {a b : α} {x : Option β}
    {y : β} (h : f b = some y) (hne : b ≠ a) : Function.update f a x b = some y := by
  rw [Function.update_of_ne hne, h]

/-! ### Sessions and their threads -/

namespace WorkerSystem

/-- The sessions, their active runs and the threads go together. -/
structure Sound (s : WorkerSystem) : Prop where
  busy : ∀ {id session}, s.sessions id = some session →
    (session.state.status.busy = true ↔ session.state.activeRunId ≠ none)
  thread : ∀ {id session run}, s.sessions id = some session →
    session.state.activeRunId = some run →
    ∃ thread, s.threads run = some thread ∧ thread.request.sessionId = id
  active : ∀ {run thread}, s.threads run = some thread →
    ∃ session, s.sessions thread.request.sessionId = some session ∧
      session.state.activeRunId = some run
  token : ∀ {id session}, s.sessions id = some session →
    session.cancel = session.state.activeRunId
  issued : ∀ {id session}, s.sessions id = some session → id ∈ s.issued
  issuedRun : ∀ {run thread}, s.threads run = some thread → run ∈ s.issued

namespace Sound

variable {s : WorkerSystem} {id run : String} {session : WorkerSession}

lemma free (h : s.Sound) (hsession : s.sessions id = some session)
    (hfree : session.state.status.busy = false) : session.state.activeRunId = none := by
  by_contra hactive
  rw [(h.busy hsession).mpr hactive] at hfree
  cases hfree

/-- A new session without a run. -/
lemma insertSession (h : s.Sound) (hid : id ∉ s.issued) (hactive : session.state.activeRunId = none)
    (hfree : session.state.status.busy = false) (hcancel : session.cancel = none) :
    (s.insertSession id session).Sound where
  busy hsession := by
    rcases update_eq_some hsession with ⟨rfl, rfl⟩ | ⟨-, hsession⟩
    · simp [hactive, hfree]
    · exact h.busy hsession
  thread hsession hrun := by
    rcases update_eq_some hsession with ⟨rfl, rfl⟩ | ⟨-, hsession⟩
    · rw [hactive] at hrun
      cases hrun
    · exact h.thread hsession hrun
  active hthread := by
    obtain ⟨session', hsession, hrun⟩ := h.active hthread
    exact ⟨session', update_of_ne_some hsession fun heq => hid (heq ▸ h.issued hsession), hrun⟩
  token hsession := by
    rcases update_eq_some hsession with ⟨rfl, rfl⟩ | ⟨-, hsession⟩
    · rw [hactive, hcancel]
    · exact h.token hsession
  issued hsession := by
    rcases update_eq_some hsession with ⟨rfl, rfl⟩ | ⟨-, hsession⟩
    · exact List.mem_cons_self
    · exact List.mem_cons_of_mem _ (h.issued hsession)
  issuedRun hthread := List.mem_cons_of_mem _ (h.issuedRun hthread)

/-- A run in a free session. -/
lemma enterRun (h : s.Sound) {request : WorkerRunRequest} {call now : Nat} {waitMs : Option Nat}
    (hrun : run ∉ s.issued) (hsession : s.sessions request.sessionId = some session)
    (hfree : session.state.status.busy = false) :
    (s.enterRun call session request run waitMs now).Sound where
  busy hsession' := by
    rcases update_eq_some hsession' with ⟨rfl, rfl⟩ | ⟨-, hsession'⟩
    · simp [WorkerSession.beginRun, WorkerStatus.busy]
    · exact h.busy hsession'
  thread {_ _ run'} hsession' hrun' := by
    rcases update_eq_some hsession' with ⟨rfl, rfl⟩ | ⟨hne, hsession'⟩
    · obtain rfl := Option.some.inj hrun'
      exact ⟨_, Function.update_self .., rfl⟩
    · obtain ⟨thread, hthread, hid⟩ := h.thread hsession' hrun'
      exact ⟨thread, update_of_ne_some hthread fun heq => hrun (heq ▸ h.issuedRun hthread), hid⟩
  active hthread := by
    rcases update_eq_some hthread with ⟨rfl, rfl⟩ | ⟨-, hthread⟩
    · exact ⟨_, Function.update_self .., rfl⟩
    · obtain ⟨session', hsession', hactive⟩ := h.active hthread
      refine ⟨session', update_of_ne_some hsession' fun heq => ?_, hactive⟩
      rw [heq, hsession] at hsession'
      obtain rfl := Option.some.inj hsession'
      rw [h.free hsession hfree] at hactive
      cases hactive
  token hsession' := by
    rcases update_eq_some hsession' with ⟨rfl, rfl⟩ | ⟨-, hsession'⟩
    · rfl
    · exact h.token hsession'
  issued hsession' := by
    rcases update_eq_some hsession' with ⟨rfl, rfl⟩ | ⟨-, hsession'⟩
    · exact List.mem_cons_of_mem _ (h.issued hsession)
    · exact List.mem_cons_of_mem _ (h.issued hsession')
  issuedRun hthread := by
    rcases update_eq_some hthread with ⟨rfl, rfl⟩ | ⟨-, hthread⟩
    · exact List.mem_cons_self
    · exact List.mem_cons_of_mem _ (h.issuedRun hthread)

/-- An update of a session that keeps its run. -/
lemma setSession (h : s.Sound) {session' : WorkerSession} (hsession : s.sessions id = some session)
    (hactive : session'.state.activeRunId = session.state.activeRunId)
    (hbusy : session'.state.status.busy = session.state.status.busy)
    (hcancel : session'.cancel = session.cancel) : (s.setSession id session').Sound where
  busy hlookup := by
    rcases update_eq_some hlookup with ⟨rfl, rfl⟩ | ⟨-, hlookup⟩
    · rw [hactive, hbusy]
      exact h.busy hsession
    · exact h.busy hlookup
  thread hlookup hrun := by
    rcases update_eq_some hlookup with ⟨rfl, rfl⟩ | ⟨-, hlookup⟩
    · exact h.thread hsession (hactive ▸ hrun)
    · exact h.thread hlookup hrun
  active {_ thread} hthread := by
    obtain ⟨found, hfound, hrun⟩ := h.active hthread
    by_cases heq : thread.request.sessionId = id
    · rw [heq, hsession] at hfound
      obtain rfl := Option.some.inj hfound
      exact ⟨session', by rw [heq]; exact Function.update_self .., hactive ▸ hrun⟩
    · exact ⟨found, update_of_ne_some hfound heq, hrun⟩
  token hlookup := by
    rcases update_eq_some hlookup with ⟨rfl, rfl⟩ | ⟨-, hlookup⟩
    · rw [hcancel, hactive]
      exact h.token hsession
    · exact h.token hlookup
  issued hlookup := by
    rcases update_eq_some hlookup with ⟨rfl, rfl⟩ | ⟨-, hlookup⟩
    · exact h.issued hsession
    · exact h.issued hlookup
  issuedRun hthread := h.issuedRun hthread

/-- The end of the active run and of its thread. -/
lemma ended (h : s.Sound) {session' : WorkerSession} (hsession : s.sessions id = some session)
    (hrun : session.state.activeRunId = some run) (hactive : session'.state.activeRunId = none)
    (hfree : session'.state.status.busy = false) (hcancel : session'.cancel = none) :
    ((s.setThread run none).setSession id session').Sound where
  busy hlookup := by
    rcases update_eq_some hlookup with ⟨rfl, rfl⟩ | ⟨-, hlookup⟩
    · simp [hactive, hfree]
    · exact h.busy hlookup
  thread hlookup hrun' := by
    rcases update_eq_some hlookup with ⟨rfl, rfl⟩ | ⟨hne, hlookup⟩
    · rw [hactive] at hrun'
      cases hrun'
    · obtain ⟨thread, hthread, hid⟩ := h.thread hlookup hrun'
      refine ⟨thread, update_of_ne_some hthread ?_, hid⟩
      rintro rfl
      -- The thread of the run is that of this session.
      obtain ⟨thread', hthread', hid'⟩ := h.thread hsession hrun
      rw [hthread] at hthread'
      obtain rfl := Option.some.inj hthread'
      exact hne (hid.symm.trans hid')
  active {run' thread} hthread := by
    obtain ⟨hne, hthread⟩ := update_none_eq_some hthread
    obtain ⟨found, hfound, hrun'⟩ := h.active hthread
    refine ⟨found, update_of_ne_some hfound fun hid => ?_, hrun'⟩
    rw [hid, hsession] at hfound
    obtain rfl := Option.some.inj hfound
    exact hne (Option.some.inj (hrun'.symm.trans hrun))
  token hlookup := by
    rcases update_eq_some hlookup with ⟨rfl, rfl⟩ | ⟨-, hlookup⟩
    · rw [hactive, hcancel]
    · exact h.token hlookup
  issued hlookup := by
    rcases update_eq_some hlookup with ⟨rfl, rfl⟩ | ⟨-, hlookup⟩
    · exact h.issued hsession
    · exact h.issued hlookup
  issuedRun hthread := h.issuedRun (update_none_eq_some hthread).2

/-- A thread moves on. -/
lemma setThread (h : s.Sound) {thread : RunThread} {phase : RunPhase}
    (hthread : s.threads run = some thread) :
    (s.setThread run (some ⟨thread.request, phase⟩)).Sound where
  busy := h.busy
  thread {_ _ run'} hsession hrun := by
    obtain ⟨found, hfound, hid⟩ := h.thread hsession hrun
    by_cases heq : run' = run
    · subst heq
      rw [hthread] at hfound
      obtain rfl := Option.some.inj hfound
      exact ⟨_, Function.update_self .., hid⟩
    · exact ⟨found, update_of_ne_some hfound heq, hid⟩
  active hlookup := by
    rcases update_eq_some hlookup with ⟨rfl, rfl⟩ | ⟨-, hlookup⟩
    · have hactive := h.active hthread
      exact hactive
    · exact h.active hlookup
  token := h.token
  issued := h.issued
  issuedRun hlookup := by
    rcases update_eq_some hlookup with ⟨rfl, rfl⟩ | ⟨-, hlookup⟩
    · exact h.issuedRun hthread
    · exact h.issuedRun hlookup

lemma setCall (h : s.Sound) (call : Nat) (state : Option OpenCall) : (s.setCall call state).Sound :=
  ⟨h.busy, h.thread, h.active, h.token, h.issued, h.issuedRun⟩

lemma setFlags (h : s.Sound) (flags : String → Bool) : ({ s with flags := flags }).Sound :=
  ⟨h.busy, h.thread, h.active, h.token, h.issued, h.issuedRun⟩

lemma busy_of_active (h : s.Sound) (hsession : s.sessions id = some session)
    (hactive : session.state.activeRunId = some run) : session.state.status.busy = true :=
  (h.busy hsession).mpr (by simp [hactive])

/-- **Every move keeps the sessions and their runs together.** -/
lemma move (h : s.Sound) {input : WorkerInput} {s' : WorkerSystem} {event : WorkerEvent}
    (hmove : Move s input s' event) : s'.Sound := by
  cases hmove with
  | stay => exact h
  | closed => exact h.setCall _ _
  | handle => exact h.setCall _ _
  | started hid hrun =>
    exact (h.insertSession hid rfl rfl rfl).enterRun hrun (Function.update_self ..) rfl
  | continued hrun hsession hfree => exact h.enterRun hrun hsession hfree
  | @cancelling request now session active hsession hactive =>
    have hset : (s.setSession request.sessionId (session.cancelRun now)).Sound := by
      refine h.setSession hsession rfl ?_ rfl
      rw [h.busy_of_active hsession hactive]
      rfl
    exact hset.setFlags _
  | copied hid => exact h.insertSession hid rfl rfl rfl
  | branched hid => exact h.insertSession hid rfl rfl rfl
  | branchedRun hid hrun =>
    exact (h.insertSession hid rfl rfl rfl).enterRun hrun (Function.update_self ..) rfl
  | compacting => exact h.setCall _ _
  | @compacted call request session execution epoch now hcall hsession hepoch =>
    refine (h.setCall call none).setSession hsession rfl ?_ rfl
    rw [WorkerSession.compacted]
    dsimp only
    split_ifs with hidle
    · have hstatus : session.state.status = .idle := hidle
      rw [hstatus]
      rfl
    · rfl
  | engineReturned hthread => exact h.setThread hthread
  | flagRead hthread => exact h.setThread hthread
  | @ended run request result cancelled now session hthread hsession hactive =>
    refine h.ended hsession hactive rfl ?_ rfl
    cases cancelled <;> cases result <;> rfl
  | dropped hthread hinactive =>
    obtain ⟨session, hsession, hactive⟩ := h.active hthread
    exact absurd hactive (hinactive session hsession)

lemma new : WorkerSystem.new.Sound where
  busy h := by cases h
  thread h := by cases h
  active h := by cases h
  token h := by cases h
  issued h := by cases h
  issuedRun h := by cases h

end Sound

end WorkerSystem

end Rupi
