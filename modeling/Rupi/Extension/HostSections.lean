import Rupi.Extension.HostRuns

/-!
Sections of the extension host keep the invariant.

- `Section.inv`: what a section does is enough.
- `Section.live`: the process of a ready host lives on.
- `Touches`, `Section.goto`, `Section.leave`, `Section.acquire`: how sections are put together.
-/

namespace Rupi

open Run Locks

variable {ρ : Type}

/-! ### Locks -/

namespace HostTask

/-- An operation that is engaged holds the request lock of the process. -/
lemma holds_of_engaged {task : HostTask ρ} {p : Nat} (h : task.engaged p = true) :
    task.holds (.request p) = true := by
  cases task with
  | loading goal q stage => cases stage <;> simp_all [engaged, holds, ExchangeStage.checked,
      ExchangeStage.locked]
  | requesting goal q stage => cases stage <;> simp_all [engaged, holds, ExchangeStage.checked,
      ExchangeStage.locked]
  | _ => simp [engaged] at h

end HostTask

namespace ExtensionHost

variable {reader : RpcReader ρ} {s s₁ s' : ExtensionHost ρ} {t u p : Nat}

/-! ### The other operations -/

lemma Answered.mono {result : ρ} (h : s.Answered reader t result) (ha : s.answers ⊆ s₁.answers) :
    s₁.Answered reader t result := by
  obtain ⟨p, id, bytes, line, response, hmem, hrest⟩ := h
  exact ⟨p, id, bytes, line, response, ha hmem, hrest⟩

namespace Touches

variable (h : s.Inv reader) (hs : s.Touches s₁ t) (hu : u ≠ t)
include h hs hu

omit hs in
/-- No other operation holds a lock of the operation at the section. -/
lemma apart {name : HostLock} (hheld : (s.tasks u).holds name = true) :
    (s.tasks t).holds name = false := by
  by_contra hcon
  exact hu (h.locks.exclusive hheld (by simpa using hcon))

/-- Without the start lock the host does not become ready. -/
lemma not_ready (hheld : (s.tasks u).holds .start = true) (hr : s.status ≠ .ready) :
    s₁.status ≠ .ready := by
  intro hready
  rcases hs.status hready with hold | hstart
  · exact hr hold
  · rw [apart h hu hheld] at hstart
    exact absurd hstart (by simp)

/-- Without the start lock the host gets no other process. -/
lemma child_of_start (hheld : (s.tasks u).holds .start = true) :
    s₁.child = s.child ∨ s₁.child = none := by
  rcases hs.child with hsame | hnone | ⟨p, -, hstart, -⟩
  · exact .inl hsame
  · exact .inr hnone
  · rw [apart h hu hheld] at hstart
    exact absurd hstart (by simp)

omit h hu in
/-- The host does not get an old process back. -/
lemma child_ne (hp : (s.processes p).attached = true) (hne : s.child ≠ some p) :
    s₁.child ≠ some p := by
  rcases hs.child with hsame | hnone | ⟨q, hq, -, hfresh, -⟩
  · rwa [hsame]
  · rw [hnone]
    exact (nomatch ·)
  · rintro heq
    cases hq.symm.trans heq
    rw [hp] at hfresh
    exact absurd hfresh (by simp)

/-- The exchange of another operation goes on. -/
lemma engaged {stage : ExchangeStage} (hp : (s.processes p).attached = true)
    (hheld : stage.checked = true → (s.tasks u).engaged p = true) (he : s.Engaged p stage) :
    s₁.Engaged p stage := by
  by_cases hc : stage.checked = true
  · rcases hs.same p with hsame | heng
    · exact ⟨hsame.exchanging he.1, fun _ herr => hs.child_ne hp (he.2 hc (hsame.hasError herr))⟩
    · exact absurd (HostTask.holds_of_engaged heng)
        (by simp [apart h hu (HostTask.holds_of_engaged (hheld hc))])
  · refine ⟨?_, fun hc' => absurd hc' hc⟩
    cases stage <;> simp_all [ExchangeStage.checked, HostProcess.Exchanging]

/-- **What another operation relies on stays.** -/
lemma relies : s₁.Relies reader u (s.tasks u) := by
  have hold := h.relies u
  cases htask : s.tasks u with
  | starting goal stage =>
    rw [htask] at hold
    refine ⟨fun hway => ?_, fun p hstage => ?_⟩
    · refine hs.not_ready h hu ?_ (hold.1 hway)
      cases stage <;> simp_all [HostTask.holds, StartStage.locked, StartStage.underWay]
    · obtain ⟨hlt, hnot⟩ := hold.2 p hstage
      refine ⟨hlt.trans_le hs.spawned, ?_⟩
      by_contra hcon
      rcases hs.attached p (by simpa using hcon) with hatt | ⟨hstart, -⟩
      · rw [hnot] at hatt
        exact absurd hatt (by simp)
      · have hheld : (s.tasks u).holds .start = true := by
          rw [htask, hstage]
          rfl
        rw [apart h hu hheld] at hstart
        exact absurd hstart (by simp)
  | loading goal p stage =>
    have hheld : (s.tasks u).holds .start = true := by
      rw [htask]
      rfl
    rw [htask] at hold
    obtain ⟨hr, hatt, hchild, heng⟩ := hold
    refine ⟨hs.not_ready h hu hheld hr, (hs.follows p).attached hatt, ?_,
      hs.engaged h hu hatt (fun hc => by simp [htask, HostTask.engaged, hc]) heng⟩
    rcases hs.child_of_start h hu hheld with hsame | hnone
    · rwa [hsame]
    · exact .inl hnone
  | finish goal p result =>
    have hheld : (s.tasks u).holds .start = true := by
      rw [htask]
      rfl
    rw [htask] at hold
    obtain ⟨hr, hatt, hchild⟩ := hold
    refine ⟨hs.not_ready h hu hheld hr, (hs.follows p).attached hatt, ?_⟩
    rcases hs.child_of_start h hu hheld with hsame | hnone
    · rwa [hsame]
    · exact .inl hnone
  | requesting goal p stage =>
    rw [htask] at hold
    exact ⟨(hs.follows p).attached hold.1, hs.engaged h hu hold.1
      (fun hc => by simp [htask, HostTask.engaged, hc]) hold.2⟩
  | markLost goal p error =>
    rw [htask] at hold
    exact (hs.follows p).attached hold
  | stopping result =>
    rw [htask] at hold
    exact fun value hvalue => (hold value hvalue).mono hs.answers
  | terminating p result =>
    rw [htask] at hold
    exact ⟨hs.halted hold.1, fun value hvalue => (hold.2 value hvalue).mono hs.answers⟩
  | done result lost =>
    rw [htask] at hold
    refine ⟨fun p hp => ?_, fun value hvalue => (hold.2 value hvalue).mono hs.answers⟩
    obtain ⟨hatt, hne⟩ := hold.1 p hp
    exact ⟨(hs.follows p).attached hatt, hs.child_ne hatt hne⟩
  | idle | shutdownCheck | checkModules | readChild => trivial

end Touches

/-! ### The invariant -/

/-- **A section keeps the invariant.** -/
theorem Section.inv (h : s.Inv reader) (hs : s.Section reader t s') : s'.Inv reader := by
  cases hs with
  | stay => exact h
  | go s₁ locks task begun hs agrees hpass =>
    have htasks : ∀ u, (({ s₁ with locks := locks } : ExtensionHost ρ).goto t task).tasks u =
        Function.update s.tasks t task u := by
      intro u
      rw [← hs.tasks]
      rfl
    refine ⟨fun name u => ?_, fun u => ?_, fun p hfree => ?_, fun p herr => ?_,
      fun hready hmod => ?_, fun p hp => ?_, fun p hp => ?_, fun u hu => ?_, fun hhalt => ?_,
      hs.stopped⟩
    · rw [htasks]
      exact agrees name u
    · rw [htasks]
      by_cases hu : u = t
      · rw [hu, Function.update_self]
        exact hpass.relies
      · rw [Function.update_of_ne hu]
        have hkept := hs.relies h hu
        exact hkept
    · -- the operation was engaged with the process, or no operation was
      by_cases heng : (s.tasks t).engaged p = true
      · have hnot : task.engaged p = false := by
          have hself := hfree t
          rwa [htasks, Function.update_self] at hself
        exact (hpass.calm p heng).resolve_left (by simp [hnot])
      · have hold : ∀ u, (s.tasks u).engaged p = false := by
          intro u
          by_cases hu : u = t
          · rw [hu]
            simpa using heng
          · have hother := hfree u
            rwa [htasks, Function.update_of_ne hu] at hother
        have hsame := (hs.same p).resolve_right heng
        exact (h.calm p hold).imp (hs.follows p).exited hsame.clean
    · obtain ⟨hexit, hclosed⟩ := h.errors p (hs.errors p herr)
      exact ⟨(hs.follows p).exited hexit, (hs.follows p).closed hclosed⟩
    · have hmod' : s.modules = true := by
        rw [← hs.modules]
        exact hmod
      rcases hs.ready hready hmod' with ⟨hwas, hchild⟩ | ⟨p, hchild, hload, -⟩
      · obtain ⟨p, hp, hload⟩ := h.ready hwas hmod'
        exact ⟨p, hchild.trans hp, (hs.follows p).loaded hload⟩
      · exact ⟨p, hchild, hload⟩
    · rcases hs.child with hsame | hnone | ⟨q, hq, -, -, hatt⟩
      · exact (hs.follows p).attached (h.attached p (hsame.symm.trans hp))
      · exact absurd (hnone.symm.trans hp) (nomatch ·)
      · cases hq.symm.trans hp
        exact hatt
    · by_contra hcon
      rcases hs.attached p (Bool.eq_true_of_not_eq_false hcon) with hatt | ⟨-, hlt⟩
      · rw [h.unspawned p (hs.spawned.trans hp)] at hatt
        exact absurd hatt (by simp)
      · exact absurd hlt (Nat.not_lt.2 hp)
    · have hnot : u ∉ s.begun := by
        rw [← hs.begun]
        exact hu
      have hidle := h.known u hnot
      have hne : u ≠ t := by
        rintro rfl
        exact begun hidle
      rw [htasks, Function.update_of_ne hne]
      exact hidle
    · obtain ⟨hchild, hstatus, hmay⟩ := hs.halting hhalt
      refine ⟨hchild, hstatus, fun u => ?_⟩
      rw [htasks]
      by_cases hu : u = t
      · rw [hu, Function.update_self]
        by_contra hcon
        have hwas := hpass.mayStart (by simpa using hcon)
        rw [hmay t] at hwas
        exact absurd hwas (by simp)
      · rw [Function.update_of_ne hu]
        exact hmay u

/-- **The process of a ready host lives on.** -/
theorem Section.live (hlive : s.Live) (hs : s.Section reader t s')
    (hcut : s.status = .ready → ∀ p, s.child = some p → (s.tasks t).cuts p = false) : s'.Live := by
  cases hs with
  | stay => exact hlive
  | go s₁ locks task begun hs agrees hpass =>
    intro hready hmod p hp
    have hmod' : s.modules = true := by
      rw [← hs.modules]
      exact hmod
    rcases hs.ready hready hmod' with ⟨hwas, hchild⟩ | ⟨q, hq, -, hterm⟩
    · have hp' : s.child = some p := hchild.symm.trans hp
      by_contra hcon
      rcases hs.cuts p (Bool.eq_true_of_not_eq_false hcon) with hterm | hnot | hcuts
      · rw [hlive hwas hmod' p hp'] at hterm
        exact absurd hterm (by simp)
      · exact hnot hready
      · rw [hcut hwas p hp'] at hcuts
        exact absurd hcuts (by simp)
    · cases hq.symm.trans hp
      exact hterm

/-! ### What can be done with the shared state -/

namespace Touches

variable (h : s.Inv reader)
include h

/-- Nothing. -/
lemma refl : s.Touches s t where
  tasks := rfl
  begun := rfl
  modules := rfl
  locks := rfl
  answers := List.Subset.refl _
  status hready := .inl hready
  child := .inl rfl
  follows _ := .refl _
  same _ := .inl (.refl _)
  attached _ hp := .inl hp
  spawned := le_rfl
  errors _ herr := herr
  cuts _ hterm := .inl hterm
  ready hready _ := .inl ⟨hready, rfl⟩
  halted hhalt := hhalt
  halting hhalt := h.halted hhalt
  stopped hstop := h.stopped hstop

/-- The host is marked. -/
lemma mark {status : HostStatus} (hstatus : status ≠ .ready) :
    s.Touches { s with status := status } t where
  __ := refl h
  status hready := absurd hready hstatus
  ready hready _ := absurd hready hstatus
  cuts _ hterm := .inl hterm
  halting hhalt := ⟨(h.halted hhalt).1, hstatus, (h.halted hhalt).2.2⟩

/-- The host is marked, and loses its process. -/
lemma detach {status : HostStatus} (hstatus : status ≠ .ready) :
    s.Touches { s with status := status, child := none } t where
  __ := refl h
  status hready := absurd hready hstatus
  child := .inr (.inl rfl)
  ready hready _ := absurd hready hstatus
  cuts _ hterm := .inl hterm
  halting hhalt := ⟨rfl, hstatus, (h.halted hhalt).2.2⟩

/-- The host is stopped while no operation may start it. -/
lemma halt (stopped : Bool) (hclear : ∀ u, (s.tasks u).mayStart = false) :
    s.Touches { s with status := .stopped, child := none, halted := true, stopped := stopped } t where
  __ := refl h
  status := (nomatch ·)
  child := .inr (.inl rfl)
  ready := (nomatch ·)
  cuts _ hterm := .inl hterm
  halted _ := rfl
  halting _ := ⟨rfl, (nomatch ·), hclear⟩
  stopped _ := rfl

/-- A host without modules is ready. -/
lemma readyWithout (hmod : s.modules = false) (hheld : (s.tasks t).holds .start = true)
    (hmay : (s.tasks t).mayStart = true) : s.Touches { s with status := .ready } t where
  __ := refl h
  status _ := .inr hheld
  ready _ hmod' := absurd (hmod.symm.trans hmod') (by simp)
  cuts _ hterm := .inl hterm
  halting hhalt := absurd ((h.halted hhalt).2.2 t) (by simp [hmay])

/-- A process changes. -/
lemma setProcess {process : HostProcess} (hfollows : (s.processes p).Follows process)
    (hsame : (s.processes p).Same process ∨ (s.tasks t).engaged p = true)
    (hattached : process.attached = (s.processes p).attached)
    (herrors : process.HasError → (s.processes p).HasError)
    (hcuts : process.terminated = true →
      (s.processes p).terminated = true ∨ s.status ≠ .ready ∨ (s.tasks t).cuts p = true) :
    s.Touches (s.setProcess p process) t where
  __ := refl h
  child := .inl rfl
  ready hready _ := .inl ⟨hready, rfl⟩
  follows q := by
    by_cases hq : q = p
    · subst hq
      simpa [ExtensionHost.setProcess] using hfollows
    · simpa [ExtensionHost.setProcess, Function.update_of_ne hq] using .refl _
  same q := by
    by_cases hq : q = p
    · subst hq
      simpa [ExtensionHost.setProcess] using hsame
    · simpa [ExtensionHost.setProcess, Function.update_of_ne hq] using .inl (.refl _)
  attached q hatt := by
    by_cases hq : q = p
    · subst hq
      simp only [ExtensionHost.setProcess, Function.update_self] at hatt
      exact .inl (hattached ▸ hatt)
    · simp only [ExtensionHost.setProcess, Function.update_of_ne hq] at hatt
      exact .inl hatt
  errors q herr := by
    by_cases hq : q = p
    · subst hq
      simp only [ExtensionHost.setProcess, Function.update_self] at herr
      exact herrors herr
    · simpa only [ExtensionHost.setProcess, Function.update_of_ne hq] using herr
  cuts q hterm := by
    by_cases hq : q = p
    · subst hq
      simp only [ExtensionHost.setProcess, Function.update_self] at hterm
      exact hcuts hterm
    · simp only [ExtensionHost.setProcess, Function.update_of_ne hq] at hterm
      exact .inl hterm

/-- A process is terminated. -/
lemma terminate (hcuts : s.status ≠ .ready ∨ (s.tasks t).cuts p = true) :
    s.Touches (s.setProcess p (s.processes p).terminate) t :=
  setProcess h ⟨fun _ => rfl, id, id, id⟩ (.inl ⟨rfl, rfl, rfl⟩) rfl id fun _ => .inr hcuts

/-- A process is spawned. -/
lemma spawn : s.Touches { s with spawned := s.spawned + 1 } t where
  __ := refl h
  spawned := Nat.le_succ _
  attached _ hp := .inl hp
  cuts _ hterm := .inl hterm

/-- The host gets a process that was spawned for it. -/
lemma attach (hheld : (s.tasks t).holds .start = true) (hmay : (s.tasks t).mayStart = true)
    (hstatus : s.status ≠ .ready) (hlt : p < s.spawned)
    (hfresh : (s.processes p).attached = false) :
    s.Touches { s.setProcess p { s.processes p with attached := true } with child := some p } t where
  __ := refl h
  child := .inr (.inr ⟨p, rfl, hheld, hfresh, by simp [ExtensionHost.setProcess]⟩)
  follows q := by
    by_cases hq : q = p
    · subst hq
      simpa [ExtensionHost.setProcess] using ⟨id, id, fun _ => rfl, id⟩
    · simpa [ExtensionHost.setProcess, Function.update_of_ne hq] using .refl _
  same q := by
    by_cases hq : q = p
    · subst hq
      simpa [ExtensionHost.setProcess] using .inl ⟨rfl, rfl, rfl⟩
    · simpa [ExtensionHost.setProcess, Function.update_of_ne hq] using .inl (.refl _)
  attached q hatt := by
    by_cases hq : q = p
    · subst hq
      exact .inr ⟨hheld, hlt⟩
    · simp only [ExtensionHost.setProcess, Function.update_of_ne hq] at hatt
      exact .inl hatt
  errors q herr := by
    by_cases hq : q = p
    · subst hq
      simpa [ExtensionHost.setProcess, HostProcess.HasError] using herr
    · simpa only [ExtensionHost.setProcess, Function.update_of_ne hq] using herr
  cuts _ _ := .inr (.inl hstatus)
  ready hready := absurd hready hstatus
  halting hhalt := absurd ((h.halted hhalt).2.2 t) (by simp [hmay])

/-- The process of the host is loaded. -/
lemma load (hheld : (s.tasks t).holds .start = true) (hchild : s.child = some p)
    (hterm : (s.processes p).terminated = false) :
    s.Touches { s.setProcess p { s.processes p with loaded := true } with status := .ready } t :=
  have hset : s.Touches (s.setProcess p { s.processes p with loaded := true }) t :=
    setProcess h ⟨id, id, id, fun _ => rfl⟩ (.inl ⟨rfl, rfl, rfl⟩) rfl id .inl
  { hset with
    status := fun _ => .inr hheld
    cuts := fun q hq => by
      by_cases hqp : q = p
      · subst hqp
        exact .inl (by simpa [ExtensionHost.setProcess] using hq)
      · exact .inl (by simpa [ExtensionHost.setProcess, Function.update_of_ne hqp] using hq)
    ready := fun _ _ => .inr ⟨p, hchild, by simp [ExtensionHost.setProcess],
      by simpa [ExtensionHost.setProcess] using hterm⟩
    halting := fun hhalt => absurd ((h.halted hhalt).1.symm.trans hchild) (nomatch ·) }

omit h in
/-- An answer is noted. -/
lemma answer (hs : s.Touches s₁ t) (answer : Nat × Nat × Nat × Bytes) :
    s.Touches { s₁ with answers := s₁.answers ++ [answer] } t :=
  { hs with answers := List.subset_append_of_subset_left _ hs.answers }

omit h in
/-- A stop has returned. -/
lemma stop (hs : s.Touches s₁ t) (hhalt : s₁.halted = true) :
    s.Touches { s₁ with stopped := true } t :=
  { hs with stopped := fun _ => hhalt }

end Touches

/-! ### How a section ends -/

namespace Section

variable {task : HostTask ρ}

/-- The operation goes on. -/
lemma goto (h : s.Inv reader) (begun : s.tasks t ≠ .idle) (hs : s.Touches s₁ t)
    (hheld : ∀ name, task.holds name = (s.tasks t).holds name)
    (hpass : s.Passes reader s₁ t task) : s.Section reader t (s₁.goto t task) :=
  .go s₁ s₁.locks task begun hs (by
    rw [hs.locks]
    exact h.locks.keep hheld) hpass

/-- The operation goes on without a lock. -/
lemma leave {name : HostLock} (h : s.Inv reader) (begun : s.tasks t ≠ .idle)
    (hs : s.Touches s₁ t) (hheld : (s.tasks t).holds name = true) (hname : task.holds name = false)
    (hrest : ∀ other, other ≠ name → task.holds other = (s.tasks t).holds other)
    (hpass : s.Passes reader s₁ t task) : s.Section reader t (s₁.leave t name task) :=
  .go s₁ (release s₁.locks name) task begun hs (by
    rw [hs.locks]
    exact h.locks.release hheld hname hrest) hpass

/-- The operation goes on with a lock, or waits for it. -/
lemma acquire {name : HostLock} (h : s.Inv reader) (begun : s.tasks t ≠ .idle)
    (hname : task.holds name = true)
    (hrest : ∀ other, other ≠ name → task.holds other = (s.tasks t).holds other)
    (hpass : s.Passes reader s t task) : s.Section reader t (s.acquire t name task) := by
  rw [ExtensionHost.acquire]
  split
  next hfree =>
    exact .go s (take s.locks name t) task begun (.refl h) (h.locks.take hfree hname hrest) hpass
  next => exact .stay

end Section

end ExtensionHost

end Rupi
