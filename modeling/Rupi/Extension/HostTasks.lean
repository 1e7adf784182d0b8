import Rupi.Extension.HostSections

/-!
The operations of the extension host, section by section.

- `exchangeStep_section`: a request and its answer, inside a start or on its own.
- `startStep_section`, `finishStep_section`: a start.
- `taskStep_section`: every section of every operation, where `Clear` holds.
-/

namespace Rupi

open Run Locks

variable {ρ : Type}

namespace ExtensionHost

variable {reader : RpcReader ρ} {s s₁ s' : ExtensionHost ρ} {t u p : Nat}

/-! ### Exchanges -/

/-- What an exchange leaves alone. -/
structure Calls (s s₁ : ExtensionHost ρ) (p : Nat) : Prop where
  status : s₁.status = s.status
  child : s₁.child = s.child
  attached : (s₁.processes p).attached = (s.processes p).attached

/-- What an exchange knows of the operation that it is part of. -/
structure Around (reader : RpcReader ρ) (s : ExtensionHost ρ) (t p : Nat)
    (at' : ExchangeStage → HostTask ρ) (back : Except HostError ρ → Bool → HostTask ρ)
    (base : HostLock → Bool) : Prop where
  apart : base (.request p) = false
  holds : ∀ stage name, (at' stage).holds name =
    (base name || (stage.locked && decide (name = .request p)))
  held : ∀ result lost name, (back result lost).holds name = base name
  engaged : ∀ stage q, (at' stage).engaged q = (stage.checked && decide (q = p))
  cuts : ∀ message, (at' (.terminate message)).cuts p = true
  mayStart : ∀ stage, (at' stage).mayStart = false
  notStart : ∀ result lost, (back result lost).mayStart = false
  relies : ∀ s₁ stage, s.Calls s₁ p → s₁.Engaged p stage → s₁.Relies reader t (at' stage)
  back : ∀ s₁ result lost, s.Calls s₁ p →
    (∀ value, result = .ok value → s₁.Answered reader t value) →
    (lost = true → (∃ error, result = .error error ∧ error.isLost = true) ∨ s₁.child ≠ some p) →
    s₁.Relies reader t (back result lost)

namespace Around

variable {at' : ExchangeStage → HostTask ρ} {back : Except HostError ρ → Bool → HostTask ρ}
  {base : HostLock → Bool} {stage : ExchangeStage} {result : Except HostError ρ} {lost : Bool}

variable (ha : Around reader s t p at' back base) (h : s.Inv reader)
  (hat : s.tasks t = at' stage)
include ha h hat

omit ha h in
lemma begun (hbegun : at' stage ≠ .idle) : s.tasks t ≠ .idle := by rwa [hat]

/-- The exchange goes on. -/
lemma goto {stage' : ExchangeStage} (hbegun : s.tasks t ≠ .idle) (hs : s.Touches s₁ t)
    (hcalls : s.Calls s₁ p) (hlocked : stage'.locked = stage.locked)
    (hchecked : stage.checked = true → stage'.checked = true) (heng : s₁.Engaged p stage') :
    s.Section reader t (s₁.goto t (at' stage')) := by
  refine .goto h hbegun hs (fun name => ?_) ⟨ha.relies s₁ stage' hcalls heng, fun q hq => ?_, ?_⟩
  · rw [hat, ha.holds, ha.holds, hlocked]
  · rw [hat, ha.engaged, Bool.and_eq_true] at hq
    left
    rw [ha.engaged, hchecked hq.1, hq.2]
    rfl
  · rw [ha.mayStart]
    exact (nomatch ·)

/-- The exchange is over. -/
lemma leave (hbegun : s.tasks t ≠ .idle) (hs : s.Touches s₁ t) (hcalls : s.Calls s₁ p)
    (hlocked : stage.locked = true)
    (hcalm : stage.checked = true → (s₁.processes p).exited = true ∨ (s₁.processes p).Clean)
    (hown : ∀ value, result = .ok value → s₁.Answered reader t value)
    (hlost : lost = true →
      (∃ error, result = .error error ∧ error.isLost = true) ∨ s₁.child ≠ some p) :
    s.Section reader t (s₁.leave t (.request p) (back result lost)) := by
  refine .leave h hbegun hs ?_ ?_ (fun other hother => ?_)
    ⟨ha.back s₁ result lost hcalls hown hlost, fun q hq => ?_, ?_⟩
  · rw [hat, ha.holds, hlocked]
    simp
  · rw [ha.held, ha.apart]
  · rw [hat, ha.holds, ha.held]
    simp [hother]
  · rw [hat, ha.engaged, Bool.and_eq_true, decide_eq_true_eq] at hq
    rw [hq.2]
    exact .inr (hcalm hq.1)
  · rw [ha.notStart]
    exact (nomatch ·)

end Around

/-- The answer that was received is the one that was asked for. -/
lemma decodeResponse_answered {bytes : Bytes} {id : Nat} {result : ρ}
    (h : decodeResponse reader bytes id = .ok result) (hmem : (t, p, id, bytes) ∈ s.answers) :
    s.Answered reader t result := by
  obtain ⟨line, response, hutf, hresponse, hid, hok, hresult⟩ := decodeResponse_eq_ok h
  exact ⟨p, id, bytes, line, response, hmem, hutf, hresponse, hid, hok, hresult⟩

/-- Only the operation with the request lock is engaged. -/
lemma free_of_locked (h : s.Inv reader) (hheld : (s.tasks t).holds (.request p) = true)
    (hself : (s.tasks t).engaged p = false) (u : Nat) : (s.tasks u).engaged p = false := by
  by_contra hcon
  have hut : u = t :=
    h.locks.exclusive (HostTask.holds_of_engaged (Bool.eq_true_of_not_eq_false hcon)) hheld
  rw [hut, hself] at hcon
  exact hcon rfl

/-- **One section of an exchange.** -/
lemma exchangeStep_section {at' : ExchangeStage → HostTask ρ}
    {back : Except HostError ρ → Bool → HostTask ρ} {base : HostLock → Bool}
    {stage : ExchangeStage} {event : HostEvent}
    (ha : Around reader s t p at' back base) (h : s.Inv reader) (hat : s.tasks t = at' stage)
    (hbegun : s.tasks t ≠ .idle) (heng : s.Engaged p stage) :
    s.Section reader t (s.exchangeStep reader t p at' back event stage) := by
  have hsame : s.Calls s p := ⟨rfl, rfl, rfl⟩
  have hself : (s.tasks t).engaged p = stage.checked := by
    rw [hat, ha.engaged]
    simp
  have hset : ∀ process : HostProcess, process.attached = (s.processes p).attached →
      s.Calls (s.setProcess p process) p := fun process hprocess =>
    ⟨rfl, rfl, by simpa [ExtensionHost.setProcess] using hprocess⟩
  have hlost : ∀ message : String, true = true →
      (∃ error, (.error (.processLost message) : Except HostError ρ) = .error error ∧
        error.isLost = true) ∨ s.child ≠ some p := fun message _ => .inl ⟨_, rfl, rfl⟩
  cases stage with
  | lock =>
    refine .acquire h hbegun ?_ (fun other hother => ?_)
      ⟨ha.relies s .checkExited hsame ⟨trivial, (fun hno => by cases hno)⟩, fun q hq => ?_, ?_⟩
    · rw [ha.holds]
      simp [ExchangeStage.locked]
    · rw [hat, ha.holds, ha.holds]
      simp [hother]
    · rw [hat, ha.engaged] at hq
      exact absurd hq (by simp [ExchangeStage.checked])
    · rw [ha.mayStart]
      exact (fun hno => by cases hno)
  | checkExited =>
    unfold exchangeStep
    dsimp only
    split_ifs with hexit
    · exact ha.leave h hat hbegun (.refl h) hsame rfl (fun hno => by cases hno) (fun _ => (fun hno => by cases hno)) (hlost "exited")
    · -- nobody else is engaged with a process whose request lock is held
      have hheld : (s.tasks t).holds (.request p) = true := by
        rw [hat, ha.holds]
        simp [ExchangeStage.locked]
      have hclean := (h.calm p (free_of_locked h hheld hself)).resolve_left hexit
      exact ha.goto h hat hbegun (.refl h) hsame rfl (fun _ => rfl)
        ⟨hclean, fun _ herr => absurd (h.errors p herr).1 hexit⟩
  | checkContext =>
    unfold exchangeStep
    dsimp only
    split
    · exact ha.goto h hat hbegun (.refl h) hsame rfl (fun _ => rfl) ⟨trivial, heng.2⟩
    · exact ha.goto h hat hbegun (.refl h) hsame rfl (fun _ => rfl) ⟨heng.1, heng.2⟩
  | takeId =>
    have hs : s.Touches (s.setProcess p
        { s.processes p with nextId := ((s.processes p).nextId + 1) % 2 ^ 64 }) t :=
      .setProcess h ⟨id, id, id, id⟩ (.inl ⟨rfl, rfl, rfl⟩) rfl id .inl
    have hp : ((s.setProcess p { s.processes p with
        nextId := ((s.processes p).nextId + 1) % 2 ^ 64 }).processes p) =
        { s.processes p with nextId := ((s.processes p).nextId + 1) % 2 ^ 64 } := by
      simp [ExtensionHost.setProcess]
    unfold exchangeStep
    dsimp only
    split
    · refine ha.leave h hat hbegun hs (hset _ rfl) rfl (fun _ => ?_)
        (fun _ => (fun hno => by cases hno)) (fun hno => by cases hno)
      rw [hp]
      exact .inr heng.1
    · refine ha.goto h hat hbegun hs (hset _ rfl) rfl (fun _ => rfl) ?_
      rw [Engaged, hp]
      exact heng
  | write id =>
    have heng' : (s.tasks t).engaged p = true := hself
    unfold exchangeStep
    dsimp only
    split
    · exact ha.goto h hat hbegun (.refl h) hsame rfl (fun _ => rfl) ⟨trivial, heng.2⟩
    · refine ha.goto h hat hbegun (.setProcess h ⟨fun he => he, fun he => he, fun he => he,
        fun he => he⟩ (.inr heng') rfl (fun he => he) .inl) (hset _ rfl) rfl (fun _ => rfl) ?_
      rw [Engaged]
      simp only [ExtensionHost.setProcess, Function.update_self]
      exact ⟨.inl ⟨heng.1.1, .inl rfl⟩, heng.2⟩
  | wait id =>
    have heng' : (s.tasks t).engaged p = true := hself
    by_cases hevent : event = .interrupted
    · subst hevent
      have hcut : s.Engaged p (.terminate "extension request was interrupted") :=
        ⟨trivial, heng.2⟩
      exact ha.goto h hat hbegun (.refl h) hsame rfl (fun _ => rfl) hcut
    · have hfine : s.exchangeStep reader t p at' back event (.wait id) =
          s.exchangeStep reader t p at' back .fine (.wait id) := by
        cases event <;> first | rfl | exact absurd rfl hevent
      rw [hfine]
      unfold exchangeStep
      dsimp only
      have hpop : ∀ message queue, (s.processes p).queue = message :: queue →
          s.Touches (s.setProcess p { s.processes p with queue := queue }) t := by
        intro message queue hqueue
        refine .setProcess h ⟨fun he => he, fun he => he, fun he => he, fun he => he⟩
          (.inr heng') rfl (fun herr => ?_) .inl
        obtain ⟨other, hmem, hnone⟩ := herr
        exact ⟨other, hqueue ▸ List.mem_cons_of_mem _ hmem, hnone⟩
      split
      next asked bytes queue hqueue =>
        refine ha.leave h hat hbegun ((hpop _ _ hqueue).answer _)
          ⟨rfl, rfl, by simp [ExtensionHost.setProcess]⟩ rfl (fun _ => ?_)
          (fun value hvalue => decodeResponse_answered hvalue
            (List.mem_append_right _ (List.mem_singleton.2 rfl))) (fun hno => by cases hno)
        simp only [ExtensionHost.setProcess, Function.update_self]
        -- the line was the only one
        rcases heng.1 with ⟨hnone, -⟩ | ⟨other, rest, hother, hnone, howed⟩
        · exact absurd rfl (hnone (asked, .line bytes) (hqueue ▸ List.mem_cons_self) bytes)
        · rw [hqueue] at hother
          cases hother
          exact .inr ⟨hnone, howed⟩
      next asked message queue hqueue =>
        have herr : (s.processes p).HasError :=
          ⟨(asked, .readError message), hqueue ▸ List.mem_cons_self, fun bytes => (fun hno => by cases hno)⟩
        refine ha.leave h hat hbegun (hpop _ _ hqueue) (hset _ rfl) rfl (fun _ => ?_)
          (fun _ => (fun hno => by cases hno)) fun _ => .inr (heng.2 rfl herr)
        simp only [ExtensionHost.setProcess, Function.update_self]
        exact .inl (h.errors p herr).1
      next hqueue =>
        split_ifs with hclosed
        · refine ha.leave h hat hbegun (.refl h) hsame rfl (fun _ => .inr ⟨?_, .inr hclosed⟩)
            (fun _ => (fun hno => by cases hno)) (hlost "EOF from Node host")
          rw [hqueue]
          exact fun message hmem => absurd hmem (by simp)
        · exact .stay
  | terminate message =>
    have hcuts : (s.tasks t).cuts p = true := by rw [hat, ha.cuts]
    refine ha.leave h hat hbegun (.terminate h (.inr hcuts)) (hset _ rfl) rfl (fun _ => .inl ?_)
      (fun _ => (fun hno => by cases hno)) (hlost message)
    simp [ExtensionHost.setProcess, HostProcess.terminate]

/-! ### What follows an operation -/

section Settle

variable {goal : HostGoal} {result : Except HostError (Option ρ)} {lost : Option Nat}

@[simp] lemma settle_holds (name : HostLock) : (goal.settle result lost).holds name = false := by
  cases goal <;> rfl

@[simp] lemma settle_mayStart : (goal.settle result lost).mayStart = false := by
  cases goal <;> rfl

@[simp] lemma started_holds (name : HostLock) :
    (goal.started : HostTask ρ).holds name = false := by
  cases goal <;> rfl

lemma settle_relies (hlost : ∀ p, lost = some p →
      (s.processes p).attached = true ∧ s.child ≠ some p)
    (hown : ∀ value, result = .ok (some value) → s.Answered reader t value) :
    s.Relies reader t (goal.settle result lost) := by
  cases goal with
  | start | request => exact ⟨hlost, hown⟩
  | shutdown => exact hown

lemma started_relies : s.Relies reader t (goal.started : HostTask ρ) := by
  cases goal with
  | start => exact ⟨fun _ => (nomatch ·), fun _ => (nomatch ·)⟩
  | request | shutdown => trivial

end Settle

/-! ### Starts -/

section Starting

variable {goal : HostGoal} {stage stage' : StartStage} {task : HostTask ρ} {event : HostEvent}

lemma starting_holds (name : HostLock) : (HostTask.starting goal stage : HostTask ρ).holds name =
    (stage.locked && decide (name = .start)) := rfl

variable (h : s.Inv reader) (hat : s.tasks t = .starting goal stage) (hs : s.Touches s₁ t)
include h hat

omit h in
/-- A start is never engaged with a process. -/
lemma starting_passes (hrelies : s₁.Relies reader t task) : s.Passes reader s₁ t task :=
  ⟨hrelies, fun q hq => absurd hq (by simp [hat, HostTask.engaged]),
    fun _ => by rw [hat]; rfl⟩

include hs in
/-- A start goes on. -/
lemma starting_goto (hlocked : stage'.locked = stage.locked)
    (hrelies : s₁.Relies reader t (.starting goal stage')) :
    s.Section reader t (s₁.goto t (.starting goal stage')) := by
  refine .goto h (by simp [hat]) hs (fun name => ?_) (starting_passes hat hrelies)
  rw [hat, starting_holds, starting_holds, hlocked]

include hs in
/-- A start is over. -/
lemma starting_leave (hlocked : stage.locked = true) (hheld : ∀ name, task.holds name = false)
    (hrelies : s₁.Relies reader t task) : s.Section reader t (s₁.leave t .start task) := by
  refine .leave h (by simp [hat]) hs ?_ (hheld _) (fun other hother => ?_)
    (starting_passes hat hrelies)
  · rw [hat, starting_holds, hlocked]
    rfl
  · rw [hheld, hat, starting_holds]
    simp [hother]

/-- **One section of a start.** -/
lemma startStep_section : s.Section reader t (s.startStep t goal event stage) := by
  have hold := h.relies t
  rw [hat] at hold
  obtain ⟨hway, hattach⟩ := hold
  have hmay : (s.tasks t).mayStart = true := by
    rw [hat]
    rfl
  have hfail : ∀ (s₁ : ExtensionHost ρ) (error : HostError),
      s₁.Relies reader t (goal.settle (.error error) none) := fun s₁ error =>
    settle_relies (fun _ hnone => by cases hnone) (fun _ hok => by cases hok)
  have hheld : stage.locked = true → (s.tasks t).holds .start = true := fun hlocked => by
    rw [hat, starting_holds, hlocked]
    rfl
  unfold startStep
  dsimp only
  cases stage with
  | lock =>
    refine .acquire h (by simp [hat]) rfl (fun other hother => ?_)
      (starting_passes hat ⟨(fun hno => by cases hno), fun _ => (fun hno => by cases hno)⟩)
    rw [hat, starting_holds, starting_holds]
    simp [hother]
  | readStatus =>
    dsimp only
    split_ifs with hready hmod
    · exact starting_leave h hat (.refl h) rfl (started_holds (ρ := ρ)) started_relies
    · exact starting_goto h hat (.refl h) rfl ⟨fun _ => hready, fun _ => (fun hno => by cases hno)⟩
    · exact starting_leave h hat (.readyWithout h (by simpa using hmod) (hheld rfl) hmay) rfl
        (started_holds (ρ := ρ)) started_relies
  | validate =>
    dsimp only
    split
    · exact starting_goto h hat (.refl h) rfl ⟨fun _ => hway rfl, fun _ => (fun hno => by cases hno)⟩
    · exact starting_goto h hat (.refl h) rfl ⟨fun _ => hway rfl, fun _ => (fun hno => by cases hno)⟩
  | markInvalid error =>
    exact starting_leave h hat (.mark h (fun hno => by cases hno)) rfl settle_holds (hfail _ error)
  | markStarting =>
    exact starting_goto h hat (.mark h (fun hno => by cases hno)) rfl
      ⟨fun _ => (fun hno => by cases hno), fun _ => (fun hno => by cases hno)⟩
  | checkContext =>
    dsimp only
    split
    · exact starting_goto h hat (.refl h) rfl ⟨fun _ => hway rfl, fun _ => (fun hno => by cases hno)⟩
    · exact starting_goto h hat (.refl h) rfl ⟨fun _ => hway rfl, fun _ => (fun hno => by cases hno)⟩
  | stopSelf =>
    dsimp only
    split
    · exact starting_goto h hat (.detach h (fun hno => by cases hno)) rfl
        ⟨fun _ => (fun hno => by cases hno), fun _ => (fun hno => by cases hno)⟩
    · exact starting_goto h hat (.detach h (fun hno => by cases hno)) rfl
        ⟨fun _ => (fun hno => by cases hno), fun _ => (fun hno => by cases hno)⟩
  | terminate p =>
    exact starting_goto h hat (.terminate h (.inl (hway rfl))) rfl
      ⟨fun _ => hway rfl, fun _ => (fun hno => by cases hno)⟩
  | interrupted => exact starting_leave h hat (.refl h) rfl settle_holds (hfail _ _)
  | urls =>
    dsimp only
    split
    · exact starting_leave h hat (.refl h) rfl settle_holds (hfail _ _)
    · exact starting_goto h hat (.refl h) rfl ⟨fun _ => hway rfl, fun _ => (fun hno => by cases hno)⟩
  | spawn =>
    dsimp only
    split
    · exact starting_goto h hat (.refl h) rfl ⟨fun _ => hway rfl, fun _ => (fun hno => by cases hno)⟩
    · refine starting_goto h hat (.spawn h) rfl ⟨fun _ => hway rfl, fun p hp => ?_⟩
      cases hp
      exact ⟨Nat.lt_succ_self _, h.unspawned _ le_rfl⟩
  | markUnspawned error =>
    exact starting_leave h hat (.mark h (fun hno => by cases hno)) rfl settle_holds (hfail _ error)
  | attach p =>
    obtain ⟨hlt, hfresh⟩ := hattach p rfl
    refine .goto h (by simp [hat]) (.attach h (hheld rfl) hmay (hway rfl) hlt hfresh)
      (fun name => ?_) (starting_passes hat ⟨hway rfl, ?_, .inr rfl, trivial, (fun hno => by cases hno)⟩)
    · rw [hat, starting_holds]
      simp [HostTask.holds, StartStage.locked, ExchangeStage.locked]
    · simp [ExtensionHost.setProcess]

end Starting

/-! ### Operations -/

/-- The load of a start. -/
lemma around_loading {goal : HostGoal} {stage : ExchangeStage} (h : s.Inv reader)
    (hat : s.tasks t = .loading goal p stage) :
    Around reader s t p (.loading goal p) (fun result _ => .finish goal p result)
      (fun name => decide (name = .start)) where
  apart := rfl
  holds _ _ := rfl
  held _ _ _ := rfl
  engaged _ _ := rfl
  cuts _ := by simp [HostTask.cuts]
  mayStart _ := rfl
  notStart _ _ := rfl
  relies s₁ stage' hcalls heng := by
    have hold := h.relies t
    rw [hat] at hold
    obtain ⟨hr, hatt, hchild, -⟩ := hold
    exact ⟨by rwa [hcalls.status], hcalls.attached.trans hatt, by rwa [hcalls.child], heng⟩
  back s₁ result lost hcalls _ _ := by
    have hold := h.relies t
    rw [hat] at hold
    obtain ⟨hr, hatt, hchild, -⟩ := hold
    exact ⟨by rwa [hcalls.status], hcalls.attached.trans hatt, by rwa [hcalls.child]⟩

/-- A request on its own. -/
lemma around_requesting {goal : HostGoal} {stage : ExchangeStage} (h : s.Inv reader)
    (hat : s.tasks t = .requesting goal p stage) :
    Around reader s t p (.requesting goal p) (afterExchange goal p) (fun _ => false) where
  apart := rfl
  holds stage name := by rw [Bool.false_or]; rfl
  held result lost name := by
    unfold afterExchange
    split
    · exact settle_holds name
    · split_ifs
      · rfl
      · exact settle_holds name
      · exact settle_holds name
  engaged _ _ := rfl
  cuts _ := by simp [HostTask.cuts]
  mayStart _ := rfl
  notStart result lost := by
    unfold afterExchange
    split
    · exact settle_mayStart
    · split_ifs
      · rfl
      · exact settle_mayStart
      · exact settle_mayStart
  relies s₁ stage' hcalls heng := by
    have hold := h.relies t
    rw [hat] at hold
    exact ⟨hcalls.attached.trans hold.1, heng⟩
  back s₁ result lost hcalls hown hlost := by
    have hold := h.relies t
    rw [hat] at hold
    have hatt := hcalls.attached.trans hold.1
    unfold afterExchange
    split
    next value =>
      refine settle_relies (fun _ hnone => nomatch hnone) fun other hother => ?_
      cases hother
      exact hown value rfl
    next error =>
      by_cases hisLost : error.isLost = true
      · rw [if_pos hisLost]
        exact hatt
      · rw [if_neg hisLost]
        refine settle_relies (fun q hq => ?_) (fun _ hok => nomatch hok)
        split_ifs at hq with hl
        cases hq
        rcases hlost hl with ⟨other, hother, hisLost'⟩ | hne
        · cases hother
          exact absurd hisLost' hisLost
        · exact ⟨hatt, hne⟩

/-- The end of a start. -/
lemma finishStep_section {goal : HostGoal} {result : Except HostError ρ} (h : s.Inv reader)
    (hat : s.tasks t = .finish goal p result)
    (hclear : ∀ value, result = .ok value → s.child = some p ∧ (s.processes p).terminated = false) :
    s.Section reader t (s.finishStep t goal p result) := by
  have hheld : (s.tasks t).holds .start = true := by
    rw [hat]
    rfl
  have hold := h.relies t
  rw [hat] at hold
  have hleave : ∀ (s₁ : ExtensionHost ρ) (task : HostTask ρ), s.Touches s₁ t →
      (∀ name, task.holds name = false) → task.mayStart = false → s₁.Relies reader t task →
      s.Section reader t (s₁.leave t .start task) := by
    intro s₁ task hs hfree hmay hrelies
    refine .leave h (by simp [hat]) hs hheld (hfree _) (fun other hother => ?_)
      ⟨hrelies, fun q hq => absurd hq (by simp [hat, HostTask.engaged]), by simp [hmay]⟩
    rw [hfree, hat]
    simp [HostTask.holds, hother]
  cases result with
  | ok value =>
    obtain ⟨hchild, hterm⟩ := hclear value rfl
    exact hleave _ _ (.load h hheld hchild hterm) started_holds (by cases goal <;> rfl)
      started_relies
  | error error =>
    refine hleave _ _ (.detach h (fun hno => by cases hno)) settle_holds settle_mayStart
      (settle_relies (fun q hq => ?_) (fun _ hok => by cases hok))
    cases hq
    exact ⟨hold.2.1, (fun hno => by cases hno)⟩

/-- **Every operation goes on section by section.** -/
theorem taskStep_section {event : HostEvent} (h : s.Inv reader) (hclear : s.Clear (.go t event)) :
    s.Section reader t (s.taskStep reader t event) := by
  have hold := h.relies t
  unfold taskStep
  cases hat : s.tasks t with
  | idle => exact .stay
  | done result lost => exact .stay
  | shutdownCheck =>
    have hgo : ∀ task : HostTask ρ, (∀ name, task.holds name = false) → s.Relies reader t task →
        s.Section reader t (s.goto t task) := by
      intro task hfree hrelies
      refine .goto h (by simp [hat]) (.refl h) (fun name => ?_)
        ⟨hrelies, fun q hq => absurd hq (by simp [hat, HostTask.engaged]), fun _ => by rw [hat]; rfl⟩
      rw [hfree, hat]
      rfl
    dsimp only
    split_ifs
    · exact hgo _ (fun _ => rfl) trivial
    · exact hgo _ (fun _ => rfl) fun _ hok => by cases hok
  | checkModules goal =>
    have hgo : ∀ task : HostTask ρ, (∀ name, task.holds name = false) → s.Relies reader t task →
        s.Section reader t (s.goto t task) := by
      intro task hfree hrelies
      refine .goto h (by simp [hat]) (.refl h) (fun name => ?_)
        ⟨hrelies, fun q hq => absurd hq (by simp [hat, HostTask.engaged]), fun _ => by rw [hat]; rfl⟩
      rw [hfree, hat]
      rfl
    dsimp only
    split_ifs
    · exact hgo _ (fun _ => rfl) ⟨(fun hno => by cases hno), fun _ => (fun hno => by cases hno)⟩
    · exact hgo _ settle_holds
        (settle_relies (fun _ hnone => by cases hnone) (fun _ hok => by cases hok))
  | starting goal stage => exact startStep_section h hat
  | loading goal p stage =>
    rw [hat] at hold
    exact exchangeStep_section (around_loading h hat) h hat (by simp [hat]) hold.2.2.2
  | finish goal p result =>
    refine finishStep_section h hat fun value hvalue => ?_
    subst hvalue
    simpa only [Clear, hat] using hclear
  | readChild goal =>
    dsimp only
    split
    next p hchild =>
      refine .goto h (by simp [hat]) (.refl h) (fun name => ?_)
        ⟨⟨h.attached p hchild, trivial, (fun hno => by cases hno)⟩,
          fun q hq => absurd hq (by simp [hat, HostTask.engaged]), (fun hno => by cases hno)⟩
      rw [hat]
      rfl
    next =>
      refine .goto h (by simp [hat]) (.refl h) (fun name => ?_)
        ⟨settle_relies (fun _ hnone => by cases hnone) (fun _ hok => by cases hok),
          fun q hq => absurd hq (by simp [hat, HostTask.engaged]), by simp⟩
      rw [settle_holds, hat]
      rfl
  | requesting goal p stage =>
    rw [hat] at hold
    exact exchangeStep_section (around_requesting h hat) h hat (by simp [hat]) hold.2
  | markLost goal p error =>
    rw [hat] at hold
    refine .goto h (by simp [hat]) (.detach h (fun hno => by cases hno)) (fun name => ?_)
      ⟨settle_relies (fun q hq => ?_) (fun _ hok => by cases hok),
        fun q hq => absurd hq (by simp [hat, HostTask.engaged]), by simp⟩
    · rw [settle_holds, hat]
      rfl
    · cases hq
      exact ⟨hold, (fun hno => by cases hno)⟩
  | stopping result =>
    rw [hat] at hold
    have hquiet : ∀ u, (s.tasks u).mayStart = false := by
      intro u
      by_cases hu : u ∈ s.begun
      · simp only [Clear, hat] at hclear
        exact hclear u hu
      · rw [h.known u hu]
        rfl
    dsimp only
    split
    · refine .goto h (by simp [hat]) (.halt h s.stopped hquiet) (fun name => ?_)
        ⟨⟨rfl, hold⟩, fun q hq => absurd hq (by simp [hat, HostTask.engaged]), (fun hno => by cases hno)⟩
      rw [hat]
      rfl
    · refine .goto h (by simp [hat]) (.halt h true hquiet) (fun name => ?_)
        ⟨⟨fun _ hnone => (by cases hnone), hold⟩,
          fun q hq => absurd hq (by simp [hat, HostTask.engaged]), (fun hno => by cases hno)⟩
      rw [hat]
      rfl
  | terminating p result =>
    rw [hat] at hold
    refine .goto h (by simp [hat])
      ((Touches.terminate h (.inl (h.halted hold.1).2.1)).stop hold.1) (fun name => ?_)
      ⟨⟨fun _ hnone => (by cases hnone), hold.2⟩,
        fun q hq => absurd hq (by simp [hat, HostTask.engaged]), (fun hno => by cases hno)⟩
    rw [hat]
    rfl

end ExtensionHost

end Rupi
