import Rupi.Extension.HostTasks

/-!
Runs of the extension host.

- `Inv.step`: every step keeps the invariant, where `Clear` holds.
- `host_safe_of_clear`: what holds in every state and of every step of such a run.
- `stop_and_loss_go_wrong`: what happens in other runs.
-/

namespace Rupi

open Run Locks

variable {ρ : Type}

namespace HostProcess

/-- What the reader thread or the end of a process changes. -/
structure Reacts (process process' : HostProcess) : Prop where
  follows : process.Follows process'
  attached : process'.attached = process.attached
  calm : process.Clean → process'.exited = true ∨ process'.Clean
  errors : process'.HasError → process'.exited = true ∧ process'.closed = true

/-- An error closes the output, so before it there is none. -/
lemma noLine_nil {process : HostProcess}
    (h : process.HasError → process.exited = true ∧ process.closed = true)
    (hopen : process.closed = false) (hnone : ∀ message ∈ process.queue, noLine message) :
    process.queue = [] := by
  cases hqueue : process.queue with
  | nil => rfl
  | cons message rest =>
    have hmem : message ∈ process.queue := hqueue ▸ List.mem_cons_self
    rw [(h ⟨message, hmem, hnone message hmem⟩).2] at hopen
    exact absurd hopen (by simp)

end HostProcess

namespace ExtensionHost

variable {reader : RpcReader ρ} {s : ExtensionHost ρ} {t p : Nat}

/-! ### Processes -/

/-- A process reacts. -/
lemma Inv.react {process : HostProcess} (h : s.Inv reader)
    (hreact : (s.processes p).Reacts process)
    (hexchange : ∀ stage, (s.processes p).Exchanging stage → process.Exchanging stage)
    (hchild : process.HasError → (s.processes p).HasError ∨ s.child ≠ some p) :
    (s.setProcess p process).Inv reader := by
  have hengaged : ∀ q stage, s.Engaged q stage → (s.setProcess p process).Engaged q stage := by
    intro q stage heng
    by_cases hq : q = p
    · subst hq
      simp only [Engaged, ExtensionHost.setProcess, Function.update_self]
      exact ⟨hexchange stage heng.1, fun hc herr => (hchild herr).elim (heng.2 hc) id⟩
    · simpa only [Engaged, ExtensionHost.setProcess, Function.update_of_ne hq] using heng
  have hattached : ∀ q, ((s.setProcess p process).processes q).attached =
      (s.processes q).attached := by
    intro q
    by_cases hq : q = p
    · subst hq
      simpa [ExtensionHost.setProcess] using hreact.attached
    · simp [ExtensionHost.setProcess, Function.update_of_ne hq]
  have hother : ∀ q, q ≠ p → (s.setProcess p process).processes q = s.processes q := fun q hq => by
    simp [ExtensionHost.setProcess, Function.update_of_ne hq]
  have hself : (s.setProcess p process).processes p = process := by
    simp [ExtensionHost.setProcess]
  refine ⟨h.locks, fun u => ?_, fun q hfree => ?_, fun q herr => ?_, fun hready hmod => ?_,
    fun q hq => (hattached q).trans (h.attached q hq),
    fun q hq => (hattached q).trans (h.unspawned q hq), h.known, h.halted, h.stopped⟩
  · have hold := h.relies u
    change (s.setProcess p process).Relies reader u (s.tasks u)
    cases htask : s.tasks u with
    | starting goal stage =>
      rw [htask] at hold
      exact ⟨hold.1, fun q hq => ⟨(hold.2 q hq).1, (hattached q).trans (hold.2 q hq).2⟩⟩
    | loading goal q stage =>
      rw [htask] at hold
      exact ⟨hold.1, (hattached q).trans hold.2.1, hold.2.2.1, hengaged q stage hold.2.2.2⟩
    | finish goal q result =>
      rw [htask] at hold
      exact ⟨hold.1, (hattached q).trans hold.2.1, hold.2.2⟩
    | requesting goal q stage =>
      rw [htask] at hold
      exact ⟨(hattached q).trans hold.1, hengaged q stage hold.2⟩
    | markLost goal q error =>
      rw [htask] at hold
      exact (hattached q).trans hold
    | stopping result => rwa [htask] at hold
    | terminating q result => rwa [htask] at hold
    | done result lost =>
      rw [htask] at hold
      exact ⟨fun q hq => ⟨(hattached q).trans (hold.1 q hq).1, (hold.1 q hq).2⟩, hold.2⟩
    | idle | shutdownCheck | checkModules | readChild => trivial
  · by_cases hq : q = p
    · subst hq
      rw [hself]
      exact (h.calm q hfree).elim (fun hexit => .inl (hreact.follows.exited hexit)) hreact.calm
    · rw [hother q hq]
      exact h.calm q hfree
  · by_cases hq : q = p
    · subst hq
      rw [hself] at herr ⊢
      exact hreact.errors herr
    · rw [hother q hq] at herr ⊢
      exact h.errors q herr
  · obtain ⟨q, hq, hload⟩ := h.ready hready hmod
    refine ⟨q, hq, ?_⟩
    by_cases hqp : q = p
    · subst hqp
      rw [hself]
      exact hreact.follows.loaded hload
    · rwa [hother q hqp]

/-- The process of the line is owed one. -/
lemma Inv.line {bytes : Bytes} (h : s.Inv reader) (hopen : (s.processes p).closed = false)
    (howed : (s.processes p).owed ≠ none) : (s.receive p (.line bytes)).Inv reader := by
  have hnot : ¬ ((s.processes p).owed = none ∨ (s.processes p).closed = true) := by
    simp [howed, hopen]
  have herrors : ({ s.processes p with
      queue := (s.processes p).queue ++ [((s.processes p).owed, .line bytes)],
      owed := none } : HostProcess).HasError → (s.processes p).HasError := by
    rintro ⟨message, hmem, hnone⟩
    rcases List.mem_append.1 hmem with hold | hnew
    · exact ⟨message, hold, hnone⟩
    · cases List.mem_singleton.1 hnew
      exact absurd rfl (hnone bytes)
  refine h.react ⟨⟨id, id, id, id⟩, rfl, fun hclean => absurd hclean.2 hnot,
    fun herr => h.errors p (herrors herr)⟩ (fun stage hstage => ?_) fun herr => .inl (herrors herr)
  cases stage with
  | checkContext | takeId | write => exact absurd hstage.2 hnot
  | wait id =>
    rcases hstage with ⟨hnone, hid | hclosed⟩ | ⟨_, _, _, _, howed'⟩
    · right
      refine ⟨bytes, [], ?_, by simp, .inl rfl⟩
      simp [HostProcess.noLine_nil (h.errors p) hopen hnone, hid]
    · rw [hopen] at hclosed
      exact absurd hclosed (by simp)
    · exact absurd howed' hnot
  | lock | checkExited | terminate => trivial

/-- The process of the overlong line is not that of the host. -/
lemma Inv.overflow {message : String} (h : s.Inv reader) (hchild : s.child ≠ some p) :
    ((s.setProcess p { (s.processes p).terminate with closed := true }).receive p
      (.readError message)).Inv reader := by
  have hset : (s.setProcess p { (s.processes p).terminate with closed := true }).receive p
      (.readError message) = s.setProcess p { (s.processes p).terminate with
        closed := true
        queue := (s.processes p).queue ++ [((s.processes p).owed, .readError message)]
        owed := none } := by
    simp [receive, ExtensionHost.setProcess, HostProcess.terminate]
  rw [hset]
  have hnone : ∀ queue : List (Option Nat × HostMessage),
      (∀ other ∈ queue, HostProcess.noLine other) → ∀ asked : Option Nat,
      ∀ other ∈ queue ++ [(asked, .readError message)], HostProcess.noLine other := by
    intro queue hqueue asked other hmem
    rcases List.mem_append.1 hmem with hold | hnew
    · exact hqueue other hold
    · cases List.mem_singleton.1 hnew
      exact fun _ => (fun hno => by cases hno)
  refine h.react ⟨⟨fun _ => rfl, fun _ => rfl, id, id⟩, rfl, fun _ => .inl rfl,
    fun _ => ⟨rfl, rfl⟩⟩ (fun stage hstage => ?_) fun _ => .inr hchild
  cases stage with
  | checkContext | takeId | write => exact ⟨hnone _ hstage.1 _, .inl rfl⟩
  | wait id =>
    rcases hstage with ⟨hempty, -⟩ | ⟨bytes, rest, hqueue, hrest, -⟩
    · exact .inl ⟨hnone _ hempty _, .inr rfl⟩
    · right
      refine ⟨bytes, rest ++ [((s.processes p).owed, .readError message)], ?_,
        hnone rest hrest _, .inl rfl⟩
      simp [hqueue]
  | lock | checkExited | terminate => trivial

/-- The output ends. -/
lemma Inv.endOfOutput (h : s.Inv reader) :
    (s.setProcess p { s.processes p with closed := true }).Inv reader := by
  refine h.react ⟨⟨id, fun _ => rfl, id, id⟩, rfl, fun hclean => .inr ⟨hclean.1, .inr rfl⟩,
    fun herr => ⟨(h.errors p herr).1, rfl⟩⟩ (fun stage hstage => ?_) .inl
  cases stage with
  | checkContext | takeId | write => exact ⟨hstage.1, .inr rfl⟩
  | wait id =>
    rcases hstage with ⟨hnone, -⟩ | ⟨bytes, rest, hqueue, hrest, -⟩
    · exact .inl ⟨hnone, .inr rfl⟩
    · exact .inr ⟨bytes, rest, hqueue, hrest, .inr rfl⟩
  | lock | checkExited | terminate => trivial

/-- The process ends. -/
lemma Inv.exit (h : s.Inv reader) :
    (s.setProcess p { s.processes p with exited := true }).Inv reader :=
  h.react ⟨⟨fun _ => rfl, id, id, id⟩, rfl, fun _ => .inl rfl,
    fun herr => ⟨rfl, (h.errors p herr).2⟩⟩
    (fun _ hstage => HostProcess.Same.exchanging ⟨rfl, rfl, rfl⟩ hstage) .inl

/-! ### Begins -/

/-- An operation begins; while a stop is between its sections, only another stop may. -/
lemma Inv.begin (h : s.Inv reader) (task : HostTask ρ) (mayStart : Bool)
    (hfree : ∀ name, task.holds name = false) (hrelies : ∀ s₁ : ExtensionHost ρ,
      s₁.Relies reader t task) (hmay : task.mayStart = true → mayStart = true)
    (hclear : mayStart = true → ∀ u ∈ s.begun, (s.tasks u).stops = false) :
    (s.beginTask t task mayStart).Inv reader := by
  unfold beginTask
  split
  next hidle =>
    have hengaged : ∀ q, (s.tasks t).engaged q = false := fun q => by rw [hidle]; rfl
    refine ⟨h.locks.keep fun name => ?_, fun u => ?_, fun q hq => h.calm q fun u => ?_, h.errors,
      h.ready, h.attached, h.unspawned, fun u hu => ?_, fun hhalt => ?_, fun hstop => ?_⟩
    · rw [hfree, hidle]
      rfl
    · by_cases hu : u = t
      · subst hu
        simp only [goto, Function.update_self]
        exact hrelies _
      · simp only [goto, Function.update_of_ne hu]
        have hold := h.relies u
        cases htask : s.tasks u with
        | terminating q result =>
          rw [htask] at hold
          refine ⟨?_, hold.2⟩
          cases mayStart with
          | false =>
            rw [hold.1]
            rfl
          | true =>
            have hmem : u ∈ s.begun := by
              by_contra hcon
              rw [h.known u hcon] at htask
              cases htask
            have hstops := hclear rfl u hmem
            rw [htask] at hstops
            cases hstops
        | _ =>
          rw [htask] at hold
          exact hold
    · by_cases hu : u = t
      · rw [hu]
        exact hengaged q
      · have hother := hq u
        simpa only [goto, Function.update_of_ne hu] using hother
    · have hne : u ≠ t := by
        rintro rfl
        exact hu (List.mem_append_right _ (List.mem_singleton.2 rfl))
      simp only [goto, Function.update_of_ne hne]
      exact h.known u fun hmem => hu (List.mem_append_left _ hmem)
    · simp only [goto, Bool.and_eq_true, Bool.not_eq_true'] at hhalt
      obtain ⟨hchild, hstatus, hnone⟩ := h.halted hhalt.1
      refine ⟨hchild, hstatus, fun u => ?_⟩
      by_cases hu : u = t
      · subst hu
        simp only [goto, Function.update_self]
        by_contra hcon
        rw [hmay (by simpa using hcon)] at hhalt
        exact absurd hhalt.2 (by simp)
      · simp only [goto, Function.update_of_ne hu]
        exact hnone u
    · simp only [goto, Bool.and_eq_true] at hstop ⊢
      exact ⟨h.stopped hstop.1, hstop.2⟩
  next => exact h

/-! ### Runs -/

/-- **Every step keeps the invariant.** -/
theorem Inv.step {input : HostInput} (h : s.Inv reader) (hclear : s.Clear input) :
    (s.step reader input).Inv reader := by
  cases input with
  | start t =>
    exact h.begin (.starting .start .lock) true (fun _ => rfl)
      (fun _ => ⟨(nomatch ·), fun _ => (nomatch ·)⟩) (fun _ => rfl) fun _ => hclear
  | stop t =>
    exact h.begin (.stopping (.ok none)) false (fun _ => rfl) (fun _ _ hok => nomatch hok)
      (nomatch ·) (nomatch ·)
  | shutdown t =>
    exact h.begin .shutdownCheck true (fun _ => rfl) (fun _ => trivial) (fun _ => rfl)
      fun _ => hclear
  | request t =>
    exact h.begin (.checkModules .request) true (fun _ => rfl) (fun _ => trivial) (fun _ => rfl)
      fun _ => hclear
  | go t event => exact (taskStep_section h hclear).inv h
  | line p bytes =>
    unfold ExtensionHost.step
    dsimp only
    split_ifs with hopen
    · exact h.line hopen.2 hclear
    · exact h
  | overflow p message =>
    unfold ExtensionHost.step
    dsimp only
    split_ifs with hopen
    · exact h.overflow hclear
    · exact h
  | endOfOutput p =>
    unfold ExtensionHost.step
    dsimp only
    split_ifs
    · exact h.endOfOutput
    · exact h
  | exit p =>
    unfold ExtensionHost.step
    dsimp only
    split_ifs
    · exact h.exit
    · exact h

lemma inv_new (reader : RpcReader ρ) (modules : Bool) :
    (ExtensionHost.new modules : ExtensionHost ρ).Inv reader where
  locks name t := by simp [ExtensionHost.new, HostTask.holds]
  relies t := trivial
  calm p _ := .inr ⟨fun message hmem => absurd hmem (by simp [ExtensionHost.new, HostProcess.fresh]),
    .inl rfl⟩
  errors p := by
    rintro ⟨message, hmem, -⟩
    exact absurd hmem (by simp [ExtensionHost.new, HostProcess.fresh])
  ready hready := nomatch hready
  attached p hp := nomatch hp
  unspawned p _ := rfl
  known t _ := rfl
  halted hhalt := nomatch hhalt
  stopped hstop := nomatch hstop

/-- What the invariant says about a state. -/
lemma Inv.safe (h : s.Inv reader) : s.Safe reader where
  own t result lost htask := by
    have hold := h.relies t
    rw [htask] at hold
    exact hold.2 result rfl
  ready := h.ready
  stopped hstop := ⟨(h.halted (h.stopped hstop)).1, (h.halted (h.stopped hstop)).2.1⟩
  ordered t p id asked bytes rest hwait hqueue := by
    have hawait : (s.processes p).Awaiting id := by
      have hold := h.relies t
      obtain ⟨goal, htask | htask⟩ := hwait
      · rw [htask] at hold
        exact hold.2.2.2.1
      · rw [htask] at hold
        exact hold.2.1
    rcases hawait with ⟨hnone, -⟩ | ⟨other, rest', hother, -⟩
    · exact absurd rfl (hnone (asked, .line bytes) (hqueue ▸ List.mem_cons_self) bytes)
    · rw [hqueue] at hother
      cases hother
      rfl
  fresh t result p htask := by
    have hold := h.relies t
    rw [htask] at hold
    exact (hold.1 p rfl).2

/-- What the invariant says about a step. -/
lemma Inv.fair {input : HostInput} (h : s.Inv reader) (hclear : s.Clear input) : s.Fair input := by
  cases input with
  | go t event =>
    have hold := h.relies t
    cases htask : s.tasks t with
    | markLost goal p error => simpa only [Fair, Clear, htask] using hclear
    | finish goal p result =>
      rw [htask] at hold
      cases result with
      | ok value => simp only [Fair, htask]
      | error error =>
        simp only [Fair, htask]
        exact hold.2.2.symm
    | _ => simp only [Fair, htask]
  | _ => trivial

/-- The process of a ready host lives on. -/
lemma Live.step {input : HostInput} (hlive : s.Live) (h : s.Inv reader) (hclear : s.Clear input)
    (huncut : s.Uncut input) : (s.step reader input).Live := by
  have hbegin : ∀ t (task : HostTask ρ) mayStart, (s.beginTask t task mayStart).Live := by
    intro t task mayStart
    unfold beginTask
    split
    · exact hlive
    · exact hlive
  have hset : ∀ p (process : HostProcess), (s.child = some p →
      process.terminated = (s.processes p).terminated) → (s.setProcess p process).Live := by
    intro p process hterm hready hmod q hq
    by_cases hqp : q = p
    · subst hqp
      simpa [ExtensionHost.setProcess, hterm hq] using hlive hready hmod q hq
    · simpa [ExtensionHost.setProcess, Function.update_of_ne hqp] using hlive hready hmod q hq
  cases input with
  | start t => exact hbegin _ _ _
  | stop t => exact hbegin _ _ _
  | shutdown t => exact hbegin _ _ _
  | request t => exact hbegin _ _ _
  | go t event => exact (taskStep_section h hclear).live hlive huncut
  | line p bytes =>
    unfold ExtensionHost.step
    dsimp only
    split_ifs
    · exact hset _ _ fun _ => rfl
    · exact hlive
  | overflow p message =>
    unfold ExtensionHost.step
    dsimp only
    split_ifs
    · intro hready hmod q hq
      have hqp : q ≠ p := by
        rintro rfl
        exact hclear hq
      simpa [receive, ExtensionHost.setProcess, Function.update_of_ne hqp] using hlive hready hmod q hq
    · exact hlive
  | endOfOutput p =>
    unfold ExtensionHost.step
    dsimp only
    split_ifs
    · exact hset _ _ fun _ => rfl
    · exact hlive
  | exit p =>
    unfold ExtensionHost.step
    dsimp only
    split_ifs
    · exact hset _ _ fun _ => rfl
    · exact hlive

/-- **Neither stuck nor mixed up**: in every run without the races and the lines that the host is
not made for, every state is `Safe` and every step `Fair`; where no request cuts off a ready host,
its process also lives. -/
theorem host_safe_of_clear (reader : RpcReader ρ) (modules : Bool) (inputs : List HostInput)
    (hclear : Along (ExtensionHost.step reader) Clear (.new modules) inputs) :
    (run (ExtensionHost.step reader) (.new modules) inputs).Safe reader ∧
      Along (ExtensionHost.step reader) Fair (.new modules) inputs ∧
      (Along (ExtensionHost.step reader) Uncut (.new modules) inputs →
        (run (ExtensionHost.step reader) (.new modules) inputs).Live) := by
  have hnew := inv_new (ρ := ρ) reader modules
  have hinv : (run (ExtensionHost.step reader) (.new modules) inputs).Inv reader :=
    hclear.invariant (fun _ _ h hc => h.step hc) hnew
  refine ⟨hinv.safe, hclear.strengthen (fun _ _ h hc => ⟨h.step hc, h.fair hc⟩) hnew, fun huncut => ?_⟩
  have hstep : ∀ (s : ExtensionHost ρ) input, s.Inv reader ∧ s.Live →
      s.Clear input ∧ s.Uncut input →
        (s.step reader input).Inv reader ∧ (s.step reader input).Live := fun s input h hc =>
    ⟨h.1.step hc.1, h.2.step h.1 hc.1 hc.2⟩
  exact ((hclear.and huncut).invariant hstep ⟨hnew, (nomatch ·)⟩).2

/-! ### Runs of a host -/

instance (s : ExtensionHost ρ) (input : HostInput) : Decidable (s.Clear input) := by
  unfold Clear
  split
  all_goals try infer_instance
  split <;> infer_instance

/-- The responses to a load and to a request. -/
def loadResponse : String := "\x7b\"id\":1,\"ok\":true,\"result\":\x7b\x7d\x7d"

def callResponse : String := "\x7b\"id\":2,\"ok\":true,\"result\":\x7b\x7d\x7d"

/-- A reader that knows two texts. -/
def twoReader : RpcReader Value where
  response line :=
    if line = loadResponse then .ok ⟨1, true, some (.object []), none⟩
    else if line = callResponse then .ok ⟨2, true, some (.object []), none⟩
    else .error "expected value at line 1 column 1"
  result
    | .object fields => .ok (.object fields)
    | _ => .error "invalid type"
  utf8Error _ := ""

/-- Sections of an operation that meet nothing. -/
def sections (t n : Nat) : List HostInput := List.replicate n (.go t .fine)

/-- A host that is ready. -/
def loadedRun : List HostInput :=
  .start 0 :: sections 0 13 ++ [.line 0 (utf8Bytes loadResponse.toList)] ++ sections 0 2

/-- A request of a ready host up to its answer. -/
def askedRun (t : Nat) : List HostInput := .request t :: sections t 9

/-- A request of a ready host gets its answer. -/
theorem host_safe_of_clear_request :
    let inputs := loadedRun ++ askedRun 1 ++ [.line 0 (utf8Bytes callResponse.toList)] ++
      sections 1 1
    (run (step twoReader) (new true) inputs).tasks 1 = .done (.ok (some (.object []))) none ∧
      (run (step twoReader) (new true) inputs).Safe twoReader :=
  ⟨by rfl, (host_safe_of_clear _ _ _ (by decide)).1⟩

/-- A stop returns during a start, which then attaches its process. -/
def stopRun : List HostInput :=
  .start 0 :: sections 0 4 ++ .stop 1 :: sections 1 1 ++ sections 0 4

/-- A ready host whose extension prints a line, and a request. -/
def printRun : List HostInput :=
  loadedRun ++ [.line 0 (utf8Bytes "loaded".toList)] ++ askedRun 1

/-- A request loses its process; before it marks that, another request has marked it and the next
has started a process. -/
def lostRun : List HostInput :=
  loadedRun ++ askedRun 1 ++ [.exit 0, .endOfOutput 0] ++ sections 1 1 ++
    .request 2 :: sections 2 7 ++ .request 3 :: sections 3 9

lemma not_safe_of_stop : ¬ (run (step twoReader) (new true) stopRun).Safe twoReader := by
  intro h
  have hstopped : (run (step twoReader) (new true) stopRun).stopped = true := by decide
  have hchild : (run (step twoReader) (new true) stopRun).child = some 0 := by decide
  rw [(h.stopped hstopped).1] at hchild
  cases hchild

lemma not_safe_of_print : ¬ (run (step twoReader) (new true) printRun).Safe twoReader := by
  intro h
  have hwait : (run (step twoReader) (new true) printRun).Waits 1 0 2 := ⟨.request, .inr rfl⟩
  have hqueue : ((run (step twoReader) (new true) printRun).processes 0).queue =
      [(none, .line (utf8Bytes "loaded".toList))] := by decide
  cases h.ordered 1 0 2 none _ [] hwait hqueue

lemma not_fair_of_lost :
    ¬ (run (step twoReader) (new true) lostRun).Fair (.go 1 .fine) := by
  intro h
  have htask : (run (step twoReader) (new true) lostRun).tasks 1 =
      .markLost .request 0 (.processLost "EOF from Node host") := rfl
  have hchild : (run (step twoReader) (new true) lostRun).child = some 1 := by decide
  simp only [Fair, htask, hchild] at h
  rcases h with hsame | ⟨hnone, -⟩
  · cases hsame
  · cases hnone

/-- **The host does get stuck and mixed up in other runs**: a stop leaves a process attached, a
line that an extension prints stands for the answer of the next request, and an old request marks a
newer process. -/
theorem stop_and_loss_go_wrong :
    ¬ (run (step twoReader) (new true) stopRun).Safe twoReader ∧
      ¬ (run (step twoReader) (new true) printRun).Safe twoReader ∧
      ¬ Along (step twoReader) Fair (new true) (lostRun ++ [.go 1 .fine]) :=
  ⟨not_safe_of_stop, not_safe_of_print, fun h => not_fair_of_lost (Along.append.1 h).2.1⟩

end ExtensionHost

end Rupi
