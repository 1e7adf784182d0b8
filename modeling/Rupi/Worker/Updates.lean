import Rupi.Lib.Run
import Rupi.Worker.Sound

/-!
What becomes of the contents of the sessions.

- `contentsOf`: the contents of a session from the events alone: the accepted results, one
  after another, over what the session began with.
- `InOrder`: every result was computed from the contents exactly before it.
- `Serialised`: a compaction ends in the session it was computed from, and no branch comes
  with a blank prompt.
- **`worker_updates_kept`**: in every run of serialised steps the sessions are what the
  events say, in order, and a step changes one session at most, a refused one none.
-/

namespace Rupi

/-! ### Contents from events -/

/-- An accepted result, with its session and what it was computed from. -/
structure AcceptedResult where
  session : String
  result : Accepted
  priorState : WorkerState
  priorMessages : List WorkerMessage

def WorkerEvent.accepted : WorkerEvent → Option AcceptedResult
  | .ended _ request result now _ =>
    some ⟨request.sessionId, .run result now, request.priorState, request.priorMessages⟩
  | .compacted request execution =>
    some ⟨request.sessionId, .compaction execution, request.priorState, request.priorMessages⟩
  | _ => none

/-- What an event makes of the contents of all sessions. -/
def WorkerEvent.applyTo (held : String → Option WorkerSession) (event : WorkerEvent) :
    String → Option WorkerSession :=
  match event with
  | .started id _ => Function.update held id (some (WorkerSession.new "" 0).contents)
  | .branched source id _ => Function.update held id (held source)
  | event =>
    match event.accepted with
    | some accepted =>
      Function.update held accepted.session
        ((held accepted.session).map accepted.result.apply)
    | none => held

/-- What the sessions hold by the events. -/
def contentsOf : List WorkerEvent → String → Option WorkerSession
  | [] => fun _ => none
  | event :: earlier => event.applyTo (contentsOf earlier)

/-- The state and the messages that an engine was given are those of these contents. -/
def ComputedFrom (contents : WorkerSession) (state : WorkerState) (messages : List WorkerMessage) :
    Prop :=
  contents.state = state.settled ∧ contents.messages = messages

/-- Every accepted result was computed from what its session held right before it. -/
def InOrder : List WorkerEvent → Prop
  | [] => True
  | event :: earlier =>
    (∀ accepted, event.accepted = some accepted →
      ∃ contents, contentsOf earlier accepted.session = some contents ∧
        ComputedFrom contents accepted.priorState accepted.priorMessages) ∧ InOrder earlier

/-- The steps that lose no update: a compaction ends while its session is free and as it
was given to the engine, and a branch that passes its checks has no blank prompt. -/
def WorkerSystem.Serialised (s : WorkerSystem) : WorkerInput → Prop
  | .compactEnd call (.ok _) _ => ∀ request session epoch,
    s.calls call = some (.compacting request) → s.sessions request.sessionId = some session →
      session.nextEpoch = some epoch → session.state.status.busy = false ∧
        ComputedFrom session.contents request.priorState request.priorMessages
  | .branch _ request _ _ _ => ∀ source prompt,
    s.branchSource request = .ok source → request.prompt = some prompt → trim prompt ≠ ""
  | _ => True

/-- A step changes one session at most, and none when it is refused. -/
structure Tidy (w : Worker) (input : WorkerInput) : Prop where
  refused : ∀ error, (w.system.fire input).2 = .refused error →
    (w.step input).system.sessions = w.system.sessions
  single : ∀ id id', (w.step input).system.sessions id ≠ w.system.sessions id → id' ≠ id →
    (w.step input).system.sessions id' = w.system.sessions id'

/-! ### Steps -/

/-- An event that says nothing of contents. -/
def WorkerEvent.IsPlain : WorkerEvent → Prop
  | .started _ _ | .branched _ _ _ | .ended _ _ _ _ _ | .compacted _ _ => False
  | _ => True

/-- The sessions are what the events say, and the runs in flight were given their
contents. -/
structure Kept (s : WorkerSystem) (events : List WorkerEvent) : Prop where
  contents : (fun id => (s.sessions id).map WorkerSession.contents) = contentsOf events
  prior : ∀ {run thread session}, s.threads run = some thread →
    s.sessions thread.request.sessionId = some session →
    ComputedFrom session.contents thread.request.priorState thread.request.priorMessages
  order : InOrder events

namespace Kept

variable {s : WorkerSystem} {events : List WorkerEvent} {event : WorkerEvent}
  {id run : String} {session : WorkerSession}

/-- The contents of the sessions after one is set. -/
lemma contents_update (sessions : String → Option WorkerSession) :
    (fun id' => (Function.update sessions id (some session) id').map WorkerSession.contents) =
      Function.update (fun id' => (sessions id').map WorkerSession.contents) id
        (some session.contents) := by
  funext id'
  by_cases heq : id' = id
  · subst heq
    simp
  · simp [heq]

lemma plain (h : Kept s events) (hplain : event.IsPlain) : Kept s (event :: events) := by
  have haccepted : event.accepted = none := by cases event <;> first | rfl | exact hplain.elim
  have happly : event.applyTo (contentsOf events) = contentsOf events := by
    cases event <;> first | rfl | exact hplain.elim
  exact ⟨h.contents.trans happly.symm, h.prior,
    fun accepted hsome => absurd (haccepted.symm.trans hsome) (by simp), h.order⟩

lemma setCall (h : Kept s events) (call : Nat) (state : Option OpenCall) :
    Kept (s.setCall call state) events := ⟨h.contents, h.prior, h.order⟩

lemma setFlags (h : Kept s events) (flags : String → Bool) :
    Kept { s with flags := flags } events := ⟨h.contents, h.prior, h.order⟩

lemma endThread (h : Kept s events) (run : String) : Kept (s.setThread run none) events :=
  ⟨h.contents, fun hthread => h.prior (update_none_eq_some hthread).2, h.order⟩

lemma setThread (h : Kept s events) {request : WorkerRunRequest} {phase phase' : RunPhase}
    (hthread : s.threads run = some ⟨request, phase⟩) :
    Kept (s.setThread run (some ⟨request, phase'⟩)) events := by
  refine ⟨h.contents, fun hlookup => ?_, h.order⟩
  rcases update_eq_some hlookup with ⟨rfl, rfl⟩ | ⟨-, hlookup⟩
  · have hprior := fun {session} => @Kept.prior _ _ h _ _ session hthread
    exact hprior
  · exact h.prior hlookup

/-- A new session, with the event that says what it begins with. -/
lemma insertSession (h : Kept s events) (hsound : s.Sound) (hid : id ∉ s.issued)
    (haccepted : event.accepted = none)
    (happly : event.applyTo (contentsOf events) =
      Function.update (contentsOf events) id (some session.contents)) :
    Kept (s.insertSession id session) (event :: events) := by
  refine ⟨?_, ?_, fun accepted hsome => absurd (haccepted.symm.trans hsome) (by simp), h.order⟩
  · rw [contentsOf, happly, ← h.contents, ← contents_update]
    rfl
  · intro run thread found hthread hfound
    rcases update_eq_some hfound with ⟨heq, -⟩ | ⟨-, hfound⟩
    · obtain ⟨held, hheld, -⟩ := hsound.active hthread
      exact absurd (hsound.issued (heq ▸ hheld)) hid
    · exact h.prior hthread hfound

/-- A session that is set to one of the same contents. -/
lemma setSame (h : Kept s events) {session' : WorkerSession}
    (hsession : s.sessions id = some session) (hcontents : session'.contents = session.contents) :
    Kept (s.setSession id session') events := by
  refine ⟨?_, ?_, h.order⟩
  · rw [← h.contents]
    refine (contents_update s.sessions).trans (Function.update_eq_self_iff.mpr ?_)
    rw [hcontents, hsession]
    rfl
  · intro run thread found hthread hfound
    rcases update_eq_some hfound with ⟨heq, rfl⟩ | ⟨-, hfound⟩
    · rw [hcontents]
      exact h.prior hthread (heq ▸ hsession)
    · exact h.prior hthread hfound

/-- A run that begins is given the contents of its session. -/
lemma enterRun (h : Kept s events) {request : WorkerRunRequest} {call now : Nat}
    {waitMs : Option Nat} (hsession : s.sessions request.sessionId = some session)
    (hrequest : ComputedFrom session.contents request.priorState request.priorMessages) :
    Kept (s.enterRun call session request run waitMs now) events := by
  have hset := h.setSame hsession (session.contents_beginRun run now)
  refine ⟨hset.contents, ?_, h.order⟩
  intro run' thread found hthread hfound
  rcases update_eq_some hthread with ⟨rfl, rfl⟩ | ⟨-, hthread⟩
  · rcases update_eq_some hfound with ⟨-, rfl⟩ | ⟨hne, -⟩
    · exact hrequest
    · exact absurd rfl hne
  · exact hset.prior hthread hfound

/-- An accepted result, computed from what its session holds, with no other run in it. -/
lemma accept (h : Kept s events) {session' : WorkerSession} {accepted : AcceptedResult}
    (haccepted : event.accepted = some accepted)
    (happly : event.applyTo (contentsOf events) = Function.update (contentsOf events)
      accepted.session ((contentsOf events accepted.session).map accepted.result.apply))
    (hsession : s.sessions accepted.session = some session)
    (hfrom : ComputedFrom session.contents accepted.priorState accepted.priorMessages)
    (hcontents : session'.contents = accepted.result.apply session.contents)
    (halone : ∀ run thread, s.threads run = some thread →
      thread.request.sessionId ≠ accepted.session) :
    Kept (s.setSession accepted.session session') (event :: events) := by
  have hheld : contentsOf events accepted.session = some session.contents := by
    rw [← h.contents]
    dsimp only
    rw [hsession]
    rfl
  refine ⟨?_, ?_, ?_, h.order⟩
  · rw [contentsOf, happly, hheld, Option.map_some, ← hcontents, ← h.contents, ← contents_update]
    rfl
  · intro run thread found hthread hfound
    rcases update_eq_some hfound with ⟨heq, -⟩ | ⟨-, hfound⟩
    · exact absurd heq (halone run thread hthread)
    · exact h.prior hthread hfound
  · intro other hother
    obtain rfl := Option.some.inj (haccepted.symm.trans hother)
    exact ⟨session.contents, hheld, hfrom⟩

/-- Two runs are not active in one session. -/
lemma thread_unique (hsound : s.Sound) {thread : RunThread} {run' : String}
    (hsession : s.sessions id = some session) (hactive : session.state.activeRunId = some run)
    (hthread : s.threads run' = some thread) (hid : thread.request.sessionId = id) :
    run' = run := by
  obtain ⟨found, hfound, hrun⟩ := hsound.active hthread
  rw [hid, hsession] at hfound
  obtain rfl := Option.some.inj hfound
  exact Option.some.inj (hrun.symm.trans hactive)

/-- A branch begins with what its source holds. -/
lemma applyTo_branched (h : Kept s events) {request : BranchRequest} {run : Option String}
    {now : Nat} (hsource : s.branchSource request = .ok session) :
    (WorkerEvent.branched request.sessionId id run).applyTo (contentsOf events) =
      Function.update (contentsOf events) id
        (some (session.branched request.sessionId id now).contents) := by
  have hheld : contentsOf events request.sessionId = some session.contents := by
    rw [← h.contents]
    dsimp only
    rw [(WorkerSystem.branchSource_eq_ok hsource).1]
    rfl
  rw [WorkerEvent.applyTo, hheld, WorkerSession.contents_branched]

/-- **Every serialised move keeps the sessions as the events say.** -/
lemma move (h : Kept s events) (hsound : s.Sound) {input : WorkerInput} {s' : WorkerSystem}
    (hmove : s.Move input s' event) (hok : s.Serialised input) : Kept s' (event :: events) := by
  cases hmove with
  | stay hquiet => exact h.plain (by cases event <;> trivial)
  | closed => exact (h.setCall _ _).plain trivial
  | handle => exact (h.setCall _ _).plain trivial
  | started hid hrun =>
    exact (h.insertSession hsound hid rfl rfl).enterRun (Function.update_self ..) ⟨rfl, rfl⟩
  | continued hrun hsession hfree => exact (h.enterRun hsession ⟨rfl, rfl⟩).plain trivial
  | @cancelling request now session active hsession hactive =>
    have hset := h.setSame hsession (session.contents_cancelRun now)
    exact (hset.setFlags _).plain trivial
  | copied hid hsource hprompt hblank => exact absurd hblank (hok _ _ hsource hprompt)
  | branched hid hsource => exact h.insertSession hsound hid rfl (h.applyTo_branched hsource)
  | branchedRun hid hrun hsource =>
    exact (h.insertSession hsound hid rfl (h.applyTo_branched hsource)).enterRun
      (Function.update_self ..) ⟨rfl, rfl⟩
  | compacting => exact (h.setCall _ _).plain trivial
  | @compacted call request session execution epoch now hcall hsession hepoch =>
    obtain ⟨hfree, hfrom⟩ := hok request session epoch hcall hsession hepoch
    refine @accept _ _ _ _ (h.setCall call none) _
      ⟨request.sessionId, .compaction execution, request.priorState, request.priorMessages⟩
      rfl rfl hsession hfrom (session.contents_compacted execution now hepoch)
      fun run thread hthread hid => ?_
    -- A thread would keep the session busy.
    obtain ⟨found, hfound, hactive⟩ := hsound.active hthread
    have hbusy := hsound.busy_of_active hfound hactive
    have hsame : s.sessions thread.request.sessionId = some session := by rw [hid]; exact hsession
    rw [← Option.some.inj (hsame.symm.trans hfound), hfree] at hbusy
    cases hbusy
  | engineReturned hthread => exact (h.setThread hthread).plain trivial
  | flagRead hthread => exact (h.setThread hthread).plain trivial
  | @ended run request result cancelled now session hthread hsession hactive =>
    refine @accept _ _ _ _ (h.endThread run) _
      ⟨request.sessionId, .run result now, request.priorState, request.priorMessages⟩
      rfl rfl hsession (h.prior hthread hsession)
      (session.contents_finishRun cancelled result now) fun run' thread hthread' hid => ?_
    obtain ⟨hne, hthread'⟩ := update_none_eq_some hthread'
    exact hne (thread_unique hsound hsession hactive hthread' hid)
  | dropped hthread hinactive =>
    obtain ⟨session, hsession, hactive⟩ := hsound.active hthread
    exact absurd hactive (hinactive session hsession)

lemma new : Kept WorkerSystem.new [] where
  contents := rfl
  prior h := by cases h
  order := trivial

end Kept

/-! ### Runs -/

/-- A move sets no session, or one and is not refused. -/
lemma sessions_of_move {s s' : WorkerSystem} {input : WorkerInput} {event : WorkerEvent}
    (hmove : s.Move input s' event) (hok : s.Serialised input) :
    s'.sessions = s.sessions ∨
      (∃ id session, s'.sessions = Function.update s.sessions id session) ∧
        ∀ error, event ≠ .refused error := by
  cases hmove with
  | stay | closed | handle | compacting | engineReturned | flagRead | dropped => exact .inl rfl
  | continued | cancelling | branched | compacted | ended =>
    exact .inr ⟨⟨_, _, rfl⟩, by simp⟩
  | started | branchedRun => exact .inr ⟨⟨_, _, Function.update_idem ..⟩, by simp⟩
  | copied hid hsource hprompt hblank => exact absurd hblank (hok _ _ hsource hprompt)

lemma tidy_of_serialised {w : Worker} {input : WorkerInput} (hok : w.system.Serialised input) :
    Tidy w input := by
  rcases sessions_of_move (w.system.fire_move input) hok with
    hsame | ⟨⟨set, session, hset⟩, hrefused⟩
  · exact ⟨fun _ _ => hsame, fun id _ hne => absurd (congrFun hsame id) hne⟩
  · refine ⟨fun error herror => absurd herror (hrefused error), fun id id' hne hother => ?_⟩
    have hid : id = set := by
      by_contra hid
      exact hne ((congrFun hset id).trans (Function.update_of_ne hid ..))
    exact (congrFun hset id').trans (Function.update_of_ne (hid ▸ hother) ..)

/-- **No update is lost and no refused call leaves a mark.** In a run of serialised steps
the sessions hold what the accepted results make of what they began with, one after
another, and every result was computed from the contents exactly before it. A step changes
one session at most, so a branch and its source share no later change. -/
theorem worker_updates_kept (inputs : List WorkerInput)
    (hok : Run.Along Worker.step (fun w => w.system.Serialised) Worker.new inputs) :
    (fun id => ((Run.run Worker.step Worker.new inputs).system.sessions id).map
        WorkerSession.contents) = contentsOf (Run.run Worker.step Worker.new inputs).events ∧
      InOrder (Run.run Worker.step Worker.new inputs).events ∧
      Run.Along Worker.step Tidy Worker.new inputs := by
  have hinv : ∀ (w : Worker) input, w.system.Sound ∧ Kept w.system w.events →
      w.system.Serialised input →
      ((w.step input).system.Sound ∧ Kept (w.step input).system (w.step input).events) ∧
        Tidy w input := by
    rintro w input ⟨hsound, hkept⟩ hserial
    have hmove := w.system.fire_move input
    exact ⟨⟨hsound.move hmove, hkept.move hsound hmove hserial⟩, tidy_of_serialised hserial⟩
  obtain ⟨-, hkept⟩ := hok.invariant (fun w input h h' => (hinv w input h h').1)
    ⟨WorkerSystem.Sound.new, Kept.new⟩
  exact ⟨hkept.contents, hkept.order, hok.strengthen hinv ⟨WorkerSystem.Sound.new, Kept.new⟩⟩

namespace CompactedSession

def message (text : String) : WorkerMessage := ⟨"assistant", text, 0, ⟨"p", "m"⟩, none, none⟩

/-- A session with one run that has ended. -/
def oneRun : List WorkerInput :=
  [.start 0 ⟨"go", none⟩ "s" "r" 0, .engineReturn "r" (.ok { messages := [message "a"] }),
    .readFlag "r", .finishRun "r" 1]

/-- Nothing comes between the two halves of the compaction. -/
def inputs : List WorkerInput :=
  oneRun ++ [.compact 1 ⟨"s", "", none, none, false⟩,
    .compactEnd 1 (.ok { messages := [message "short"] }) 2,
    .branch 2 ⟨"s", none, none, none⟩ "b" "q" 3]

lemma serialised : Run.Along Worker.step (fun w => w.system.Serialised) Worker.new inputs := by
  refine ⟨trivial, trivial, trivial, trivial, trivial, ?_, ?_, trivial⟩
  · intro request session epoch hcall hsession _
    have hrequest : some _ = some (OpenCall.compacting request) := hcall
    obtain rfl := OpenCall.compacting.inj (Option.some.inj hrequest)
    have hfound : some _ = some session := hsession
    obtain rfl := Option.some.inj hfound
    exact ⟨rfl, rfl, rfl⟩
  · intro source prompt _ hprompt
    cases hprompt

/-- A run comes and goes between the two halves. -/
def overtaken : List WorkerInput :=
  oneRun ++ [.compact 1 ⟨"s", "", none, none, false⟩,
    .continueSession 2 ⟨"s", "on", none⟩ "q" 2,
    .engineReturn "q" (.ok { messages := [message "a", message "b"] }), .readFlag "q",
    .finishRun "q" 3, .compactEnd 1 (.ok { messages := [message "short"] }) 4]

/-- A branch is refused for its prompt. -/
def blankBranch : List WorkerInput := oneRun ++ [.branch 1 ⟨"s", none, some " ", none⟩ "b" "q" 2]

end CompactedSession

theorem worker_updates_kept_compacted :
    ((Run.run Worker.step Worker.new CompactedSession.inputs).system.sessions "b").map
        WorkerSession.messages = some [CompactedSession.message "short"] ∧
      InOrder (Run.run Worker.step Worker.new CompactedSession.inputs).events ∧
      Run.Along Worker.step Tidy Worker.new CompactedSession.inputs :=
  ⟨rfl, (worker_updates_kept CompactedSession.inputs CompactedSession.serialised).2⟩

/-- The messages of the second run are gone, and its compaction was not computed from them;
the refused branch has left its session. -/
theorem overtakenCompaction_loses_run :
    (((Run.run Worker.step Worker.new CompactedSession.overtaken).system.sessions "s").map
        WorkerSession.messages = some [CompactedSession.message "short"] ∧
      ¬ InOrder (Run.run Worker.step Worker.new CompactedSession.overtaken).events) ∧
    ¬ Run.Along Worker.step Tidy Worker.new CompactedSession.blankBranch := by
  refine ⟨⟨rfl, fun horder => ?_⟩, fun htidy => ?_⟩
  · obtain ⟨contents, hheld, -, hmessages⟩ := horder.1 _ rfl
    have hcontents : some _ = some contents := hheld
    obtain rfl := Option.some.inj hcontents
    exact absurd hmessages (by decide +kernel)
  · obtain ⟨-, -, -, -, hbranch, -⟩ := htidy
    have hsame := congrFun (hbranch.refused _ rfl) "b"
    cases hsame

end Rupi
