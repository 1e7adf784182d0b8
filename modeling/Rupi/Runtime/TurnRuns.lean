import Rupi.Runtime.TurnMoves

/-!
A turn as a run of moves.

- `recoverPriorContext_goes`, `observeProgress_goes`: between two requests.
- `recordResponse_goes`, `executeCalls_goes`, `onResponse_goes`: what becomes of a response.
- `onFailure_goes`: what becomes of a failure.
- `rounds_goes`, `conclude_goes`: the loop over requests, and the end behind it.
- **`runTurn_moves`**: a turn is a run of moves that never gives up, and it is over unless it fails.
-/

namespace Rupi

open Attempt

namespace ActiveTurn

variable {around : Surroundings} {turnId : TurnId} {ε α : Type} {c : Standing → Prop}
  {φ : ℕ → List Act → Prop} {ψ : ℕ → Prop} {n : ℕ}

/-- Where a turn is left that fails: only the model gives up. -/
def Failed : RunError → Phase → ActiveTurn → Prop
  | .turn _, _, _ => True
  | .outOfFuel, _, _ => False

/-- An error of a turn. -/
def Broken (_ : TurnError) (_ : Phase) (_ : ActiveTurn) : Prop := True

/-! ### Between two requests -/

lemma recoverPriorContext_goes :
    Goes around turnId (Free c φ) (recoverPriorContext around turnId) (fun _ => Free c φ)
      Broken := by
  rw [recoverPriorContext]
  refine .bind (q := fun _ => Free c φ) (.ask fun p t hp => hp) fun registry =>
    .get_bind fun now => ?_
  have hnote : ∀ (level : DiagnosticLevel) (message : String) (recovered : Bool),
      Goes around turnId (fun p t => Free c φ p t ∧ t = now)
        (diagnose around turnId level message >>= fun _ => pure recovered) (fun _ => Free c φ)
        Broken := fun level message recovered =>
    .bind ((diagnose_goes level message).before fun p t hp => hp.1) fun _ => .pure fun p t hp => hp
  refine .ite (fun _ => hnote _ _ _) fun _ => .ite (fun _ => hnote _ _ _) fun _ =>
    .ite (fun _ => hnote _ _ _) fun _ => ?_
  dsimp only
  split
  · exact hnote _ _ _
  · rename_i summary hsummary
    -- the summary takes the place of the history in front of the turn
    refine .bind (q := fun _ p t => Free c φ p t ∧ t.historyStart = now.historyStart ∧
      t.loop.messages = now.loop.messages)
        (.move (a := fun _ => ()) (fun _ => rfl) fun p t hp => ?_) fun _ origin t ht => ?_
    · obtain ⟨⟨s, rfl, hc, hφ⟩, rfl⟩ := hp
      exact ⟨_, .note s t _ _, ⟨s, rfl, hc, hφ⟩, rfl, rfl⟩
    · obtain ⟨p, hpath, ⟨s, rfl, hc, hφ⟩, hstart, hmessages⟩ := ht
      cases hcompact : t.loop.compactPrefix around.env turnId
          (min now.historyStart now.loop.messages.length) summary with
      | ok done =>
        obtain ⟨loop, replaced⟩ := done
        have hmove : WindowMove around turnId (t.loop, t.historyStart)
            (loop, if replaced = 0 then t.historyStart else loop.checkpointFloor + 1) :=
          .recover (by rwa [hstart, hmessages])
        rw [Attempt.bind_of_ok (onLoop_of_ok hcompact)]
        split_ifs with hnone
        · rw [if_pos hnone] at hmove
          exact ⟨_, hpath.tail (.reshape hmove), s, rfl, hc, hφ⟩
        · rw [if_neg hnone] at hmove
          exact ⟨_, hpath.tail (.reshape hmove), s, rfl, hc, hφ⟩
      | error error =>
        rw [Attempt.bind_of_error (onLoop_of_error hcompact)]
        exact ⟨_, hpath.tail (.reshape (.normalize t.loop t.historyStart)), trivial⟩

/-- A prompt of the runtime, and a diagnostic about it. -/
lemma activateBoundary_goes :
    Goes around turnId (Free (· = .fresh) φ) (activateBoundary around turnId)
      (fun _ => Free (· = .fresh) φ) Broken := by
  rw [activateBoundary]
  refine .bind (q := fun _ => Free (· = .fresh) φ)
    (.tend (fun _ => ⟨rfl, rfl, rfl, rfl, id⟩) fun p t hp => hp) fun _ => ?_
  refine .bind (q := fun _ => Free (· = .fresh) φ) (.ask fun p t hp => hp) fun registry =>
    .get_bind fun now => .ite (fun _ => ?_) fun _ => ?_
  · exact .bind ((diagnose_goes _ _).before fun p t hp => hp.1) fun _ => .pure fun p t hp => hp
  · rw [appendProgressInstruction]
    refine .bind ((say_goes _).before fun p t hp => hp.1) fun _ => ?_
    exact .bind (diagnose_goes _ _) fun _ => .pure fun p t hp => hp

lemma observeProgress_goes (progressed : Bool) :
    Goes around turnId (Free (· = .fresh) φ) (observeProgress around turnId progressed)
      (fun _ => Free (· = .fresh) φ) Broken := by
  rw [observeProgress]
  cases around.progressRequestLimit with
  | none => exact .pure fun p t hp => hp
  | some limit =>
    refine .get_bind fun now => .ite (fun _ => ?_) fun _ => .ite (fun _ => ?_) fun _ => ?_
    · exact .bind (q := fun _ => Free (· = .fresh) φ)
        (.tend (fun _ => ⟨rfl, rfl, rfl, rfl, id⟩) fun p t hp => hp.1)
          fun _ => .pure fun p t hp => hp
    · exact .pure fun p t hp => hp.1
    · refine .bind (q := fun _ => Free (· = .fresh) φ)
        (.tend (fun _ => ⟨rfl, rfl, rfl, rfl, id⟩) fun p t hp => hp.1) fun _ => ?_
      refine .get_bind fun later => .ite (fun _ => ?_) fun _ => .pure fun p t hp => hp.1
      exact activateBoundary_goes.before fun p t hp => hp.1

/-! ### What becomes of a response -/

/-- A response is recorded: there is nothing else to do, or its calls are closed one by one. -/
structure Recorded (ψ : ℕ → Prop) (calls : List ToolCallBlock) (assistant : EventId) (p : Phase)
    (t : ActiveTurn) : Prop where
  requests : ψ t.requests
  phase : ∃ s, (calls = [] → p = .free s) ∧ (calls ≠ [] → p = .batch assistant calls true true s)

lemma recordResponse_goes (response : Response) (collector : Collector) (includeMessage : Bool) :
    Goes around turnId (Answered around n response collector)
      (recordResponse around turnId response includeMessage)
      (Recorded (fun r => n < r ∧ r ≤ around.maxRequests) response.calls) Broken := by
  rw [recordResponse]
  refine .bind (q := fun _ => Answered around n response collector)
    (.tend (fun _ => ⟨rfl, rfl, rfl, rfl, id⟩) fun p t hp =>
      ⟨hp.phase, hp.requests, hp.calls, hp.content, hp.epoch, hp.model, hp.count⟩) fun _ => ?_
  refine .get_bind fun now => .ite (fun hempty => ?_) fun _ => ?_
  · have hcalls : response.calls = [] := by
      rw [List.isEmpty_iff, List.append_eq_nil_iff, List.map_eq_nil_iff] at hempty
      exact hempty.2
    refine .bind (q := fun _ => Recorded (fun r => n < r ∧ r ≤ around.maxRequests) response.calls
      (around.env.fresh now.loop.issued)) (.modify fun p t hp => ?_) fun _ => .pure fun p t hp => hp
    obtain ⟨⟨rfl, hrequests, hsame, -, hepoch, hmodel, hcount⟩, rfl⟩ := hp
    exact ⟨_, .answer hepoch hmodel hcount (hsame.symm.trans hcalls), hrequests, _, fun _ => rfl,
      fun h => absurd hcalls h⟩
  · refine .bind (q := fun _ => Recorded (fun r => n < r ∧ r ≤ around.maxRequests) response.calls
      (around.env.fresh now.loop.issued)) (fun origin t ht => ?_) fun _ => .pure fun p t hp => hp
    obtain ⟨loop, hok, hrecord, -⟩ := t.record_ok around turnId
      (.modelRequestCompleted response.completion) ⟨.assistant,
        (if includeMessage then response.content else []) ++ response.calls.map .toolCall⟩ none
    rw [hrecord]
    obtain ⟨p, hpath, ⟨rfl, hrequests, hsame, hcontent, hepoch, hmodel, hcount⟩, rfl⟩ := ht
    rw [hsame] at hok
    have hshown : (if includeMessage then response.content else []) = collector.content ∨
        (if includeMessage then response.content else []) = [] := by
      split_ifs
      · exact .inl hcontent
      · exact .inr rfl
    have hbatch := hpath.tail (.answerWith hepoch hmodel hcount hshown hok)
    cases hcalls : response.calls with
    | nil =>
      rw [← hsame, hcalls] at hbatch
      exact ⟨_, hbatch.tail (.settle (.inl rfl)), hrequests, _, fun _ => rfl, fun h => absurd rfl h⟩
    | cons call calls =>
      rw [← hsame, hcalls] at hbatch
      exact ⟨_, hbatch, hrequests, _, fun h => (by cases h), fun _ => rfl⟩

/-- The calls of a response are closed, executed or not. -/
lemma executeCalls_goes {assistant : EventId} {kept : Bool} {s : Standing}
    (rejected : List (ToolCallId × String)) (calls : List ToolCallBlock) :
    Goes around turnId (fun p t => p = .batch assistant calls true kept s ∧ ψ t.requests)
      (executeCalls around turnId assistant rejected calls)
      (fun _ p t => p = .batch assistant [] true kept (behind s calls) ∧ ψ t.requests) Broken := by
  induction calls generalizing s with
  | nil => exact .pure fun p t hp => hp
  | cons call calls ih =>
    rw [executeCalls]
    refine .bind (q := fun _ p t => p = .batch assistant (call :: calls) true kept s ∧ ψ t.requests)
      (.look fun p t hp => hp) fun cancelled => .ite (fun _ => ?_) fun _ => ?_
    · exact .bind (recordUnexecutedCalls_goes _ _) fun _ => .pure fun p t hp => hp
    · refine .bind (q := fun _ p t => p = .batch assistant calls true kept .fresh ∧ ψ t.requests)
        (fun origin t ht => ?_) fun progressed => .bind (ih.weaken (fun _ _ h => h)
          (fun _ p t h => ?_) fun _ _ _ h => h) fun later => .pure fun p t hp => hp
      · obtain ⟨t', executed, hok, hcloses⟩ :=
          executeCall_closes around turnId assistant rejected call t
        rw [hok]
        refine ht.move fun p ⟨hp, hψ⟩ => ?_
        subst hp
        exact ⟨_, .close hcloses, rfl, by rwa [hcloses.requests]⟩
      · refine ⟨h.1.trans ?_, h.2⟩
        cases calls <;> rfl

/-- A count for the report changes nothing else. -/
lemma countCalls_goes {χ : Phase → ℕ → Prop} (calls : List ToolCallBlock) (error : String) :
    Goes around turnId (fun p t => χ p t.requests) (countCalls calls error)
      (fun _ p t => χ p t.requests) Broken := by
  rw [countCalls]
  refine .bind (q := fun _ p t => χ p t.requests) (.ofExcept (fun _ _ p t hp => hp)
    fun _ _ p t _ => trivial) fun toolCalls => .get_bind fun now => ?_
  refine .bind (q := fun _ p t => χ p t.requests) (.ofExcept (fun _ _ p t hp => hp.1)
    fun _ _ p t _ => trivial) fun total => ?_
  exact .tend (fun _ => ⟨rfl, rfl, rfl, rfl, id⟩) fun p t hp => hp

/-! ### Ends -/

/-- The turn is over. -/
def Over (p : Phase) (_ : ActiveTurn) : Prop := p = .over

lemma finishFailure_goes (failure : RequestFailure) :
    Goes around turnId Idle (finishFailure around turnId failure) (fun _ => Over) Broken := by
  rw [finishFailure]
  refine .bind (q := fun _ => Idle) (.tend (fun _ => ⟨rfl, rfl, rfl, rfl, id⟩) fun p t hp => hp)
    fun _ => .bind (finish_goes _) fun _ => .pure fun p t hp => hp

lemma finishCancelled_goes :
    Goes around turnId Idle (finishCancelled around turnId) (fun _ => Over) Broken := by
  rw [finishCancelled]
  exact .bind (q := fun _ => Idle) (.tend (fun _ => ⟨rfl, rfl, rfl, rfl, id⟩) fun p t hp => hp)
    fun _ => finish_goes _

lemma finishExhausted_goes (message : String) :
    Goes around turnId Idle (finishExhausted around turnId message) (fun _ => Over) Broken := by
  rw [finishExhausted]
  exact .bind (q := fun _ => Idle) (.tend (fun _ => ⟨rfl, rfl, rfl, rfl, id⟩) fun p t hp => hp)
    fun _ => .bind (diagnose_idle _ _) fun _ => finish_goes _

/-- Where a response leaves a turn: it is over, or there is something new to ask. -/
def Answers (around : Surroundings) (n : ℕ) : Option TurnEnd → Phase → ActiveTurn → Prop
  | some _ => Over
  | none => Free (· = .fresh) fun r _ => n < r ∧ r ≤ around.maxRequests

lemma onResponse_goes (response : Response) (collector : Collector) :
    Goes around turnId (Answered around n response collector) (onResponse around turnId response)
      (Answers around n) Broken := by
  rw [onResponse]
  refine .get_bind fun now => .bind ((recordResponse_goes response collector _).before
    fun p t hp => hp.1) fun assistant => .ite (fun hempty => ?_) fun hcalls => .ite (fun _ => ?_)
      fun _ => ?_
  · have hfree : ∀ p t, Recorded (fun r => n < r ∧ r ≤ around.maxRequests) response.calls assistant
        p t → Free (fun _ => True) (fun r _ => n < r ∧ r ≤ around.maxRequests) p t :=
      fun p t hp => hp.phase.imp fun s hs =>
        ⟨hs.1 (List.isEmpty_iff.1 hempty), trivial, hp.requests⟩
    refine .ite (fun _ => ?_) fun _ =>
      .map ((finish_goes _).before fun p t hp => (hfree p t hp).idle)
    rw [appendProgressRetryInstruction]
    exact .bind ((say_goes _).before hfree) fun _ => .bind (diagnose_goes _ _) fun _ =>
      .pure fun p t hp => hp
  all_goals
    have hne : response.calls ≠ [] := fun h => hcalls (by rw [h]; rfl)
    have hbatch : ∀ p t, Recorded (fun r => n < r ∧ r ≤ around.maxRequests) response.calls assistant
        p t → ∃ s, p = .batch assistant response.calls true true s ∧
          (n < t.requests ∧ t.requests ≤ around.maxRequests) :=
      fun p t hp => hp.phase.imp fun s hs => ⟨hs.2 hne, hp.requests⟩
    have hbehind : ∀ s, behind s response.calls = .fresh := fun s => by
      rw [behind, if_neg hcalls]
  · refine .bind ((countCalls_goes (χ := fun p r => ∃ s, p = .batch assistant response.calls true
      true s ∧ n < r ∧ r ≤ around.maxRequests) _ _).before hbatch) fun _ => ?_
    refine .bind (q := fun _ p t => p = .batch assistant [] true true .fresh ∧
      n < t.requests ∧ t.requests ≤ around.maxRequests) (.elim fun s => ?_) fun progressed => ?_
    · refine (executeCalls_goes (ψ := fun r => n < r ∧ r ≤ around.maxRequests) _ _).weaken
        (fun _ _ hp => hp) (fun _ p t hp => ?_) fun _ _ _ h => h
      rwa [hbehind] at hp
    · refine .bind (q := fun _ => Free (· = .fresh) fun r _ => n < r ∧ r ≤ around.maxRequests)
        ((observeProgress_goes progressed).shift fun p t hp => ?_) fun blocked => ?_
      · obtain ⟨rfl, hr⟩ := hp
        exact ⟨_, .settle (.inl rfl), _, rfl, rfl, hr⟩
      · cases blocked with
        | some reason => exact .map ((finishFailure_goes _).before fun p t hp => hp.idle)
        | none => exact .pure fun p t hp => hp
  · refine .bind (q := fun _ p t => p = .batch assistant [] true true .fresh ∧
      n < t.requests ∧ t.requests ≤ around.maxRequests) (Goes.before (.elim fun s => ?_) hbatch)
        fun _ => .map ((finishExhausted_goes _).shift fun p t hp => ?_)
    · refine (recordUnexecutedCalls_goes (ψ := fun r => n < r ∧ r ≤ around.maxRequests) _ _).weaken
        (fun _ _ hp => hp) (fun _ p t hp => ?_) fun _ _ _ h => h
      rwa [hbehind] at hp
    · obtain ⟨rfl, hr⟩ := hp
      exact ⟨_, .settle (.inl rfl), .inr ⟨_, rfl⟩⟩

/-! ### What becomes of a failure -/

/-- How the loop goes on. -/
def GoesOn (around : Surroundings) (n : ℕ) : Next → Phase → ActiveTurn → Prop
  | .ended _, p, t => Over p t
  | .again state, p, t => state.limit ≤ around.maxRequests ∧
      Free (fun s => s.mayAsk = true) (fun r _ => n < r ∧ r ≤ around.maxRequests) p t

lemma giveUp_goes (failure : RequestFailure) (why : String) :
    Goes around turnId Idle (giveUp around turnId failure why) (GoesOn around n) Broken := by
  rw [giveUp]
  exact .bind (diagnose_idle _ _) fun _ => .map (finishFailure_goes failure)

lemma onOverflow_goes {state : Rounds} (hlimit : state.limit ≤ around.maxRequests)
    (failure : RequestFailure) :
    Goes around turnId
      (Free (fun s => s.mayAsk = true) fun r _ => n < r ∧ r ≤ around.maxRequests)
      (onOverflow around turnId state failure) (GoesOn around n) Broken := by
  rw [onOverflow]
  refine .ite (fun _ => (giveUp_goes _ _).before fun p t hp => hp.idle) fun _ => ?_
  refine .bind recoverPriorContext_goes fun recovered => .ite (fun _ => ?_) fun _ => ?_
  · exact .pure fun p t hp => ⟨hlimit, hp⟩
  · exact .map ((finishFailure_goes _).before fun p t hp => hp.idle)

lemma onTruncation_goes {state : Rounds} (failure : RequestFailure) (actual requested : ℕ)
    (surfaceOutput : Bool) :
    Goes around turnId
      (Free (fun s => s.mayAsk = true) fun r _ => n < r ∧ r ≤ around.maxRequests)
      (onTruncation around turnId state failure actual requested surfaceOutput)
      (GoesOn around n) Broken := by
  rw [onTruncation]
  refine .ite (fun _ => (giveUp_goes _ _).before fun p t hp => hp.idle) fun _ =>
    .ite (fun _ => (giveUp_goes _ _).before fun p t hp => hp.idle) fun _ => ?_
  refine .bind recoverPriorContext_goes fun recovered => .ite (fun _ => ?_) fun _ => ?_
  · exact .bind (diagnose_goes _ _) fun _ => .pure fun p t hp => ⟨le_rfl, hp⟩
  · exact .map ((finishFailure_goes _).before fun p t hp => hp.idle)

lemma onFailure_goes {state : Rounds} (hlimit : state.limit ≤ around.maxRequests)
    (failure : TurnFailure) :
    Goes around turnId (Left around n failure) (onFailure around turnId state failure)
      (GoesOn around n) Failed := by
  have hbroken : ∀ {m : Attempt ActiveTurn TurnError Next} {pre : Phase → ActiveTurn → Prop},
      Goes around turnId pre m (GoesOn around n) Broken →
        Goes around turnId pre (m.mapError .turn) (GoesOn around n) Failed := fun h => .mapError h
  cases failure with
  | cancelled => exact hbroken (.map finishCancelled_goes)
  | providerOverflow failure => exact hbroken (onOverflow_goes hlimit failure)
  | outputTruncated failure actual requested surfaceOutput =>
    exact hbroken (onTruncation_goes failure actual requested surfaceOutput)
  | fatal failure => exact hbroken (.map (finishFailure_goes failure))
  | sink error => exact .fail fun p t hp => trivial
  | outOfFuel => exact .fail fun p t hp => hp

/-! ### The loop, and the end behind it -/

/-- What an attempt leaves, whatever its result. -/
def Attempted (around : Surroundings) (n : ℕ) (result : Except TurnFailure Response) (p : Phase)
    (t : ActiveTurn) : Prop :=
  match result with
  | .ok response => ∃ collector, Answered around n response collector p t
  | .error failure => Left around n failure p t

lemma tryAttempt_goes :
    Goes around turnId
      (Free (fun s => s.mayAsk = true) fun r acts => n ≤ r ∧ r < around.maxRequests ∧ Armed acts)
      (tryAttempt around turnId) (Attempted around n) Failed := by
  intro origin t ht
  have hattempt := attempt_goes origin t ht
  rw [tryAttempt]
  cases hrun : attempt around turnId t with
  | mk t' result =>
    rw [hrun] at hattempt
    cases result with
    | ok response => exact hattempt
    | error failure => exact hattempt

/-- Where the loop over requests ends: the turn is over, or it ran into its limit. -/
def Concluded (around : Surroundings) : Option TurnEnd → Phase → ActiveTurn → Prop
  | some _ => Over
  | none => Free (fun _ => True) fun r _ => r ≤ around.maxRequests

/-- The loop over requests ends: each time it asks again, there is one request less to make. -/
lemma rounds_goes (fuel : ℕ) {state : Rounds} (hlimit : state.limit ≤ around.maxRequests) :
    Goes around turnId
      (Free (fun s => s.mayAsk = true) fun r _ =>
        r ≤ around.maxRequests ∧ around.maxRequests + 1 ≤ r + fuel)
      (rounds around turnId fuel state) (Concluded around) Failed := by
  induction fuel generalizing state with
  | zero => exact .fail fun p t ⟨_, _, _, hle, hlt⟩ => absurd hle (not_le.2 hlt)
  | succ fuel ih =>
    rw [rounds]
    refine .get_bind fun now => .ite (fun _ => ?_) fun hunder => ?_
    · exact .pure fun p t ⟨⟨s, hs, _, hle, _⟩, _⟩ => ⟨s, hs, trivial, hle⟩
    refine .bind (q := fun cancelled => Free (fun s => s.mayAsk = true) fun r acts =>
      r = now.requests ∧ around.maxRequests + 1 ≤ r + (fuel + 1) ∧ (cancelled = false → Armed acts))
      (.look fun p t hp => ?_) fun cancelled => .ite (fun _ => ?_) fun hcancelled => ?_
    · obtain ⟨⟨s, hs, hask, -, hfuel⟩, rfl⟩ := hp
      exact ⟨s, hs, hask, rfl, hfuel, armed_looked⟩
    · exact .map (.mapError ((finish_goes _).before fun p t hp => hp.idle))
    have hbound : now.requests < around.maxRequests := (not_le.1 hunder).trans_le hlimit
    have hunset : cancelled = false := Bool.eq_false_of_not_eq_true hcancelled
    refine .of_fact (p := around.maxRequests + 1 ≤ now.requests + (fuel + 1))
      (fun p t ⟨s, _, _, hr, hfuel, _⟩ => hr ▸ hfuel) fun hfuel => ?_
    have hnext : ∀ r, now.requests < r ∧ r ≤ around.maxRequests →
        r ≤ around.maxRequests ∧ around.maxRequests + 1 ≤ r + fuel := fun r hr => ⟨hr.2, by omega⟩
    refine .bind (q := fun _ => Free (fun s => s.mayAsk = true) fun r acts =>
      now.requests ≤ r ∧ r < around.maxRequests ∧ Armed acts) (.ask fun p t hp => ?_)
        fun available => .bind (.tend (fun _ => ⟨rfl, rfl, rfl, rfl, id⟩) fun p t hp => hp) fun _ =>
          .bind tryAttempt_goes fun result => ?_
    · obtain ⟨s, hs, hask, hr, -, harmed⟩ := hp
      exact ⟨s, hs, hask, hr.ge, hr.trans_lt hbound, harmed hunset⟩
    cases result with
    | ok response =>
      refine .bind (.mapError (.elim fun collector => onResponse_goes response collector))
        fun ended => ?_
      cases ended with
      | some how => exact .pure fun p t hp => hp
      | none =>
        refine (ih hlimit).before fun p t ⟨s, hs, hfresh, hr⟩ => ⟨s, hs, ?_, hnext _ hr⟩
        rw [hfresh]
        rfl
    | error failure =>
      refine .bind (onFailure_goes hlimit failure) fun next => ?_
      cases next with
      | ended how => exact .pure fun p t hp => hp
      | again state =>
        refine .of_fact (fun p t hp => hp.1) fun hlimit => (ih hlimit).before fun p t hp => ?_
        obtain ⟨-, s, hs, hask, hr⟩ := hp
        exact ⟨s, hs, hask, hnext _ hr⟩

lemma finalize_goes :
    Goes around turnId (Free c fun r acts => r < around.maxRequests ∧ Armed acts)
      (finalize around turnId) (fun _ => Over) Failed := by
  rw [finalize]
  refine .bind (.mapError (say_goes _)) fun _ => .get_bind fun now => ?_
  refine .bind (q := fun _ => Free (fun s => s.mayAsk = true) fun r acts =>
    0 ≤ r ∧ r < around.maxRequests ∧ Armed acts) (.tend (fun _ => ⟨rfl, rfl, rfl, rfl, id⟩)
      fun p t hp => ?_) fun _ => .bind tryAttempt_goes fun result => ?_
  · obtain ⟨⟨s, hs, rfl, hr⟩, -⟩ := hp
    exact ⟨_, hs, rfl, Nat.zero_le _, hr⟩
  have hkeep : ∀ p t, Attempted around 0 result p t →
      Attempted around 0 result p { t with toolsEnabled := now.toolsEnabled } := by
    intro p t hp
    cases result with
    | ok response =>
      obtain ⟨collector, hphase, hrequests, hcalls, hcontent, hepoch, hmodel, hcount⟩ := hp
      exact ⟨collector, hphase, hrequests, hcalls, hcontent, hepoch, hmodel, hcount⟩
    | error failure => cases failure <;> exact hp
  refine .bind (q := fun _ => Attempted around 0 result)
    (.tend (fun _ => ⟨rfl, rfl, rfl, rfl, id⟩) hkeep) fun _ => ?_
  cases result with
  | ok response =>
    refine .mapError (.bind (.elim fun collector => recordResponse_goes response collector true)
      fun assistant => .ite (fun hempty => ?_) fun hcalls => ?_)
    · exact (finishExhausted_goes _).before fun p t hp =>
        .inr (hp.phase.imp fun s hs => hs.1 (List.isEmpty_iff.1 hempty))
    · have hne : response.calls ≠ [] := fun h => hcalls (by rw [h]; rfl)
      refine .bind ((countCalls_goes (χ := fun p _ => ∃ s, p = .batch assistant response.calls true
        true s) _ _).before fun p t hp => hp.phase.imp fun s hs => hs.2 hne) fun _ => ?_
      refine .bind (q := fun _ p _ => ∃ s, p = .batch assistant [] true true s) (.elim fun s => ?_)
        fun _ => (finishExhausted_goes _).shift fun p t ⟨s, hs⟩ => ?_
      · exact (recordUnexecutedCalls_goes (ψ := fun _ => True) _ _).weaken
          (fun _ _ hp => ⟨hp, trivial⟩) (fun _ p t hp => ⟨_, hp.1⟩) fun _ _ _ h => h
      · subst hs
        exact ⟨_, .settle (.inl rfl), .inr ⟨_, rfl⟩⟩
  | error failure =>
    cases failure with
    | cancelled => exact .mapError finishCancelled_goes
    | providerOverflow failure =>
      exact .mapError ((finishFailure_goes _).before fun p t ⟨s, hs, _⟩ => .inr ⟨s, hs⟩)
    | outputTruncated failure actual requested surfaceOutput =>
      exact .mapError ((finishFailure_goes _).before fun p t ⟨s, hs, _⟩ => .inr ⟨s, hs⟩)
    | fatal failure => exact .mapError (finishFailure_goes _)
    | sink error => exact .fail fun p t hp => trivial
    | outOfFuel => exact .fail fun p t hp => hp

lemma conclude_goes :
    Goes around turnId (Free c fun r _ => r ≤ around.maxRequests) (conclude around turnId)
      (fun _ => Over) Failed := by
  rw [conclude]
  refine .get_bind fun now => .ite (fun _ => ?_) fun _ => .ite (fun hbudget => ?_) fun _ => ?_
  · exact .mapError ((finishExhausted_goes _).before fun p t hp => hp.1.idle)
  · rw [Bool.and_eq_true, decide_eq_true_eq, decide_eq_true_eq] at hbudget
    refine .bind (q := fun cancelled => Free c fun r acts => r < around.maxRequests ∧
      (cancelled = false → Armed acts)) (.look fun p t hp => ?_) fun cancelled =>
        .ite (fun _ => .mapError (finishCancelled_goes.before fun p t hp => hp.idle))
          fun hcancelled => (finalize_goes (c := c)).before fun p t ⟨s, hs, hc, hr, harmed⟩ => ?_
    · obtain ⟨⟨s, hs, hc, -⟩, rfl⟩ := hp
      exact ⟨s, hs, hc, hbudget.2, armed_looked⟩
    · exact ⟨s, hs, hc, hr, harmed (Bool.eq_false_of_not_eq_true hcancelled)⟩
  · exact .mapError ((finishExhausted_goes _).before fun p t hp => hp.1.idle)

/-- Where a turn ends. -/
def Ended : Except RunError TurnEnd → Phase → Prop
  | .ok _, p => p = .over
  | .error (.turn _), _ => True
  | .error .outOfFuel, _ => False

lemma Goes.ended {m : Attempt ActiveTurn RunError TurnEnd} {q : Phase → ActiveTurn → Prop}
    {p : Phase}
    {t : ActiveTurn} (h : Goes around turnId q m (fun _ => Over) Failed) (hp : q p t) :
    ∃ p', Relation.ReflTransGen (Move around turnId) (p, t) (p', (m t).1) ∧ Ended (m t).2 p' := by
  have hrun := h (p, t) t ⟨p, .refl, hp⟩
  cases hm : m t with
  | mk t' result =>
    rw [hm] at hrun
    cases result with
    | ok how => exact hrun
    | error error =>
      obtain ⟨p', hpath, hfailed⟩ := hrun
      cases error with
      | turn error => exact ⟨p', hpath, trivial⟩
      | outOfFuel => exact hfailed.elim

/-- **A turn is a run of moves**: it begins with what it is asked, it never gives up, and it is over
unless it fails. -/
lemma runTurn_moves (around : Surroundings) (turnId : TurnId) (input : String)
    (externalContext : List (ExternalContextRetrieved × String)) (t : ActiveTurn) :
    ∃ p, Relation.ReflTransGen (Move around turnId)
      (.free (.shown false), begin around (around.mutatingApprovalAvailable t.looks)
        { t with looks := t.looks + 1 }) (p, (runTurn around turnId input externalContext t).1) ∧
      Ended (runTurn around turnId input externalContext t).2 p := by
  have hcontext : Goes around turnId (Free (fun _ => True) fun r _ => r = 0)
      (each (fun item =>
        record around turnId (.externalContextRetrieved item.1) (.user item.2) none)
        externalContext) (fun _ => Free (fun _ => True) fun r _ => r = 0) Broken := by
    induction externalContext with
    | nil => exact .pure fun p t hp => hp
    | cons item rest ih =>
      exact .bind (prompt_goes rfl) fun _ =>
        ih.before fun p t ⟨s, hs, _, hr⟩ => ⟨s, hs, trivial, hr⟩
  have hnormal : (if 1 < around.maxRequests then around.maxRequests - 1 else around.maxRequests) ≤
      around.maxRequests := by
    split_ifs
    · exact Nat.sub_le _ _
    · exact le_rfl
  have hask : (ask around.mutatingApprovalAvailable : Attempt ActiveTurn RunError Bool) t =
      ({ t with looks := t.looks + 1 }, .ok (around.mutatingApprovalAvailable t.looks)) := rfl
  rw [runTurn, Attempt.bind_of_ok hask, Attempt.modify_bind]
  refine Goes.ended (q := Free (fun _ => True) fun r _ => r = 0) ?_ ⟨_, rfl, trivial, rfl⟩
  refine .bind (.mapError hcontext) fun _ => .bind (.mapError (say_goes _)) fun _ =>
    .bind ((rounds_goes _ hnormal).before fun p t ⟨s, hs, hfresh, hr⟩ => ?_) fun ended => ?_
  · refine ⟨s, hs, by rw [hfresh]; rfl, ?_⟩
    rw [hr]
    exact ⟨Nat.zero_le _, (Nat.zero_add _).ge⟩
  · cases ended with
    | some how => exact .pure fun p t hp => hp
    | none => exact conclude_goes

end ActiveTurn

end Rupi
