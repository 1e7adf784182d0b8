import Rupi.Runtime.CallMoves
import Rupi.Runtime.QuietLines
import Rupi.Runtime.WindowMoves

/-!
An attempt as moves of a turn.

- `Goes`: what a computation of a turn does, from a phase and by moves.
- `Goes.bind`, `Goes.move`, `Goes.look`: one rule for each construct.
- `Free`, `Idle`, `Left`: where the parts of a turn begin and end.
- `sendRequest_goes`, `closeFailed_goes`, `recover_goes`: a request, the end of one that failed, and
  what is left of it.
- `attempt_goes`: an attempt ends in a response, or leaves a turn that can go on as its failure
  says.
-/

namespace Rupi

open Attempt

namespace ActiveTurn

/-- What a computation does, from a phase and by moves. -/
def Goes {ε α : Type} (around : Surroundings) (turnId : TurnId) (pre : Phase → ActiveTurn → Prop)
    (m : Attempt ActiveTurn ε α) (post : α → Phase → ActiveTurn → Prop)
    (failed : ε → Phase → ActiveTurn → Prop) : Prop :=
  ∀ origin, m.Meets (Reach around turnId origin pre) (fun a => Reach around turnId origin (post a))
    fun e => Reach around turnId origin (failed e)

variable {around : Surroundings} {turnId : TurnId} {ε ε' α β : Type}

namespace Goes

variable {pre pre' : Phase → ActiveTurn → Prop} {m : Attempt ActiveTurn ε α}
  {f : α → Attempt ActiveTurn ε β}
  {q post : α → Phase → ActiveTurn → Prop} {post' : β → Phase → ActiveTurn → Prop}
  {failed failed' : ε → Phase → ActiveTurn → Prop}

lemma bind (hm : Goes around turnId pre m q failed)
    (hf : ∀ a, Goes around turnId (q a) (f a) post' failed) :
    Goes around turnId pre (m >>= f) post' failed := fun origin =>
  (hm origin).bind fun a => hf a origin

lemma pure {a : α} (h : ∀ p t, pre p t → post a p t) :
    Goes around turnId pre (pure a : Attempt ActiveTurn ε α) post failed := fun _ =>
  .pure fun _ ht => ht.mono fun p hp => h p _ hp

lemma fail {e : ε} (h : ∀ p t, pre p t → failed e p t) :
    Goes around turnId pre (fail e : Attempt ActiveTurn ε α) post failed := fun _ =>
  .fail fun _ ht => ht.mono fun p hp => h p _ hp

/-- The rule of consequence. -/
lemma weaken (h : Goes around turnId pre m post failed) {post'' : α → Phase → ActiveTurn → Prop}
    (hpre : ∀ p t, pre' p t → pre p t) (hpost : ∀ a p t, post a p t → post'' a p t)
    (hfailed : ∀ e p t, failed e p t → failed' e p t) :
    Goes around turnId pre' m post'' failed' := fun origin =>
  (h origin).weaken (fun _ ht => ht.mono fun p hp => hpre p _ hp)
    (fun a _ ht => ht.mono fun p hp => hpost a p _ hp)
    fun e _ ht => ht.mono fun p hp => hfailed e p _ hp

lemma before (h : Goes around turnId pre m post failed) (hpre : ∀ p t, pre' p t → pre p t) :
    Goes around turnId pre' m post failed :=
  h.weaken hpre (fun _ _ _ hpost => hpost) fun _ _ _ hfailed => hfailed

/-- A move that changes nothing but the phase may come first. -/
lemma shift (h : Goes around turnId pre m post failed)
    (hmove : ∀ p t, pre' p t → ∃ p', Move around turnId (p, t) (p', t) ∧ pre p' t) :
    Goes around turnId pre' m post failed := fun origin t ht =>
  h origin t (ht.move fun p hp => hmove p t hp)

lemma mapError {g : ε → ε'} {failed : ε' → Phase → ActiveTurn → Prop}
    (h : Goes around turnId pre m post fun e => failed (g e)) :
    Goes around turnId pre (m.mapError g) post failed := fun origin => .mapError (h origin)

lemma ite {p : Prop} [Decidable p] {m' : Attempt ActiveTurn ε α}
    (hm : p → Goes around turnId pre m post failed)
    (hm' : ¬p → Goes around turnId pre m' post failed) :
    Goes around turnId pre (if p then m else m') post failed := fun origin =>
  .ite (fun h => hm h origin) fun h => hm' h origin

/-- A condition that does not speak of the state may be used to prove the contract. -/
lemma of_fact {p : Prop} (hpre : ∀ b t, pre b t → p)
    (h : p → Goes around turnId pre m post failed) : Goes around turnId pre m post failed := by
  intro origin t ht
  obtain ⟨b, -, hb⟩ := id ht
  exact h (hpre b t hb) origin t ht

/-- What a precondition leaves open may be fixed. -/
lemma elim {ι : Type} {pre : ι → Phase → ActiveTurn → Prop}
    (h : ∀ i, Goes around turnId (pre i) m post failed) :
    Goes around turnId (fun p t => ∃ i, pre i p t) m post failed := by
  rintro origin t ⟨p, hpath, i, hp⟩
  exact h i origin t ⟨p, hpath, hp⟩

lemma get_bind {f : ActiveTurn → Attempt ActiveTurn ε β}
    (h : ∀ now, Goes around turnId (fun p t => pre p t ∧ t = now) (f now) post' failed) :
    Goes around turnId pre (get >>= f) post' failed := fun origin t ht =>
  h t origin t (ht.mono fun _ hp => ⟨hp, rfl⟩)

/-- A computation that always succeeds, and is a run of moves. -/
lemma run {g : ActiveTurn → ActiveTurn} {a : ActiveTurn → α} (hm : ∀ t, m t = (g t, .ok (a t)))
    (h : ∀ p t, pre p t → ∃ p', Relation.ReflTransGen (Move around turnId) (p, t) (p', g t) ∧
      post (a t) p' (g t)) :
    Goes around turnId pre m post failed := by
  rintro origin t ⟨p, hpath, hp⟩
  obtain ⟨p', hrun, hp'⟩ := h p t hp
  rw [hm]
  exact ⟨p', hpath.trans hrun, hp'⟩

/-- A computation that is one move. -/
lemma move {g : ActiveTurn → ActiveTurn} {a : ActiveTurn → α} (hm : ∀ t, m t = (g t, .ok (a t)))
    (h : ∀ p t, pre p t → ∃ p', Move around turnId (p, t) (p', g t) ∧ post (a t) p' (g t)) :
    Goes around turnId pre m post failed :=
  run hm fun p t hp => (h p t hp).imp fun _ hmove => ⟨.single hmove.1, hmove.2⟩

lemma modify {g : ActiveTurn → ActiveTurn} {post : Unit → Phase → ActiveTurn → Prop}
    (h : ∀ p t, pre p t → ∃ p', Move around turnId (p, t) (p', g t) ∧ post () p' (g t)) :
    Goes around turnId pre (Attempt.modify g : Attempt ActiveTurn ε Unit) post failed :=
  move (a := fun _ => ()) (fun _ => rfl) h

lemma ofExcept {x : Except ε α} (hok : ∀ a, x = .ok a → ∀ p t, pre p t → post a p t)
    (herror : ∀ e, x = .error e → ∀ p t, pre p t → failed e p t) :
    Goes around turnId pre (Attempt.ofExcept x : Attempt ActiveTurn ε α) post failed := fun _ =>
  .ofExcept (fun a _ hx ht => ht.mono fun p hp => hok a hx p _ hp)
    fun e _ hx ht => ht.mono fun p hp => herror e hx p _ hp

lemma ask {view : ℕ → α}
    (h : ∀ p t, pre p t → post (view t.looks) p { t with looks := t.looks + 1 }) :
    Goes around turnId pre (ActiveTurn.ask view : Attempt ActiveTurn ε α) post failed :=
  move (g := fun t => { t with looks := t.looks + 1 }) (a := fun t => view t.looks)
    (fun _ => rfl) fun p t hp => ⟨p, .tend ⟨rfl, rfl, rfl, rfl, id⟩, h p t hp⟩

lemma map {g : α → β} (h : Goes around turnId pre m (fun a => post' (g a)) failed) :
    Goes around turnId pre (g <$> m) post' failed :=
  h.bind fun _ => .pure fun _ _ hp => hp

/-- A change that others do not see. -/
lemma tend {g : ActiveTurn → ActiveTurn} {post : Unit → Phase → ActiveTurn → Prop}
    (hg : ∀ t : ActiveTurn, t.Tends (g t))
    (h : ∀ p t, pre p t → post () p (g t)) :
    Goes around turnId pre (Attempt.modify g : Attempt ActiveTurn ε Unit) post failed :=
  modify fun p t hp => ⟨p, .tend (hg t), h p t hp⟩

lemma look {post : Bool → Phase → ActiveTurn → Prop}
    (h : ∀ p t, pre p t → post (t.looked around).cancelled p (t.looked around)) :
    Goes around turnId pre (ActiveTurn.look around : Attempt ActiveTurn ε Bool) post failed :=
  move (g := looked around) (a := fun t => (t.looked around).cancelled) (fun _ => rfl)
    fun p t hp => ⟨p, .look p t, h p t hp⟩

end Goes

/-! ### Where the parts of a turn begin and end -/

/-- Nothing is under way, with a condition on the standing, and on the requests and the acts so
far. -/
def Free (c : Standing → Prop) (φ : ℕ → List Act → Prop) (p : Phase) (t : ActiveTurn) : Prop :=
  ∃ s, p = .free s ∧ c s ∧ φ t.requests t.acts

/-- Nothing is under way. -/
def Idle (p : Phase) (_ : ActiveTurn) : Prop := p = .ending ∨ ∃ s, p = .free s

/-- The token was not set at the last look. -/
def Armed (acts : List Act) : Prop := acts.getLast? = some (.looked false)

/-- Where an attempt that fails leaves a turn that had made so many requests. -/
def Left (around : Surroundings) (n : ℕ) : TurnFailure → Phase → ActiveTurn → Prop
  | .cancelled, p, t | .fatal _, p, t => Idle p t
  | .providerOverflow _, p, t | .outputTruncated _ _ _ _, p, t =>
      Free (fun s => s.mayAsk = true) (fun r _ => n < r ∧ r ≤ around.maxRequests) p t
  | .sink _, _, _ => True
  | .outOfFuel, _, _ => False

section Parts

variable {c : Standing → Prop} {φ : ℕ → List Act → Prop} {failed : ε → Phase → ActiveTurn → Prop}

lemma Free.idle {p : Phase} {t : ActiveTurn} (h : Free c φ p t) : Idle p t :=
  let ⟨s, hp, _⟩ := h
  .inr ⟨s, hp⟩

/-! ### Small parts -/

/-- A diagnostic changes nothing where nothing is under way. -/
lemma diagnose_keeps (χ : Phase → ℕ → List Act → Prop) (level : DiagnosticLevel)
    (message : String) :
    Goes around turnId (fun p t => Idle p t ∧ χ p t.requests t.acts)
      (diagnose around turnId level message) (fun _ p t => Idle p t ∧ χ p t.requests t.acts)
      failed := by
  refine .move (g := fun t => t.emitted around (some turnId) (.diagnostic level message) none)
    (a := fun _ => ()) (fun _ => rfl) fun p t ⟨hidle, hχ⟩ => ⟨p, ?_, hidle, hχ⟩
  obtain rfl | ⟨s, rfl⟩ := hidle
  · exact .noteEnding t level message
  · exact .note s t level message

lemma diagnose_goes (level : DiagnosticLevel) (message : String) :
    Goes around turnId (Free c φ) (diagnose around turnId level message) (fun _ => Free c φ)
      failed :=
  (diagnose_keeps (fun p requests acts => ∃ s, p = .free s ∧ c s ∧ φ requests acts) level
    message).weaken (fun _ _ h => ⟨h.idle, h⟩) (fun _ _ _ h => h.2) fun _ _ _ h => h

lemma diagnose_idle (level : DiagnosticLevel) (message : String) :
    Goes around turnId Idle (diagnose around turnId level message) (fun _ => Idle) failed :=
  (diagnose_keeps (fun _ _ _ => True) level message).weaken (fun _ _ h => ⟨h, trivial⟩)
    (fun _ _ _ h => h.1) fun _ _ _ h => h

/-- A prompt is recorded, and there is something new to ask. -/
lemma prompt_goes {event : AgentEvent} {text : String}
    {failed : TurnError → Phase → ActiveTurn → Prop} (hevent : event.isPrompt = true) :
    Goes around turnId (Free c φ) (record around turnId event (.user text) none)
      (fun _ => Free (· = .fresh) φ) failed := by
  intro origin t ht
  obtain ⟨loop, hok, hrecord, -⟩ := t.record_ok around turnId event (.user text) none
  rw [hrecord]
  refine ht.move fun p ⟨s, hp, hc, hφ⟩ => ?_
  subst hp
  exact ⟨_, .say hevent hok, _, rfl, rfl, hφ⟩

lemma say_goes (text : String) {failed : TurnError → Phase → ActiveTurn → Prop} :
    Goes around turnId (Free c φ) (say around turnId text) (fun _ => Free (· = .fresh) φ)
      failed := by
  rw [say]
  exact prompt_goes rfl

lemma finish_goes (status : TurnStatus) {failed : TurnError → Phase → ActiveTurn → Prop} :
    Goes around turnId Idle (finish around turnId status) (fun _ p _ => p = .over) failed := by
  rw [finish]
  refine .bind (q := fun _ => Idle) (.ask fun p t hp => hp) fun durationMs => ?_
  refine .bind (q := fun _ => Idle)
    (.tend (fun _ => ⟨rfl, rfl, rfl, rfl, id⟩) fun p t hp => hp) fun _ => ?_
  exact .move (g := fun t => t.emitted around (some turnId) (.turnCompleted status durationMs) none)
    (a := fun _ => .report) (fun _ => rfl) fun p t hp => ⟨_, .finish t status durationMs hp, rfl⟩

/-! ### The request -/

section Loop

variable {op : TurnLoop → Except TurnError (TurnLoop × α)} {t : ActiveTurn}

lemma onLoop_of_ok {loop : TurnLoop} {a : α} (h : op t.loop = .ok (loop, a)) :
    onLoop (TurnLoop.attempted op) t = ({ t with loop := loop }, .ok a) := by
  rw [onLoop, TurnLoop.attempted, h]

lemma onLoop_of_error {error : TurnError} (h : op t.loop = .error error) :
    onLoop (TurnLoop.attempted op) t =
      ({ t with loop := t.loop.normalizeMessageSeqs }, .error error) := by
  rw [onLoop, TurnLoop.attempted, h]

end Loop

/-- Operations on the window are moves. -/
lemma reshape_path {s : Standing} {t : ActiveTurn} {now : TurnLoop × ℕ}
    (h : Relation.ReflTransGen (WindowMove around turnId) (t.loop, t.historyStart) now) :
    Relation.ReflTransGen (Move around turnId) (.free s, t)
      (.free s, { t with loop := now.1, historyStart := now.2 }) := by
  induction h with
  | refl => exact .refl
  | tail _ hstep ih => exact ih.tail (.reshape hstep)

/-- `build_request` leaves a request that shows the window and fits it, or a turn that can only
end. -/
lemma buildRequest_goes (n : ℕ) :
    Goes around turnId (Free c φ) (buildRequest around turnId)
      (fun built p t => Free c φ p t ∧
        built.2.request = built.1.assembleRequest t.loop.messages ∧
          (estimateTokens built.2.request < 2 ^ 64 → FitsWindow built.1 built.2))
      (Left around n) := by
  rintro origin t ⟨p, hpath, s, rfl, hc, hφ⟩
  let asked : ActiveTurn := { t with looks := t.looks + 1 }
  let rules := asked.requestRules around (around.registry t.looks)
  have hshapes := buildRequest_shapes around turnId rules t.historyStart
    (t.loop, t.historyStart) t.loop .refl
  have honLoop : ((onLoop (TurnLoop.buildRequest around.env rules turnId t.historyStart)).mapError
      TurnFailure.ofRequest) asked =
        let run := TurnLoop.buildRequest around.env rules turnId t.historyStart t.loop
        ({ asked with loop := run.1 }, run.2.mapError TurnFailure.ofRequest) := rfl
  cases hrun : TurnLoop.buildRequest around.env rules turnId t.historyStart t.loop with
  | mk loop result =>
    rw [hrun] at hshapes
    cases result with
    | ok built =>
      obtain ⟨start, request⟩ := built
      have hok : buildRequest around turnId t =
          ({ t with loop := loop, historyStart := start, looks := t.looks + 2 },
            .ok (rules.provider, request)) := by
        rw [buildRequest]
        refine Attempt.bind_eq_ok.2 ⟨asked, _, rfl, ?_⟩
        rw [Attempt.get_bind]
        exact Attempt.bind_eq_ok.2 ⟨_, _, honLoop.trans (by rw [hrun]; rfl), rfl⟩
      obtain ⟨hshown, hfits⟩ := buildRequest_shown hrun
      rw [hok]
      exact ⟨_, (hpath.trans (reshape_path hshapes)).tail (.tend ⟨rfl, rfl, rfl, rfl, id⟩),
        ⟨s, rfl, hc, hφ⟩, hshown, hfits⟩
    | error error =>
      have herror : buildRequest around turnId t =
          ({ t with loop := loop, looks := t.looks + 1 }, .error (.ofRequest error)) := by
        rw [buildRequest]
        have hask : (ask around.registry : Attempt ActiveTurn TurnFailure ToolRegistry) t =
          (asked, .ok (around.registry t.looks)) := rfl
        refine (Attempt.bind_of_ok hask).trans ?_
        rw [Attempt.get_bind]
        exact Attempt.bind_of_error (honLoop.trans (by rw [hrun]; rfl))
      obtain ⟨left, hleft⟩ := hshapes
      rw [herror]
      refine ⟨.ending, (hpath.trans (reshape_path hleft)).tail (.abandon ⟨rfl, rfl, rfl, id⟩), ?_⟩
      cases error with
      | unavailable reason => exact .inl rfl
      | aborted kind => exact .inl rfl
      | turn error =>
        cases error with
        | sink message => trivial
        | refused message => exact .inl rfl

end Parts

/-! ### The response -/

/-- A response is streamed, with a condition on the requests so far. A response of which nothing was
seen is empty. -/
structure Streaming (ψ : ℕ → Prop) (collector : Collector) (p : Phase) (t : ActiveTurn) : Prop where
  phase : p = .streaming collector
  requests : ψ t.requests
  uncommitted : collector.committed = false → collector.calls = [] ∧ collector.content = []

variable {ψ : ℕ → Prop} {n : ℕ}

lemma count_goes {pre : Phase → ActiveTurn → Prop} (k : ℕ) (error : String) :
    Goes around turnId pre (count k error) (fun k' p t => pre p t ∧ k' = k) (Left around n) := by
  rw [count]
  refine .ofExcept (fun k' h p t hp => ⟨hp, ?_⟩) fun failure h p t _ => ?_
  · cases hcount : asU32 k error with
    | ok k'' =>
      rw [hcount] at h
      cases h
      exact (asU32_eq_ok.1 hcount).2
    | error e =>
      rw [hcount] at h
      cases h
  · rw [asU32] at h
    split_ifs at h
    · cases h
    · cases h
      trivial

lemma sendRequest_goes (provider : Backup) (request : BudgetedRequest) :
    Goes around turnId (fun p t => p = .ready provider request ∧ ψ t.requests ∧ Armed t.acts)
      (sendRequest around turnId provider request)
      (fun sent p t => Streaming ψ sent.1 p t) (Left around n) := by
  rw [sendRequest]
  refine .bind (count_goes _ _) fun messages => .bind (count_goes _ _) fun tools => ?_
  let started (t : ActiveTurn) : ActiveTurn := t.emitted around (some turnId) (.modelRequestStarted
    ⟨t.loop.epochIndex, t.loop.activeModel, messages, estimateTokens request.request, tools⟩) none
  let streamed (t : ActiveTurn) : Streamed := around.stream t.looks t.loop.activeModel request
  let collector (t : ActiveTurn) : Collector :=
    (Collector.new (started t).loop).collect around.env turnId
    (streamed t).irreversible (streamed t).arrivals
  let asked (t : ActiveTurn) : ActiveTurn :=
    { t with
      loop := (collector t).loop
      acts := t.acts ++ [.asked provider request]
      cancelled := t.cancelled || (collector t).error.isSome }
  refine .run (g := fun t => { asked t with looks := t.looks + 1 })
    (a := fun t => (collector t, streamed t)) (fun _ => rfl) fun p t hp => ?_
  obtain ⟨⟨⟨rfl, hψ, harmed⟩, -⟩, -⟩ := hp
  refine ⟨.streaming (collector t), .tail (.single (.ask (streamed t) harmed (collector t) rfl rfl))
    (.tend (t := asked t) ⟨rfl, rfl, rfl, rfl, id⟩), rfl, hψ, fun h => ?_⟩
  exact (Collector.collect_uncommitted _ h).2

/-- The standing behind calls that are closed. -/
def behind (s : Standing) (calls : List ToolCallBlock) : Standing :=
  if calls.isEmpty then s else .fresh

/-- Calls that are not executed are closed, one behind the other. -/
lemma recordUnexecutedCalls_goes {assistant : EventId} {joins kept : Bool} {s : Standing}
    (calls : List ToolCallBlock) (reason : String)
    {failed : TurnError → Phase → ActiveTurn → Prop} :
    Goes around turnId (fun p t => p = .batch assistant calls joins kept s ∧ ψ t.requests)
      (recordUnexecutedCalls around turnId assistant calls reason joins)
      (fun _ p t => p = .batch assistant [] joins kept (behind s calls) ∧ ψ t.requests) failed := by
  rw [recordUnexecutedCalls]
  induction calls generalizing s with
  | nil => exact .pure fun p t hp => hp
  | cons call calls ih =>
    refine .bind (q := fun _ p t => p = .batch assistant calls joins kept .fresh ∧ ψ t.requests)
      (fun origin t ht => ?_) fun _ => ?_
    · obtain ⟨t', hok, hcloses⟩ :=
        recordUnexecutedCall_closes around turnId assistant reason joins call t
      rw [hok]
      refine ht.move fun p ⟨hp, hψ⟩ => ?_
      subst hp
      exact ⟨_, .close hcloses, rfl, by rwa [hcloses.requests]⟩
    · refine (ih (s := .fresh)).weaken (fun _ _ h => h) (fun _ p t h => ?_) fun _ _ _ h => h
      refine ⟨h.1.trans ?_, h.2⟩
      cases calls <;> rfl

/-- A response that failed is closed: nothing is under way, and unless something of it stands in the
window, something may be asked again. -/
structure Closed (ψ : ℕ → Prop) (collector : Collector) (usage : Option CompletionUsage) (p : Phase)
    (t : ActiveTurn) : Prop where
  idle : Idle p t
  requests : ψ t.requests
  uncommitted : collector.committed = false → p = .free .silent
  limited : usage.any (·.stoppedAtOutputLimit) = true → ∃ s, p = .free s ∧ s.mayAsk = true

lemma closed_of_behind {collector : Collector} {usage : Option CompletionUsage} {p : Phase}
    {t : ActiveTurn}
    {assistant : EventId} {joins : Bool} (hjoins : joins = usage.all (!·.stoppedAtOutputLimit))
    (hempty : collector.committed = false → collector.calls = [] ∧ collector.content = [])
    (hp : p = .batch assistant [] joins (!joins)
      (behind (.after collector.showed (usage.bind (·.finishReason))) collector.calls))
    (hψ : ψ t.requests) :
    ∃ p', Move around turnId (p, t) (p', t) ∧ Closed ψ collector usage p' t := by
  cases hcalls : collector.calls with
  | nil =>
    rw [hcalls] at hp
    subst hp
    refine ⟨_, .settle (.inr ?_), .inr ⟨_, rfl⟩, hψ, fun h => ?_, fun h => ⟨_, rfl, ?_⟩⟩
    · exact Standing.after_ne_fresh
    · rw [behind, Collector.showed, (hempty h).2]
      rfl
    · cases usage with
      | none => cases h
      | some usage => exact Standing.mayAsk_after h
  | cons call calls =>
    have hcommitted : collector.committed ≠ false := fun h => by
      have hnil := (hempty h).1
      rw [hcalls] at hnil
      cases hnil
    rw [hcalls] at hp
    subst hp
    cases hall : usage.all (!·.stoppedAtOutputLimit) with
    | true =>
      rw [hjoins, hall]
      refine ⟨_, .drop, .inl rfl, hψ, fun h => absurd h hcommitted, fun h => ?_⟩
      cases usage with
      | none => cases h
      | some usage =>
        change usage.stoppedAtOutputLimit = true at h
        change (!usage.stoppedAtOutputLimit) = true at hall
        rw [h] at hall
        cases hall
    | false =>
      rw [hjoins, hall]
      exact ⟨_, .settle (.inl rfl), .inr ⟨_, rfl⟩, hψ, fun h => absurd h hcommitted,
        fun _ => ⟨_, rfl, rfl⟩⟩

lemma closeFailed_goes (collector : Collector) (streamed : Streamed) (failure : RequestFailure)
    (usage : Option CompletionUsage) :
    Goes around turnId (Streaming ψ collector)
      (closeFailed around turnId collector streamed failure usage)
      (fun _ => Closed ψ collector usage) (Left around n) := by
  rw [closeFailed]
  refine .bind (count_goes _ _) fun toolCalls => .get_bind fun now => ?_
  let joins := usage.all (!·.stoppedAtOutputLimit)
  let completed := now.completed collector streamed toolCalls (usage.bind (·.finishReason)) usage
  refine .bind (q := fun line p t => p = .batch line collector.calls joins (!joins)
    (.after collector.showed (usage.bind (·.finishReason))) ∧ ψ t.requests ∧
      (collector.committed = false → collector.calls = [] ∧ collector.content = []))
    (.move (g := fun t => t.emitted around (some turnId) (.modelRequestCompleted completed) none)
      (a := fun t => around.env.fresh t.loop.issued) (fun _ => rfl) fun p t hp => ?_) fun line => ?_
  · obtain ⟨⟨⟨rfl, hψ, hempty⟩, hcount⟩, rfl⟩ := hp
    exact ⟨_, .fail joins rfl rfl hcount, rfl, hψ, hempty⟩
  · refine .of_fact (fun p t hp => hp.2.2) fun hempty => ?_
    refine .bind (.mapError ((recordUnexecutedCalls_goes collector.calls _).before
      fun _ _ hp => ⟨hp.1, hp.2.1⟩)) fun _ => ?_
    refine .shift ((diagnose_keeps (fun p requests _ => ψ requests ∧
      (collector.committed = false → p = .free .silent) ∧
      (usage.any (·.stoppedAtOutputLimit) = true → ∃ s, p = .free s ∧ s.mayAsk = true)) _ _).weaken
        (fun p t h => ⟨h.idle, h.requests, h.uncommitted, h.limited⟩)
        (fun _ p t h => ⟨h.1, h.2.1, h.2.2.1, h.2.2.2⟩) fun _ _ _ h => h) fun p t hp =>
      closed_of_behind rfl hempty hp.1 hp.2

/-! ### Recovery -/

section Recovery

/-- The last request showed nothing. -/
def Silent (ψ : ℕ → Prop) (model : ModelRef) (p : Phase) (t : ActiveTurn) : Prop :=
  p = .free .silent ∧ ψ t.requests ∧ t.loop.activeModel = model

variable {model : ModelRef}

/-- A backup whose window is too small gets room, or the turn ends. -/
lemma rebudget_goes (backup : Backup) :
    Goes around turnId (fun p t => Silent ψ model p t ∧ Armed t.acts)
      (rebudget around turnId backup) (fun _ p t => Silent ψ model p t ∧ Armed t.acts)
      (fun _ => Idle) := by
  rintro origin t ⟨p, hpath, ⟨rfl, hψ, hmodel⟩, harmed⟩
  rw [rebudget]
  dsimp only
  rw [Attempt.get_bind]
  cases hevict : t.loop.evictOldest (around.env.toBackup backup) turnId
      (overflowRecoveryTarget backup.contextWindow) t.historyStart false with
  | ok evicted =>
    obtain ⟨loop, dropped, start⟩ := evicted
    have hmove : WindowMove around turnId (t.loop, t.historyStart) (loop, start) :=
      .evict backup hevict
    have hreach : Reach around turnId origin (fun p t => Silent ψ model p t ∧ Armed t.acts)
        { t with loop := loop, historyStart := start } :=
      ⟨_, hpath.tail (.reshape hmove),
        ⟨rfl, hψ, (TurnLoop.tells_activeModel hmove.tells).trans hmodel⟩, harmed⟩
    rw [Attempt.bind_of_ok (onLoop_of_ok hevict)]
    dsimp only
    rw [Attempt.modify_bind, Attempt.get_bind]
    split_ifs
    · exact hreach.mono fun p hp => .inr ⟨_, hp.1.1⟩
    · exact hreach
  | error error =>
    rw [Attempt.bind_of_error (onLoop_of_error hevict)]
    exact ⟨_, hpath.tail (.reshape (.normalize t.loop t.historyStart)), .inr ⟨_, rfl⟩⟩

lemma makeRoom_goes (backup : AttachedModel) (gaps : List CapabilityGap) :
    Goes around turnId (fun p t => Silent ψ model p t ∧ Armed t.acts)
      (makeRoom around turnId backup gaps) (fun _ p t => Silent ψ model p t ∧ Armed t.acts)
      (fun _ => Idle) := by
  rw [makeRoom]
  refine .bind (q := fun _ p t => Silent ψ model p t ∧ Armed t.acts) (.ask fun p t hp => hp)
    fun registry => .get_bind fun now => .ite (fun _ => ?_) fun _ => .pure fun p t hp => hp.1
  exact (rebudget_goes _).before fun _ _ hp => hp.1

/-- The other model takes over, in a new epoch. -/
lemma takeOver_goes {backup : AttachedModel} (hbackup : around.backup = some backup)
    (hother : model ≠ backup.model) (kind : ModelFailureKind) (gaps : List CapabilityGap) :
    Goes around turnId (fun p t => Silent ψ model p t ∧ Armed t.acts)
      (takeOver around turnId backup kind gaps)
      (fun _ => Free (· = .fresh) fun r acts => ψ r ∧ Armed acts) (fun _ => Idle) := by
  rw [takeOver]
  refine .bind (makeRoom_goes backup gaps) fun dropped => ?_
  refine .bind (q := fun index p t => (Silent ψ model p t ∧ Armed t.acts) ∧
    index = t.loop.epochIndex + 1) ?_ fun index => ?_
  · rw [nextEpoch]
    refine .get_bind fun now => .ite (fun _ => .fail fun p t hp => .inr ⟨_, hp.1.1.1⟩)
      fun _ => .pure fun p t hp => ⟨hp.1, by rw [hp.2]⟩
  · refine .get_bind fun now => .move (a := fun _ => ()) (fun t => rfl) fun p t hp => ?_
    obtain ⟨⟨⟨⟨rfl, hψ, rfl⟩, harmed⟩, rfl⟩, rfl⟩ := hp
    exact ⟨_, .takeOver hbackup hother rfl rfl, _, rfl, rfl, hψ, harmed⟩

/-- What is left of a request that failed: something to ask again, or nothing. -/
def Resumes (ψ : ℕ → Prop) : Action → Phase → ActiveTurn → Prop
  | .retry => Free (· = .fresh) fun r _ => ψ r
  | .takeover => Free (· = .fresh) fun r acts => ψ r ∧ Armed acts
  | .stop => Idle

/-- A look at the token that shows it unset. -/
lemma armed_looked {t : ActiveTurn} (h : (t.looked around).cancelled = false) :
    Armed (t.looked around).acts := by
  change (t.acts ++ [Act.looked (t.looked around).cancelled]).getLast? = _
  rw [List.getLast?_concat, h]

lemma refuseFailover_goes (target : ModelRef) (why : String) :
    Goes around turnId Idle (refuseFailover around turnId target why) (Resumes ψ)
      (fun _ => Idle) := by
  rw [refuseFailover]
  exact .bind (diagnose_idle _ _) fun _ => .pure fun p t hp => hp

/-- Only a failure that showed nothing is recovered from. -/
lemma recover_goes {failure : RequestFailure} :
    Goes around turnId (fun p t => Idle p t ∧ (failure.partialOutputEmitted = false →
        p = .free .silent) ∧ ψ t.requests)
      (recover around turnId failure) (Resumes ψ) (fun _ => Idle) := by
  rw [recover]
  refine .bind (q := fun cancelled p t => (Idle p t ∧ (failure.partialOutputEmitted = false →
      p = .free .silent) ∧ ψ t.requests) ∧ (cancelled = false → Armed t.acts))
    (.look fun p t hp => ⟨hp, armed_looked⟩) fun cancelled => ?_
  refine .ite (fun _ => .pure fun p t hp => hp.1.1) fun hcancelled => ?_
  have hunset : cancelled = false := by
    rw [Bool.or_eq_true, not_or] at hcancelled
    exact Bool.eq_false_of_not_eq_true hcancelled.1
  cases hdecide : around.failover.decide failure with
  | retry attempt maxAttempts =>
    obtain ⟨hshown, -⟩ := FailoverPolicy.decide_again (by rw [hdecide]; exact fun h => by cases h)
    refine .bind (q := fun _ => Resumes ψ .retry) (.move (a := fun t => around.env.fresh _)
      (fun _ => rfl) fun p t hp => ?_) fun _ => .pure fun p t hp => hp
    obtain ⟨⟨-, hsilent, hψ⟩, -⟩ := hp
    obtain rfl := hsilent hshown
    exact ⟨_, .retry t _, _, rfl, rfl, hψ⟩
  | failover target gaps =>
    obtain ⟨hshown, -⟩ := FailoverPolicy.decide_again (by rw [hdecide]; exact fun h => by cases h)
    cases hbackup : around.backup with
    | none => exact .pure fun p t hp => hp.1.1
    | some backup =>
      refine .get_bind fun now => .ite (fun _ => ?_) fun htarget =>
        .ite (fun _ => ?_) fun hother => ?_
      · exact (refuseFailover_goes _ _).before fun _ _ hp => hp.1.1.1
      · exact (refuseFailover_goes _ _).before fun _ _ hp => hp.1.1.1
      · have hmodel : now.loop.activeModel ≠ backup.model := by rwa [not_not.1 htarget]
        refine .bind ((takeOver_goes hbackup hmodel _ _).before fun p t hp => ?_)
          fun _ => .pure fun p t hp => hp
        obtain ⟨⟨⟨-, hsilent, hψ⟩, harmed⟩, rfl⟩ := hp
        exact ⟨⟨hsilent hshown, hψ, rfl⟩, harmed hunset⟩
  | refused target gaps =>
    exact (refuseFailover_goes _ _).before fun _ _ hp => hp.1.1
  | abort => exact .pure fun p t hp => hp.1.1

/-- A failed response that showed something has shown partial output. -/
lemma outcome_partial {collector : Collector} {streamed : Streamed} {failure : RequestFailure}
    {usage : Option CompletionUsage} (h : outcome collector streamed = .error (failure, usage))
    (hshown : failure.partialOutputEmitted = false) : collector.committed = false := by
  rw [outcome] at h
  split at h
  · split at h
    · rename_i failed hfailed
      cases h
      rw [CompletionUsage.failure] at hfailed
      split_ifs at hfailed <;>
      · cases hfailed
        exact hshown
    · cases h
  · cases h
    exact (Bool.or_eq_false_iff.1 hshown).2

lemma limited_of_truncation {request : BudgetedRequest} {usage : Option CompletionUsage}
    {cut : ℕ × ℕ} (h : truncation request usage = some cut) :
    usage.any (·.stoppedAtOutputLimit) = true := by
  cases usage with
  | none => cases h
  | some usage =>
    rw [truncation] at h
    obtain ⟨_, hsome, h⟩ := Option.bind_eq_some_iff.1 h
    obtain rfl := Option.some.inj hsome
    obtain ⟨requested, -, h⟩ := Option.bind_eq_some_iff.1 h
    obtain ⟨actual, -, h⟩ := Option.bind_eq_some_iff.1 h
    split_ifs at h with hcut
    exact (Bool.and_eq_true _ _ ▸ hcut).1

/-- The end of a request that failed: something to ask again, or an error of the attempt. -/
lemma afterFailure_goes {request : BudgetedRequest} {collector : Collector}
    {failure : RequestFailure} {usage : Option CompletionUsage}
    (hemitted : failure.partialOutputEmitted = false → collector.committed = false)
    (hψ : ∀ r, ψ r → n < r ∧ r ≤ around.maxRequests) :
    Goes around turnId (Closed ψ collector usage)
      (afterFailure around turnId request collector failure usage)
      (Resumes fun r => ψ r ∧ r < around.maxRequests) (Left around n) := by
  rw [afterFailure]
  refine .bind (q := fun cancelled p t => Closed ψ collector usage p t) (.look fun p t hp => ?_)
    fun cancelled => .ite (fun _ => .fail fun p t hp => hp.idle) fun _ => ?_
  · exact ⟨hp.idle, hp.requests, hp.uncommitted, hp.limited⟩
  cases htruncation : truncation request usage with
  | some cut =>
    refine .fail fun p t hp => ?_
    obtain ⟨s, hs, hask⟩ := hp.limited (limited_of_truncation htruncation)
    exact ⟨s, hs, hask, hψ _ hp.requests⟩
  | none =>
    refine .ite (fun _ => ?_) fun _ => .get_bind fun now => .ite (fun _ => ?_) fun hbudget => ?_
    · split_ifs with hshown
      · exact .fail fun p t hp => hp.idle
      · exact .fail fun p t hp =>
          ⟨_, hp.uncommitted (hemitted (Bool.eq_false_of_not_eq_true hshown)), rfl,
            hψ _ hp.requests⟩
    · exact .fail fun p t hp => hp.1.idle
    · refine .mapError ((recover_goes.before fun p t hp => ?_).weaken (fun _ _ h => h)
        (fun _ _ _ h => h) fun e p t h => ?_)
      · obtain ⟨hclosed, rfl⟩ := hp
        exact ⟨hclosed.idle, fun h => hclosed.uncommitted (hemitted h), hclosed.requests,
          not_le.1 hbudget⟩
      · cases e with
        | sink message => trivial
        | refused message => exact h

/-- A response that can be recorded. -/
structure Answered (around : Surroundings) (n : ℕ) (response : Response) (collector : Collector)
    (p : Phase) (t : ActiveTurn) : Prop where
  phase : p = .streaming collector
  requests : n < t.requests ∧ t.requests ≤ around.maxRequests
  calls : response.calls = collector.calls
  content : response.content = collector.content
  epoch : response.completion.epoch = t.loop.epochIndex
  model : response.completion.model = t.loop.activeModel
  count : response.completion.toolCalls = collector.calls.length

lemma respond_goes (collector : Collector) (streamed : Streamed) (usage : CompletionUsage)
    (hψ : ∀ r, ψ r → n < r ∧ r ≤ around.maxRequests) :
    Goes around turnId (Streaming ψ collector) (respond collector streamed usage)
      (fun response p t => ∃ collector, Answered around n response collector p t)
      (Left around n) := by
  rw [respond]
  refine .bind (count_goes _ _) fun toolCalls => .get_bind fun now => .pure fun p t hp => ?_
  obtain ⟨⟨hp, rfl⟩, rfl⟩ := hp
  exact ⟨collector, hp.phase, hψ _ hp.requests, rfl, rfl, rfl, rfl, rfl⟩

/-- An attempt ends in a response, or it leaves a turn that can go on as its failure says: requests
bound its length. -/
lemma attemptFrom_goes (fuel attempts : ℕ) :
    Goes around turnId
      (Free (fun s => s.mayAsk = true) fun r acts =>
        n ≤ r ∧ r < around.maxRequests ∧ around.maxRequests ≤ r + fuel ∧ Armed acts)
      (attemptFrom around turnId fuel attempts)
      (fun response p t => ∃ collector, Answered around n response collector p t)
      (Left around n) := by
  induction fuel generalizing attempts with
  | zero =>
    exact .fail fun p t ⟨_, _, _, _, hlt, hle, _⟩ => absurd hle (not_le.2 hlt)
  | succ fuel ih =>
    let ψ (r : ℕ) : Prop := n < r ∧ r ≤ around.maxRequests ∧ around.maxRequests ≤ r + fuel
    have hψ : ∀ r, ψ r → n < r ∧ r ≤ around.maxRequests := fun r h => ⟨h.1, h.2.1⟩
    rw [attemptFrom]
    refine .bind (buildRequest_goes n) fun built => ?_
    obtain ⟨provider, request⟩ := built
    refine .bind (q := fun _ p t => p = .ready provider request ∧ ψ t.requests ∧ Armed t.acts)
      (.modify fun p t hp => ?_) fun _ => .bind (sendRequest_goes provider request) fun sent => ?_
    · obtain ⟨⟨s, rfl, hask, hn, hlt, hle, harmed⟩, hshown, hfits⟩ := hp
      refine ⟨_, .spend hask hlt hshown hfits, rfl, ⟨Nat.lt_succ_of_le hn, hlt, ?_⟩, harmed⟩
      exact hle.trans_eq (Nat.succ_add_eq_add_succ _ _).symm
    obtain ⟨collector, streamed⟩ := sent
    dsimp only
    cases houtcome : outcome collector streamed with
    | ok usage => exact respond_goes collector streamed usage hψ
    | error failed =>
      obtain ⟨failure, usage⟩ := failed
      refine .bind (closeFailed_goes collector streamed _ usage) fun _ =>
        .bind (afterFailure_goes (fun h => outcome_partial houtcome h) hψ) fun action => ?_
      cases action with
      | retry =>
        refine .bind (q := fun cancelled => Free (fun s => s.mayAsk = true) fun r acts =>
          (ψ r ∧ r < around.maxRequests) ∧ (cancelled = false → Armed acts))
            (.look fun p t hp => ?_) fun cancelled => .ite (fun _ => ?_) fun hcancelled => ?_
        · obtain ⟨s, rfl, rfl, hr⟩ := hp
          exact ⟨_, rfl, rfl, hr, armed_looked⟩
        · exact .fail fun p t hp => hp.idle
        · refine (ih (attempts + 1)).before fun p t ⟨s, hs, hask, ⟨hr, hlt⟩, harmed⟩ => ?_
          exact ⟨s, hs, hask, hr.1.le, hlt, hr.2.2,
            harmed (Bool.eq_false_of_not_eq_true hcancelled)⟩
      | takeover =>
        refine (ih 0).before fun p t ⟨s, hs, hfresh, ⟨hr, hlt⟩, harmed⟩ => ?_
        exact ⟨s, hs, by rw [hfresh]; rfl, hr.1.le, hlt, hr.2.2, harmed⟩
      | stop => exact .fail fun p t hp => hp

lemma attempt_goes :
    Goes around turnId
      (Free (fun s => s.mayAsk = true) fun r acts => n ≤ r ∧ r < around.maxRequests ∧ Armed acts)
      (attempt around turnId)
      (fun response p t => ∃ collector, Answered around n response collector p t)
      (Left around n) := by
  rw [attempt]
  refine .get_bind fun now => (attemptFrom_goes _ 0).before fun p t hp => ?_
  obtain ⟨⟨s, hs, hask, hn, hlt, harmed⟩, rfl⟩ := hp
  exact ⟨s, hs, hask, hn, hlt, by omega, harmed⟩

end Recovery

end ActiveTurn

end Rupi
