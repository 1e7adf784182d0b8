import Rupi.Runtime.Moves

/-!
What a request does to the window.

- `Shapes`: a computation of the loop goes through operations on the window.
- `Shapes.bind`, `Shapes.attempted`, `Shapes.modify`: one rule for each construct.
- `relieve_shapes`, `fitRequest_shapes`: the halves of `build_request`.
- `buildRequest_shapes`: `build_request` goes through operations on the window, and its request
  shows what they leave.
-/

namespace Rupi

open Attempt

namespace ActiveTurn

variable {around : Surroundings} {turnId : TurnId} {ε ε' α β : Type} {start : ℕ}

/-- A computation of the loop goes through operations on the window; with a result it leaves the
start of the turn's own history that belongs to it. -/
def Shapes (around : Surroundings) (turnId : TurnId) (start : ℕ) (m : Attempt TurnLoop ε α)
    (next : α → ℕ) : Prop :=
  ∀ origin, m.Meets
    (fun loop => Relation.ReflTransGen (WindowMove around turnId) origin (loop, start))
    (fun a loop => Relation.ReflTransGen (WindowMove around turnId) origin (loop, next a))
    fun _ loop => ∃ left, Relation.ReflTransGen (WindowMove around turnId) origin (loop, left)

namespace Shapes

variable {m : Attempt TurnLoop ε α} {f : α → Attempt TurnLoop ε β} {next : α → ℕ} {next' : β → ℕ}

lemma bind (next : α → ℕ) (hm : Shapes around turnId start m next)
    (hf : ∀ a, Shapes around turnId (next a) (f a) next') :
    Shapes around turnId start (m >>= f) next' := fun origin =>
  (hm origin).bind fun a => hf a origin

lemma pure {a : α} (h : next a = start) :
    Shapes around turnId start (pure a : Attempt TurnLoop ε α) next := fun _ =>
  .pure fun loop hloop => by rwa [h]

lemma fail {e : ε} : Shapes around turnId start (fail e : Attempt TurnLoop ε α) next := fun _ =>
  .fail fun _ hloop => ⟨start, hloop⟩

lemma mapError {g : ε → ε'} (h : Shapes around turnId start m next) :
    Shapes around turnId start (m.mapError g) next := fun origin => .mapError (h origin)

lemma get_bind {f : TurnLoop → Attempt TurnLoop ε β}
    (h : ∀ loop, Shapes around turnId start (f loop) next') :
    Shapes around turnId start (get >>= f) next' :=
  fun origin loop hloop => h loop origin loop hloop

lemma ite {p : Prop} [Decidable p] {m' : Attempt TurnLoop ε α}
    (hm : p → Shapes around turnId start m next) (hm' : ¬p → Shapes around turnId start m' next) :
    Shapes around turnId start (if p then m else m') next := fun origin =>
  .ite (fun h => hm h origin) fun h => hm' h origin

/-- A change of the loop that is an operation on the window, or none. -/
lemma modify {g : TurnLoop → TurnLoop}
    (h : ∀ loop, g loop = loop ∨ WindowMove around turnId (loop, start) (g loop, start)) :
    Shapes around turnId start (Attempt.modify g : Attempt TurnLoop ε Unit) fun _ => start := by
  refine fun origin => .modify fun loop hloop => ?_
  rcases h loop with hsame | hmove
  · rwa [hsame]
  · exact hloop.tail hmove

/-- An operation of the loop that is one on the window; where it fails it does nothing. -/
lemma attempted {op : TurnLoop → Except TurnError (TurnLoop × α)}
    (h : ∀ loop loop' a, op loop = .ok (loop', a) →
      WindowMove around turnId (loop, start) (loop', next a)) :
    Shapes around turnId start (TurnLoop.attempted op) next := by
  intro origin loop hloop
  rw [TurnLoop.attempted]
  cases hop : op loop with
  | ok done =>
    obtain ⟨loop', a⟩ := done
    exact hloop.tail (h loop loop' a hop)
  | error error => exact ⟨start, hloop.tail (.normalize loop start)⟩

end Shapes

/-! ### The operations of a request -/

section Request

variable {rules : RequestRules} {target : ℕ} {reason : String} {level : ContextLevel}
  {state : ContextState}

lemma summarizeOrEvict_shapes {idle : TurnLoop → TurnLoop}
    (hidle : ∀ loop start, WindowMove around turnId (loop, start) (idle loop, start)) :
    Shapes around turnId start (TurnLoop.summarizeOrEvict (around.env.toBackup rules.provider)
      turnId start target reason idle) id := by
  rw [TurnLoop.summarizeOrEvict]
  refine .bind Prod.snd (.attempted fun _ _ _ h => .compactCycles rules.provider h)
    fun compacted => ?_
  refine .ite (fun _ => ?_) fun _ => .pure rfl
  refine .bind Prod.snd (.attempted fun _ _ _ h => .evict rules.provider h) fun evicted => ?_
  refine .bind (fun _ => evicted.2) (.modify fun loop => ?_) fun _ => .pure rfl
  split_ifs
  · exact .inr (hidle loop _)
  · exact .inl rfl

lemma compactFor_shapes :
    Shapes around turnId start (TurnLoop.compactFor (around.env.toBackup rules.provider) rules
      turnId start level reason target) id := by
  rw [TurnLoop.compactFor, TurnLoop.compactInFront]
  refine .bind Prod.snd (.ite (fun _ => .attempted fun _ _ _ h => .compactPrefix rules.provider h)
    fun _ => .pure rfl) fun compacted => ?_
  exact .ite (fun _ => summarizeOrEvict_shapes fun loop start => .note loop start _ _ (.inl rfl))
    fun _ => .pure rfl

lemma checkpointFor_shapes :
    Shapes around turnId start (TurnLoop.checkpointFor (around.env.toBackup rules.provider) rules
      turnId start state reason) id := by
  rw [TurnLoop.checkpointFor]
  refine .ite (fun _ => ?_) fun _ => ?_
  · refine .bind Prod.snd (fun origin loop hloop => ?_) fun checkpoint => ?_
    · cases hcheckpoint : loop.checkpointTurnPrefix (around.env.toBackup rules.provider) turnId
        (rules.synthesizeCapsule loop state reason) start with
      | mk loop' result =>
        cases result with
        | ok done => exact hloop.tail (.checkpoint rules.provider _ hcheckpoint)
        | error error => exact ⟨start, hloop.tail (.failedCheckpoint rules.provider _ hcheckpoint)⟩
    · obtain ⟨created, start'⟩ := checkpoint
      cases created with
      | some created =>
        exact .bind (fun _ => start') (.modify fun loop => .inr (.note loop start' _ _ (.inr rfl)))
          fun _ => .pure rfl
      | none =>
        exact .bind (fun _ => start') (.modify fun loop => .inr (.note loop start' _ _ (.inr rfl)))
          fun _ => .pure rfl
  · exact .bind (fun _ => start) (.modify fun loop => .inr (.note loop start _ _ (.inr rfl)))
      fun _ => .pure rfl

lemma refuseRequest_shapes {turn : Option TurnId} {message : String} {error : RequestError}
    {next : α → ℕ} (hturn : turn = none ∨ turn = some turnId) :
    Shapes around turnId start (TurnLoop.refuseRequest (around.env.toBackup rules.provider) turn
      message error) next := by
  rw [TurnLoop.refuseRequest]
  exact .bind (fun _ => start) (.modify fun loop => .inr (.note loop start _ _ hturn))
    fun _ => .fail

lemma relieve_shapes (action : ContextAction) :
    Shapes around turnId start (TurnLoop.relieve (around.env.toBackup rules.provider) rules turnId
      start state action) id := by
  cases action with
  | refuse reason => exact refuseRequest_shapes (.inl rfl)
  | compact level reason target => exact .mapError compactFor_shapes
  | suggestCheckpoint reason => exact .mapError checkpointFor_shapes
  | reducePayload reason =>
    exact .mapError (.get_bind fun loop =>
      summarizeOrEvict_shapes fun loop start => .note loop start _ _ (.inr rfl))
  | warn tokens threshold => exact .pure rfl
  | keep => exact .pure rfl

lemma relieved_shapes :
    Shapes around turnId start (TurnLoop.relieved (around.env.toBackup rules.provider) rules turnId
      start) id := by
  rw [TurnLoop.relieved]
  refine .get_bind fun loop => .bind (fun _ => start) (.modify fun loop => ?_) fun _ =>
    relieve_shapes _
  rw [TurnLoop.warned]
  split
  · exact .inr (.note loop start _ _ (.inr rfl))
  · exact .inl rfl

lemma fitRequest_shapes :
    Shapes around turnId start (TurnLoop.fitRequest (around.env.toBackup rules.provider) rules
      turnId start) Prod.fst := by
  rw [TurnLoop.fitRequest, TurnLoop.evictForPrompt]
  refine .bind id (.mapError (.get_bind fun loop => .ite (fun _ => ?_) fun _ => .pure rfl))
    fun start' => .get_bind fun loop => .ite (fun _ => refuseRequest_shapes (.inr rfl)) fun _ => ?_
  · exact .bind Prod.snd (.attempted fun _ _ _ h => .evict rules.provider h)
      fun evicted => .pure rfl
  · refine .bind (fun _ => start') (.modify fun loop => ?_) fun _ => .pure rfl
    rw [TurnLoop.noteReduced]
    split_ifs
    · exact .inr (.note loop start' _ _ (.inr rfl))
    · exact .inl rfl

/-- `build_request` goes through operations on the window. -/
lemma buildRequest_shapes (around : Surroundings) (turnId : TurnId) (rules : RequestRules)
    (start : ℕ) :
    Shapes around turnId start (TurnLoop.buildRequest around.env rules turnId start) Prod.fst := by
  have hrefuse : ∀ message error, Shapes around turnId start (TurnLoop.refuseRequest around.env
      (some turnId) message error : Attempt TurnLoop RequestError (ℕ × BudgetedRequest)) Prod.fst :=
    fun message error => .bind (fun _ => start)
      (.modify fun loop => .inr (.note loop start _ _ (.inr rfl)))
      fun _ => .fail
  rw [TurnLoop.buildRequest]
  exact .ite (fun _ => hrefuse _ _) fun _ => .ite (fun _ => hrefuse _ _) fun _ =>
    .bind id relieved_shapes fun _ => fitRequest_shapes

/-- The request shows what the operations leave of the window, and fits it. -/
lemma buildRequest_shown {env : Env} {loop loop' : TurnLoop} {start' : ℕ}
    {request : BudgetedRequest}
    (h : TurnLoop.buildRequest env rules turnId start loop = (loop', .ok (start', request))) :
    request.request = rules.provider.assembleRequest loop'.messages ∧
      (estimateTokens request.request < 2 ^ 64 → FitsWindow rules.provider request) := by
  rw [TurnLoop.buildRequest] at h
  split_ifs at h
  · cases h
  · cases h
  obtain ⟨mid, start'', -, hfit⟩ := Attempt.bind_eq_ok.1 h
  exact ⟨(TurnLoop.fitRequest_ok hfit).1, TurnLoop.fitRequest_fits hfit⟩

end Request

end ActiveTurn

end Rupi
