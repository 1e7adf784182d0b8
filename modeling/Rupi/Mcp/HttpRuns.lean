import Rupi.Lib.Tickets
import Rupi.Mcp.HttpTransport

/-!
Exchanges over HTTP never cross, and when a dead transport stays dead.

- `HttpTransport.Safe`: a result is that of the call's own response, every call has one response
  and posts once, and the flag of a dead transport is down.
- `HttpTransport.Fair`: a call is refused only by a dead transport.
- `HttpTransport.Clear`: nobody looks at the flag while a cancelled call has it down, and no
  cancelled call raises the flag of a dead transport.
- `HttpTransport.exchanges_safe_of_clear`: the first two, in every run whose steps all meet the third.
-/

namespace Rupi

open Run Tickets

/-- The worker has not posted its request. -/
def HttpWorker.unposted : HttpWorker → Bool
  | checkSize | checkAlive | post => true
  | _ => false

/-- The results that a worker has in hand. -/
def HttpWorker.results : HttpWorker → List (Except McpError Value)
  | report result => [result]
  | _ => []

namespace HttpCall

/-- The id that the call has taken. -/
def id? : HttpCall → Option Nat
  | prepare id _ | waiting id _ _ | lowering id _ _ | stopped id _ _ _ | restoring id _ => some id
  | returned id _ => id
  | _ => none

/-- The request of the call was not posted. -/
def unposted : HttpCall → Bool
  | waiting _ _ worker | lowering _ _ worker | stopped _ _ worker _ => worker.unposted
  | restoring _ _ | returned _ _ => false
  | _ => true

/-- The results that a call and its worker have in hand. -/
def results : HttpCall → List (Except McpError Value)
  | waiting _ _ worker | lowering _ _ worker => worker.results
  | stopped _ _ worker (.give result) => result :: worker.results
  | stopped _ _ worker _ => worker.results
  | returned _ result => [result]
  | _ => []

/-- The worker of the call. -/
def worker? : HttpCall → Option HttpWorker
  | waiting _ _ worker | stopped _ _ worker _ => some worker
  | _ => none

/-- The call has not looked at the flag, or has returned without an id. -/
def quiet : HttpCall → Bool
  | idle | checkAlive _ | returned none _ => true
  | _ => false

end HttpCall

namespace HttpTransport

variable (json : JsonReader) (s : HttpTransport)

/-- The call got an HTTP response from which the value was decoded. -/
def Answered (call id : Nat) (value : Value) : Prop :=
  ∃ http, (call, http) ∈ s.exchanges ∧ decodeHttpResponse json http id = .ok value

/-- The call got an HTTP response that holds a well-formed response with the id and the value. -/
def AnsweredWell (call id : Nat) (value : Value) : Prop :=
  ∃ http body response, (call, http) ∈ s.exchanges ∧ httpValue json http id = .ok body ∧
    JsonRpcResponse.decode body = some response ∧ response.WellFormed ∧
    response.id.asNat = some id ∧ response.result = some value

/-- What holds in a state, whatever happened before. -/
structure Safe : Prop where
  own : ∀ call id value, s.calls call = .returned id (.ok value) →
    ∃ i, id = some i ∧ s.AnsweredWell json call i value
  apart : (s.exchanges.map Prod.fst).Nodup
  ids : ∀ call call' id, (s.calls call).id? = some id → (s.calls call').id? = some id →
    call = call'
  once : (s.sent.map Prod.fst).Nodup ∧ (s.sent.map Prod.snd).Nodup
  down : s.dead = true → s.alive = false

/-- The next step looks at the flag. -/
def looks : HttpInput → Bool
  | .go call _ => (s.calls call matches .checkAlive _)
  | .work call _ => ((s.calls call).worker? matches some .checkAlive)
  | _ => false

/-- The next step raises the flag behind a cancelled exchange. -/
def raises : HttpInput → Bool
  | .go call _ => (s.calls call matches .restoring _ _)
  | _ => false

/-- What holds of a step: whoever finds the flag down meets a dead transport. -/
def Fair (input : HttpInput) : Prop :=
  s.looks input = true → s.alive = false → s.dead = true

/-- Nobody looks at the flag while a cancelled call has it down, unless the transport is dead
anyway; and no cancelled call raises the flag of a dead transport. -/
def Clear (input : HttpInput) : Prop :=
  (s.looks input = true → s.dead = true ∨ s.torn = []) ∧ (s.raises input = true → s.dead = false)

instance (input : HttpInput) : Decidable (s.Clear input) :=
  inferInstanceAs (Decidable (_ ∧ _))

/-- The invariant of a run. -/
structure Inv : Prop where
  issued : Issued HttpCall.id? s.nextId s.calls
  answers : ∀ call value,
    .ok value ∈ (s.calls call).results ∨ s.channels call = some (.ok value) →
      ∃ id, (s.calls call).id? = some id ∧ s.Answered json call id value
  wrote : (s.sent.map Prod.fst).Nodup
  sent : ∀ call id, (call, id) ∈ s.sent →
    (s.calls call).id? = some id ∧ (s.calls call).unposted = false
  exchanged : (s.exchanges.map Prod.fst).Nodup ∧
    s.exchanges.map Prod.fst ⊆ s.sent.map Prod.fst
  down : s.dead = true → s.alive = false
  reason : s.alive = false → s.dead = true ∨ s.torn ≠ []

variable {json} {s} {call : Nat} {stage : HttpCall}

@[simp] lemma goto_self (s : HttpTransport) (call : Nat) (stage : HttpCall) :
    (s.goto call stage).calls call = stage :=
  Function.update_self _ _ _

lemma goto_other (s : HttpTransport) {other : Nat} (h : other ≠ call) (stage : HttpCall) :
    (s.goto call stage).calls other = s.calls other :=
  Function.update_of_ne h _ _

/-! ### What one operation keeps -/

/-- A thread goes on and changes nothing else that the invariant is about. -/
lemma Inv.goto (h : s.Inv json) (hid : stage.id? = (s.calls call).id?)
    (hunposted : stage.unposted = true → (s.calls call).unposted = true)
    (hresults : ∀ value, .ok value ∈ stage.results →
      ∃ id, (s.calls call).id? = some id ∧ s.Answered json call id value) :
    (s.goto call stage).Inv json := by
  have hid' : ∀ other, ((s.goto call stage).calls other).id? = (s.calls other).id? := by
    intro other
    by_cases ho : other = call
    · rw [ho, goto_self, hid]
    · rw [goto_other s ho]
  refine ⟨h.issued.keep hid, ?_, h.wrote, ?_, h.exchanged, h.down, h.reason⟩
  · intro other value ho
    rw [hid']
    by_cases hc : other = call
    · subst hc
      rcases ho with hstage | hchannel
      · exact hresults value (by simpa using hstage)
      · exact h.answers other value (.inr hchannel)
    · rw [goto_other s hc] at ho
      exact h.answers other value ho
  · intro other id ho
    refine ⟨(hid' other).trans (h.sent other id ho).1, ?_⟩
    by_cases hc : other = call
    · subst hc
      have hlate := (h.sent other id ho).2
      by_contra hstage
      rw [hunposted (by simpa using hstage)] at hlate
      cases hlate
    · rw [goto_other s hc]
      exact (h.sent other id ho).2

/-- A thread goes on with the results that it had in hand. -/
lemma Inv.advance (h : s.Inv json) (hid : stage.id? = (s.calls call).id?)
    (hunposted : stage.unposted = true → (s.calls call).unposted = true)
    (hresults : ∀ value, .ok value ∈ stage.results → .ok value ∈ (s.calls call).results ∨
      s.channels call = some (.ok value)) : (s.goto call stage).Inv json :=
  h.goto hid hunposted fun value hvalue => h.answers call value (hresults value hvalue)

/-- The flag changes for a reason. -/
lemma Inv.flag (h : s.Inv json) {alive dead : Bool} {torn : List Nat}
    (hdown : dead = true → alive = false) (hreason : alive = false → dead = true ∨ torn ≠ []) :
    Inv json { s with alive := alive, dead := dead, torn := torn } :=
  ⟨h.issued, h.answers, h.wrote, h.sent, h.exchanged, hdown, hreason⟩

/-- A call takes the next id. -/
lemma Inv.takeId (h : s.Inv json) {request : McpRequest} (hcall : s.calls call = .takeId request) :
    (HttpTransport.goto { s with nextId := s.nextId + 1 } call
      (.prepare s.nextId request)).Inv json := by
  have hne : ∀ {other}, (s.calls other).id? ≠ none → other ≠ call := by
    rintro other ho rfl
    rw [hcall] at ho
    exact ho rfl
  have hkeep : ∀ other, (s.calls other).id? ≠ none →
      (HttpTransport.goto { s with nextId := s.nextId + 1 } call
        (.prepare s.nextId request)).calls other = s.calls other :=
    fun other ho => goto_other _ (hne ho) _
  refine ⟨h.issued.issue rfl, ?_, h.wrote, ?_, h.exchanged, h.down, h.reason⟩
  · intro other value ho
    by_cases hc : other = call
    · subst hc
      rcases ho with hstage | hchannel
      · rw [goto_self] at hstage
        cases hstage
      · obtain ⟨id, hid, -⟩ := h.answers other value (.inr hchannel)
        rw [hcall] at hid
        cases hid
    · rw [goto_other _ hc] at ho ⊢
      exact h.answers other value ho
  · intro other id ho
    have hold := h.sent other id ho
    rw [hkeep other (by rw [hold.1]; simp)]
    exact hold

/-- A worker posts the request of its call, and gets a response or none. -/
lemma Inv.post (h : s.Inv json) {id : Nat} (got : Option HttpResponse)
    (hid : (s.calls call).id? = some id) (hbefore : (s.calls call).unposted = true)
    (hstage : stage.id? = some id) (hafter : stage.unposted = false)
    (hresults : ∀ value, .ok value ∈ stage.results → .ok value ∈ (s.calls call).results ∨
      ∃ http ∈ got, decodeHttpResponse json http id = .ok value) :
    (HttpTransport.goto { s with
      sent := s.sent ++ [(call, id)]
      exchanges := s.exchanges ++ got.toList.map fun http => (call, http) } call stage).Inv json := by
  have hnew : call ∉ s.sent.map Prod.fst := by
    intro hmem
    obtain ⟨⟨other, i⟩, hsent, rfl⟩ := List.mem_map.1 hmem
    rw [(h.sent other i hsent).2] at hbefore
    cases hbefore
  have hmono : ∀ {other i value}, s.Answered json other i value →
      (HttpTransport.goto { s with
        sent := s.sent ++ [(call, id)]
        exchanges := s.exchanges ++ got.toList.map fun http => (call, http) } call stage).Answered
          json other i value :=
    fun ⟨http, hmem, hdecode⟩ => ⟨http, List.mem_append_left _ hmem, hdecode⟩
  refine ⟨h.issued.keep (hstage.trans hid.symm), ?_, ?_, ?_, ⟨?_, ?_⟩, h.down, h.reason⟩
  · intro other value ho
    by_cases hc : other = call
    · subst hc
      rw [goto_self] at ho ⊢
      refine ⟨id, hstage, ?_⟩
      have hold : .ok value ∈ (s.calls other).results ∨ s.channels other = some (.ok value) →
          s.Answered json other id value := by
        intro hvalue
        obtain ⟨i, hi, hanswer⟩ := h.answers other value hvalue
        cases hid.symm.trans hi
        exact hanswer
      rcases ho with hresult | hchannel
      · rcases hresults value hresult with hvalue | ⟨http, hgot, hdecode⟩
        · exact hmono (hold (.inl hvalue))
        · refine ⟨http, List.mem_append_right _ ?_, hdecode⟩
          cases hgot
          exact List.mem_singleton_self _
      · exact hmono (hold (.inr hchannel))
    · rw [goto_other _ hc] at ho ⊢
      obtain ⟨i, hi, hanswer⟩ := h.answers other value ho
      exact ⟨i, hi, hmono hanswer⟩
  · change ((s.sent ++ [(call, id)]).map Prod.fst).Nodup
    rw [List.map_append]
    exact List.nodup_append'.2 ⟨h.wrote, List.nodup_singleton _, List.disjoint_singleton.2 hnew⟩
  · intro other i ho
    rcases List.mem_append.1 ho with hold | hnow
    · have hc : other ≠ call := by
        rintro rfl
        exact hnew (List.mem_map_of_mem hold)
      rw [goto_other _ hc]
      exact h.sent other i hold
    · cases List.mem_singleton.1 hnow
      rw [goto_self]
      exact ⟨hstage, hafter⟩
  · have hfresh : call ∉ s.exchanges.map Prod.fst := fun hmem => hnew (h.exchanged.2 hmem)
    change ((s.exchanges ++ got.toList.map fun http => (call, http)).map Prod.fst).Nodup
    rw [List.map_append]
    cases got with
    | none => simpa using h.exchanged.1
    | some http =>
      exact List.nodup_append'.2 ⟨h.exchanged.1, List.nodup_singleton _,
        List.disjoint_singleton.2 hfresh⟩
  · change (s.exchanges ++ got.toList.map fun http => (call, http)).map Prod.fst ⊆
      (s.sent ++ [(call, id)]).map Prod.fst
    rw [List.map_append, List.map_append]
    refine List.append_subset.2 ⟨fun c hc => List.mem_append_left _ (h.exchanged.2 hc), fun c hc => ?_⟩
    refine List.mem_append_right _ ?_
    cases got with
    | none => cases hc
    | some http => exact hc

/-- A worker reports a result that it had in hand. -/
lemma Inv.report (h : s.Inv json) {result : Except McpError Value}
    (hmem : result ∈ (s.calls call).results) (hid : stage.id? = (s.calls call).id?)
    (hunposted : stage.unposted = false)
    (hresults : stage.results ⊆ (s.calls call).results) :
    (HttpTransport.goto { s with channels := Function.update s.channels call (some result) } call
      stage).Inv json := by
  have hstage : (s.goto call stage).Inv json := by
    refine h.advance hid (fun hu => ?_) fun value hvalue => .inl (hresults hvalue)
    rw [hunposted] at hu
    cases hu
  refine ⟨hstage.issued, ?_, h.wrote, hstage.sent, h.exchanged, h.down, h.reason⟩
  rintro other value (ho | ho)
  · exact hstage.answers other value (.inl ho)
  · by_cases hc : other = call
    · subst hc
      simp only [HttpTransport.goto, Function.update_self] at ho
      cases ho
      obtain ⟨id, hcall, hanswer⟩ := h.answers other value (.inl hmem)
      exact ⟨id, by rw [goto_self, hid, hcall], hanswer⟩
    · simp only [HttpTransport.goto, Function.update_of_ne hc] at ho
      exact hstage.answers other value (.inr ho)

/-- **One operation of a worker.** -/
lemma Inv.workerStep (h : s.Inv json) {id : Nat} {request : McpRequest} {torn : Bool}
    {at' : HttpWorker → HttpCall} {worker : HttpWorker} (held : List (Except McpError Value))
    (event : HttpWorkerEvent) (hcall : s.calls call = at' worker)
    (hid : ∀ worker, (at' worker).id? = some id)
    (hunposted : ∀ worker, (at' worker).unposted = worker.unposted)
    (hresults : ∀ worker, (at' worker).results = held ++ worker.results) :
    (s.workerStep json call id request torn at' event worker).Inv json := by
  have hcallId : (s.calls call).id? = some id := by rw [hcall, hid]
  have hgoto : ∀ worker', (worker'.unposted = true → worker.unposted = true) →
      (∀ value, .ok value ∉ worker'.results) → (s.goto call (at' worker')).Inv json := by
    intro worker' hu hr
    refine h.advance ((hid worker').trans hcallId.symm) (fun hu' => ?_) fun value hvalue => .inl ?_
    · rw [hcall, hunposted]
      exact hu (by rwa [hunposted] at hu')
    · rw [hcall, hresults]
      rw [hresults, List.mem_append] at hvalue
      exact List.mem_append_left _ (hvalue.resolve_right (hr value))
  -- the outcomes of a post that bring no response
  have hpost : ∀ worker', worker.unposted = true → worker'.unposted = false →
      (∀ value, .ok value ∉ worker'.results) →
      (HttpTransport.goto { s with sent := s.sent ++ [(call, id)] } call (at' worker')).Inv json := by
    intro worker' hbefore hafter hr
    have hstep := h.post none hcallId (by rw [hcall, hunposted]; exact hbefore) (hid worker')
      (by rw [hunposted]; exact hafter) fun value hvalue => .inl (by
        rw [hcall, hresults]
        rw [hresults, List.mem_append] at hvalue
        exact List.mem_append_left _ (hvalue.resolve_right (hr value)))
    simpa using hstep
  unfold HttpTransport.workerStep
  by_cases hended : worker.ended = true
  · rwa [if_pos hended]
  rw [if_neg hended]
  by_cases hpanic : event = .panic
  · rw [if_pos hpanic]
    exact hgoto .panicked (fun hu => nomatch hu) fun _ hr => nomatch hr
  rw [if_neg hpanic]
  cases worker with
  | checkSize =>
    dsimp only
    split_ifs
    · exact hgoto _ (fun hu => nomatch hu) fun _ hr => by simp [HttpWorker.results] at hr
    · exact hgoto .checkAlive (fun _ => rfl) fun _ hr => nomatch hr
  | checkAlive =>
    dsimp only
    split_ifs
    · exact hgoto .post (fun _ => rfl) fun _ hr => nomatch hr
    · exact hgoto _ (fun hu => nomatch hu) fun _ hr => by simp [HttpWorker.results] at hr
  | post =>
    cases event with
    | response response =>
      refine h.post (some response) hcallId (by rw [hcall, hunposted]; rfl) (hid _)
        (by rw [hunposted]; rfl) fun value hvalue => ?_
      rw [hresults, List.mem_append] at hvalue
      rcases hvalue with hold | hnew
      · exact .inl (by rw [hcall, hresults]; exact List.mem_append_left _ hold)
      · exact .inr ⟨response, rfl, (List.mem_singleton.1 hnew).symm⟩
    | status message =>
      exact hpost _ rfl rfl fun _ hr => by simp [HttpWorker.results] at hr
    | failure message => exact hpost _ rfl rfl fun _ hr => nomatch hr
    | ready | timeout => exact hpost _ rfl rfl fun _ hr => by simp [HttpWorker.results] at hr
    | panic => exact absurd rfl hpanic
  | lowering message torn =>
    have hflag : Inv json { s with
        alive := false, dead := s.dead || !torn, torn := if torn then s.torn ++ [call] else s.torn } := by
      refine h.flag (fun _ => rfl) fun _ => ?_
      cases torn <;> simp
    refine hflag.advance ((hid _).trans hcallId.symm) (fun hu => ?_) fun value hvalue => .inl ?_
    · rw [hunposted] at hu
      cases hu
    · rw [hresults, List.mem_append] at hvalue
      have hold := hvalue.resolve_right fun hr => by simp [HttpWorker.results] at hr
      change _ ∈ (s.calls call).results
      rw [hcall, hresults]
      exact List.mem_append_left _ hold
  | report result =>
    refine h.report ?_ ((hid _).trans hcallId.symm) (by rw [hunposted]; rfl) ?_
    · rw [hcall, hresults]
      exact List.mem_append_right _ (List.mem_singleton_self _)
    · rw [hcall, hresults, hresults]
      exact fun r hr => List.mem_append_left _ (by simpa [HttpWorker.results] using hr)
  | done | panicked => exact h

/-- **One operation of a call.** -/
lemma Inv.callStep (h : s.Inv json) (call : Nat) (event : CallEvent)
    (hclear : s.Clear (.go call event)) : (s.callStep call event).Inv json := by
  rw [HttpTransport.callStep]
  split
  case h_1 => exact h
  case h_2 => exact h
  case h_3 request hcall =>
    split_ifs
    · exact h.advance (by rw [hcall]; rfl) (fun _ => by rw [hcall]; rfl) fun _ hr => nomatch hr
    · exact h.advance (by rw [hcall]; rfl) (fun hu => nomatch hu) fun _ hr => by simp [HttpCall.results] at hr
  case h_4 request hcall =>
    split
    · exact h.advance (by rw [hcall]; rfl) (fun hu => nomatch hu) fun _ hr => by simp [HttpCall.results] at hr
    · exact h.advance (by rw [hcall]; rfl) (fun hu => nomatch hu) fun _ hr => by simp [HttpCall.results] at hr
    · exact h.advance (by rw [hcall]; rfl) (fun _ => by rw [hcall]; rfl) fun _ hr => nomatch hr
  case h_5 request hcall =>
    split_ifs
    · exact h.takeId hcall
    · exact h.advance (by rw [hcall]; rfl) (fun hu => nomatch hu) fun _ hr => by simp [HttpCall.results] at hr
  case h_6 id request hcall =>
    split
    · exact h.advance (by rw [hcall]; rfl) (fun hu => nomatch hu) fun _ hr => by simp [HttpCall.results] at hr
    · exact h.advance (by rw [hcall]; rfl) (fun _ => by rw [hcall]; rfl) fun _ hr => nomatch hr
  case h_7 id request worker hcall =>
    split
    · exact h.advance (by rw [hcall]; rfl) (fun hu => by rw [hcall]; exact hu) fun _ hr => .inl (by rw [hcall]; exact hr)
    · exact h.advance (by rw [hcall]; rfl) (fun hu => by rw [hcall]; exact hu) fun _ hr => .inl (by rw [hcall]; exact hr)
    · cases hchannel : s.channels call with
      | some result =>
        refine h.advance (by rw [hcall]; rfl) (fun hu => by rw [hcall]; exact hu) fun value hr => ?_
        rcases List.mem_cons.1 hr with hnow | hold
        · exact .inr (by rw [hchannel, hnow])
        · exact .inl (by rw [hcall]; exact hold)
      | none =>
        dsimp only
        split_ifs
        · exact h.advance (by rw [hcall]; rfl) (fun hu => by rw [hcall]; exact hu) fun _ hr => .inl (by rw [hcall]; exact hr)
        · exact h
  case h_8 id request worker hcall =>
    have hflag : Inv json { s with alive := false, dead := true, torn := s.torn } :=
      h.flag (fun _ => rfl) fun _ => .inl rfl
    refine hflag.advance (by rw [hcall]; rfl) (fun hu => by rw [hcall]; exact hu) fun value hr => .inl ?_
    rw [hcall]
    exact (List.mem_cons.1 hr).resolve_left (by simp)
  case h_9 id request worker after hcall =>
    split_ifs
    · cases after with
      | restore error =>
        exact h.advance (by rw [hcall]; rfl) (fun hu => nomatch hu) fun _ hr => nomatch hr
      | give result =>
        refine h.advance (by rw [hcall]; rfl) (fun hu => nomatch hu) fun value hr => .inl ?_
        rw [hcall]
        exact List.mem_cons.2 (.inl (List.mem_singleton.1 hr))
    · exact h
  case h_10 id error hcall =>
    have hdead : s.dead = false := hclear.2 (by rw [raises, hcall])
    have hflag : Inv json { s with alive := true, dead := s.dead, torn := s.torn.filter (· ≠ call) } :=
      h.flag (fun hd => by rw [hdead] at hd; cases hd) fun ha => nomatch ha
    exact hflag.advance (by rw [hcall]; rfl) (fun hu => nomatch hu) fun _ hr => by
      simp [HttpCall.results] at hr

/-! ### Runs -/

/-- **One step of the whole.** -/
theorem Inv.step (h : s.Inv json) {input : HttpInput} (hclear : s.Clear input) :
    (s.step json input).Inv json := by
  cases input with
  | begin call request =>
    rw [HttpTransport.step]
    split
    case h_1 hcall =>
      have hbegun : Inv json { s with begun := s.begun ++ [call] } :=
        ⟨h.issued, h.answers, h.wrote, h.sent, h.exchanged, h.down, h.reason⟩
      exact hbegun.advance (by rw [hcall]; rfl) (fun _ => by rw [hcall]; rfl) fun _ hr => nomatch hr
    case h_2 => exact h
  | go call event => exact h.callStep call event hclear
  | work call event =>
    rw [HttpTransport.step]
    split
    case h_1 id request worker hcall =>
      exact h.workerStep [] event hcall (fun _ => rfl) (fun _ => rfl) fun _ => rfl
    case h_2 id request worker after hcall =>
      cases after with
      | restore error =>
        exact h.workerStep [] event hcall (fun _ => rfl) (fun _ => rfl) fun _ => rfl
      | give result =>
        exact h.workerStep [result] event hcall (fun _ => rfl) (fun _ => rfl) fun _ => rfl
    case h_3 => exact h
  | notify posted =>
    rw [HttpTransport.step]
    split_ifs
    · exact h.flag (fun _ => rfl) fun _ => .inl rfl
    · exact h
  | close =>
    rw [HttpTransport.step]
    split_ifs
    · exact h.flag (fun _ => rfl) fun _ => .inl rfl
    · exact h

lemma inv_new (json : JsonReader) : new.Inv json where
  issued := ⟨fun _ _ h => (nomatch h), fun _ _ _ h => (nomatch h)⟩
  answers _ _ h := h.elim (fun h => nomatch h) fun h => nomatch h
  wrote := List.nodup_nil
  sent _ _ h := nomatch h
  exchanged := ⟨List.nodup_nil, List.nil_subset _⟩
  down h := nomatch h
  reason h := nomatch h

lemma Inv.safe (h : s.Inv json) : s.Safe json where
  own call id value hcall := by
    obtain ⟨i, hi, hanswer⟩ := h.answers call value
      (.inl (by rw [hcall]; exact List.mem_singleton_self _))
    rw [hcall] at hi
    obtain ⟨http, hmem, hdecode⟩ := hanswer
    obtain ⟨body, response, hanswer⟩ := decodeHttpResponse_eq_ok hdecode
    exact ⟨i, hi, http, body, response, hmem, hanswer⟩
  apart := h.exchanged.1
  ids := h.issued.distinct
  once := ⟨h.wrote, h.issued.nodup_snd h.wrote fun call id hsent => (h.sent call id hsent).1⟩
  down := h.down

lemma Inv.fair (h : s.Inv json) {input : HttpInput} (hclear : s.Clear input) : s.Fair input := by
  intro hlooks halive
  rcases hclear.1 hlooks with hdead | htorn
  · exact hdead
  · exact (h.reason halive).resolve_right fun hne => hne htorn

lemma inv_run {inputs : List HttpInput} (hclear : Along (step json) Clear new inputs) :
    (run (step json) new inputs).Inv json :=
  hclear.invariant (fun _ _ h hc => Inv.step h hc) (inv_new json)

/-- **Exchanges over HTTP never cross, and only a dead transport refuses**, in every run in
which nobody looks at the flag while a cancelled call has it down, and no cancelled call raises
the flag of a dead transport. -/
theorem exchanges_safe_of_clear (json : JsonReader) (inputs : List HttpInput)
    (hclear : Along (step json) Clear new inputs) :
    (run (step json) new inputs).Safe json ∧ Along (step json) Fair new inputs :=
  ⟨(inv_run hclear).safe,
    hclear.strengthen (fun _ _ h hc => ⟨Inv.step h hc, Inv.fair h hc⟩) (inv_new json)⟩

/-! ### After the end -/

lemma dead_callStep (call : Nat) (event : CallEvent) (h : s.dead = true) :
    (s.callStep call event).dead = true := by
  rw [HttpTransport.callStep]
  repeat' split
  all_goals first | exact h | rfl

lemma dead_workerStep {id : Nat} {request : McpRequest} {torn : Bool}
    {at' : HttpWorker → HttpCall} {worker : HttpWorker} (event : HttpWorkerEvent)
    (h : s.dead = true) : (s.workerStep json call id request torn at' event worker).dead = true := by
  unfold HttpTransport.workerStep
  dsimp only
  repeat' split
  all_goals first | exact h | simp [HttpTransport.goto, h]

/-- A dead transport stays dead. -/
lemma dead_step (json : JsonReader) (input : HttpInput) (h : s.dead = true) :
    (s.step json input).dead = true := by
  cases input with
  | begin call request =>
    rw [HttpTransport.step]
    split <;> exact h
  | go call event => exact dead_callStep call event h
  | work call event =>
    rw [HttpTransport.step]
    split
    · exact dead_workerStep event h
    · exact dead_workerStep event h
    · exact h
  | notify posted =>
    rw [HttpTransport.step]
    split <;> first | exact h | rfl
  | close =>
    rw [HttpTransport.step]
    split <;> first | exact h | rfl

/-- A call changes its own stage and posts nothing. -/
lemma callStep_other (call : Nat) (event : CallEvent) {other : Nat} (ho : other ≠ call) :
    (s.callStep call event).calls other = s.calls other := by
  rw [HttpTransport.callStep]
  repeat' split
  all_goals first | rfl | exact goto_other _ ho _

lemma sent_callStep (call : Nat) (event : CallEvent) : (s.callStep call event).sent = s.sent := by
  rw [HttpTransport.callStep]
  repeat' split
  all_goals rfl

/-- A worker changes the stage of its call, and posts only for it. -/
lemma workerStep_other {id : Nat} {request : McpRequest} {torn : Bool}
    {at' : HttpWorker → HttpCall} {worker : HttpWorker} (event : HttpWorkerEvent) {other : Nat}
    (ho : other ≠ call) :
    (s.workerStep json call id request torn at' event worker).calls other = s.calls other ∧
      (other ∈ (s.workerStep json call id request torn at' event worker).sent.map Prod.fst →
        other ∈ s.sent.map Prod.fst) := by
  have hsent : other ∈ (s.sent ++ [(call, id)]).map Prod.fst → other ∈ s.sent.map Prod.fst := by
    intro hmem
    rw [List.map_append, List.mem_append] at hmem
    exact hmem.resolve_right fun hc => ho (List.mem_singleton.1 hc)
  unfold HttpTransport.workerStep
  dsimp only
  repeat' split
  all_goals first
    | exact ⟨rfl, fun h => h⟩
    | exact ⟨goto_other _ ho _, fun h => h⟩
    | exact ⟨goto_other _ ho _, hsent⟩

/-- The transport is dead, and the call has not looked at the flag yet or has found it down. -/
structure Silent (s : HttpTransport) (call : Nat) : Prop where
  dead : s.dead = true
  sent : call ∉ s.sent.map Prod.fst
  quiet : (s.calls call).quiet = true

lemma Silent.callStep (h : s.Silent call) (hdown : s.alive = false) (other : Nat)
    (event : CallEvent) : (s.callStep other event).Silent call := by
  refine ⟨dead_callStep other event h.dead, by rw [sent_callStep]; exact h.sent, ?_⟩
  by_cases ho : call = other
  · subst ho
    have hquiet := h.quiet
    cases hcall : s.calls call with
    | checkAlive request =>
      simp only [HttpTransport.callStep, hcall, hdown, Bool.false_eq_true, if_false, goto_self]
      rfl
    | idle | returned => simpa [HttpTransport.callStep, hcall] using hquiet
    | _ => rw [hcall] at hquiet; cases hquiet
  · rw [callStep_other other event ho]
    exact h.quiet

lemma Silent.step (h : s.Silent call) (hdown : s.alive = false) (json : JsonReader)
    (input : HttpInput) : (s.step json input).Silent call := by
  have hdead := dead_step json input h.dead
  cases input with
  | go other event => exact h.callStep hdown other event
  | begin other request =>
    refine ⟨hdead, ?_, ?_⟩
    · rw [HttpTransport.step]
      split <;> exact h.sent
    · rw [HttpTransport.step]
      split
      · by_cases ho : call = other
        · rw [ho, goto_self]
          rfl
        · rw [goto_other _ ho]
          exact h.quiet
      · exact h.quiet
  | work other event =>
    by_cases ho : call = other
    · subst ho
      have hquiet := h.quiet
      rw [HttpTransport.step]
      cases hcall : s.calls call with
      | waiting | stopped => rw [hcall] at hquiet; cases hquiet
      | _ => exact h
    · refine ⟨hdead, ?_, ?_⟩
      · rw [HttpTransport.step]
        split
        · exact fun hmem => h.sent ((workerStep_other event ho).2 hmem)
        · exact fun hmem => h.sent ((workerStep_other event ho).2 hmem)
        · exact h.sent
      · rw [HttpTransport.step]
        split
        · rw [(workerStep_other event ho).1]
          exact h.quiet
        · rw [(workerStep_other event ho).1]
          exact h.quiet
        · exact h.quiet
  | notify | close =>
    refine ⟨hdead, ?_, ?_⟩ <;> rw [HttpTransport.step] <;> split
    all_goals first | exact h.sent | exact h.quiet

/-- **After the end of the transport** the flag stays down, and a call that begins posts nothing,
in every run from there whose steps all meet the condition. -/
theorem dead_run (json : JsonReader) (inputs : List HttpInput) (hinv : s.Inv json)
    (hdead : s.dead = true) (hclear : Along (HttpTransport.step json) Clear s inputs) :
    (run (HttpTransport.step json) s inputs).alive = false ∧
      ∀ call, s.calls call = .idle →
        call ∉ (run (HttpTransport.step json) s inputs).sent.map Prod.fst := by
  have hstep : ∀ s input, Inv json s ∧ HttpTransport.dead s = true → Clear s input →
      Inv json (HttpTransport.step json s input) ∧
        HttpTransport.dead (HttpTransport.step json s input) = true :=
    fun _ input h hc => ⟨h.1.step hc, dead_step json input h.2⟩
  have hend := Along.invariant hstep hclear ⟨hinv, hdead⟩
  refine ⟨hend.1.down hend.2, fun call hcall => ?_⟩
  have hsilent : s.Silent call := by
    refine ⟨hdead, fun hmem => ?_, by rw [hcall]; rfl⟩
    obtain ⟨⟨other, id⟩, hsent, rfl⟩ := List.mem_map.1 hmem
    have hold := (hinv.sent other id hsent).2
    rw [hcall] at hold
    cases hold
  have hstep' : ∀ s input, Inv json s ∧ Silent s call → Clear s input →
      Inv json (HttpTransport.step json s input) ∧
        Silent (HttpTransport.step json s input) call :=
    fun _ input h hc => ⟨h.1.step hc, h.2.step (h.1.down h.2.dead) json input⟩
  exact (Along.invariant hstep' hclear ⟨hinv, hsilent⟩).2.sent

end HttpTransport

end Rupi
