import Rupi.Lib.Tickets
import Rupi.Mcp.StdioTransport

/-!
Exchanges over the pipes of a server process never cross.

- `StdioTransport.Safe`: a result is that of the call's own response, every response has one
  call, every request is written once, and a call that has returned is not pending.
- `StdioTransport.safe_run`: so in every state of every run.
- `StdioTransport.alive_run`, `StdioTransport.silent_run`: the flag stays down, and a call that
  begins then writes nothing.
-/

namespace Rupi

open Run Tickets

namespace StdioCall

/-- The id that the call has taken. -/
def id? : StdioCall → Option Nat
  | register id _ | measure id _ | write id _ | wait id => some id
  | leave id _ _ | returned id _ => id
  | _ => none

/-- The call may be in the pending map. -/
def registered : StdioCall → Bool
  | measure _ _ | write _ _ | wait _ => true
  | leave _ todo _ => decide (Cleanup.unregister ∈ todo)
  | _ => false

/-- The call has not been in the pending map. -/
def early : StdioCall → Bool
  | idle | checkAlive _ | checkContext _ | takeId _ | register _ _ => true
  | _ => false

/-- The call has not written its request. -/
def unsent : StdioCall → Bool
  | wait _ | leave _ _ _ | returned _ _ => false
  | _ => true

/-- The call has not looked at the flag, or has returned without an id. -/
def quiet : StdioCall → Bool
  | idle | checkAlive _ | returned none _ => true
  | _ => false

end StdioCall

namespace StdioTransport

variable (s : StdioTransport)

/-- The call was given a well-formed response with the id, and that is its result. -/
def Answered (call id : Nat) (value : Value) : Prop :=
  ∃ n response, (n, call) ∈ s.delivered ∧ s.heard[n]? = some response ∧ response.WellFormed ∧
    response.id.asNat = some id ∧ response.result = some value

/-- What holds in a state, whatever happened before. -/
structure Safe : Prop where
  own : ∀ call id value, s.calls call = .returned id (.ok value) →
    ∃ i, id = some i ∧ s.Answered call i value
  apart : ∀ n call call', (n, call) ∈ s.delivered → (n, call') ∈ s.delivered → call = call'
  ids : ∀ call call' id, (s.calls call).id? = some id → (s.calls call').id? = some id →
    call = call'
  once : (s.sent.map Prod.fst).Nodup ∧ (s.sent.map Prod.snd).Nodup
  clean : ∀ call id result, s.calls call = .returned (some id) result →
    id ∉ s.pending.map Prod.fst

/-- The invariant of a run. -/
structure Inv : Prop where
  issued : Issued StdioCall.id? s.nextId s.calls
  keys : Keyed.Distinct Prod.fst s.pending
  registered : ∀ id call, (id, call) ∈ s.pending →
    (s.calls call).id? = some id ∧ (s.calls call).registered = true
  taken : ∀ call, s.channels call ≠ none ∨ call ∈ s.reader.holds →
    (s.calls call).early = false ∧ ∀ id, (id, call) ∉ s.pending
  answers : ∀ call value, s.channels call = some (.ok value) →
    ∃ id, (s.calls call).id? = some id ∧ s.Answered call id value
  results : ∀ call id value, s.calls call = .returned id (.ok value) →
    ∃ i, id = some i ∧ s.Answered call i value
  current : ∀ response, s.reader = .resolving response ∨
      (∃ call, s.reader = .delivering call response) →
    s.heard[s.heard.length - 1]? = some response ∧
      ∀ n ∈ s.delivered.map Prod.fst, n + 1 < s.heard.length
  holder : ∀ call response, s.reader = .delivering call response →
    ∃ id, response.id.asNat = some id ∧ (s.calls call).id? = some id
  once : (s.delivered.map Prod.fst).Nodup ∧
    ∀ n ∈ s.delivered.map Prod.fst, n < s.heard.length
  wrote : (s.sent.map Prod.fst).Nodup
  sent : ∀ call id, (call, id) ∈ s.sent →
    (s.calls call).id? = some id ∧ (s.calls call).unsent = false

variable {s} {call : Nat} {stage : StdioCall}

@[simp] lemma goto_self (s : StdioTransport) (call : Nat) (stage : StdioCall) :
    (s.goto call stage).calls call = stage :=
  Function.update_self _ _ _

lemma goto_other (s : StdioTransport) {other : Nat} (h : other ≠ call) (stage : StdioCall) :
    (s.goto call stage).calls other = s.calls other :=
  Function.update_of_ne h _ _

/-! ### What a call does -/

/-- A call goes on and changes nothing else that the invariant is about. -/
lemma Inv.goto (h : s.Inv) (hid : stage.id? = (s.calls call).id?)
    (hregistered : ∀ id, (id, call) ∈ s.pending → stage.registered = true)
    (hearly : stage.early = true → (s.calls call).early = true)
    (hunsent : stage.unsent = true → (s.calls call).unsent = true)
    (hresult : ∀ id value, stage = .returned id (.ok value) →
      ∃ i, id = some i ∧ s.Answered call i value) :
    (s.goto call stage).Inv := by
  have hid' : ∀ other, ((s.goto call stage).calls other).id? = (s.calls other).id? := by
    intro other
    by_cases ho : other = call
    · rw [ho, goto_self, hid]
    · rw [goto_other s ho]
  refine ⟨h.issued.keep hid, h.keys, ?_, ?_, ?_, ?_, h.current, ?_, h.once, h.wrote, ?_⟩
  · intro id other ho
    refine ⟨(hid' other).trans (h.registered id other ho).1, ?_⟩
    by_cases hc : other = call
    · subst hc
      simpa using hregistered id ho
    · rw [goto_other s hc]
      exact (h.registered id other ho).2
  · intro other ho
    refine ⟨?_, (h.taken other ho).2⟩
    by_cases hc : other = call
    · subst hc
      have hlate := (h.taken other ho).1
      by_contra hstage
      rw [hearly (by simpa using hstage)] at hlate
      cases hlate
    · rw [goto_other s hc]
      exact (h.taken other ho).1
  · intro other value ho
    obtain ⟨id, hother, hanswer⟩ := h.answers other value ho
    exact ⟨id, (hid' other).trans hother, hanswer⟩
  · intro other id value ho
    by_cases hc : other = call
    · subst hc
      exact hresult id value (by simpa using ho)
    · exact h.results other id value (by rwa [goto_other s hc] at ho)
  · intro other response ho
    obtain ⟨id, hresponse, hother⟩ := h.holder other response ho
    exact ⟨id, hresponse, (hid' other).trans hother⟩
  · intro other id ho
    refine ⟨(hid' other).trans (h.sent other id ho).1, ?_⟩
    by_cases hc : other = call
    · subst hc
      have hlate := (h.sent other id ho).2
      by_contra hstage
      rw [hunsent (by simpa using hstage)] at hlate
      cases hlate
    · rw [goto_other s hc]
      exact (h.sent other id ho).2

/-- The invariant is not about the flag and the process. -/
lemma Inv.flags (h : s.Inv) (alive child : Bool) :
    Inv { s with alive := alive, child := child } :=
  ⟨h.issued, h.keys, h.registered, h.taken, h.answers, h.results, h.current, h.holder,
    h.once, h.wrote, h.sent⟩

/-- Pending calls may be taken out. -/
lemma Inv.forget (h : s.Inv) {pending : List (Nat × Nat)} (hsub : pending.Sublist s.pending) :
    Inv { s with pending := pending } :=
  ⟨h.issued, h.keys.sublist (hsub.map _), fun id call hc => h.registered id call (hsub.subset hc),
    fun call hc => ⟨(h.taken call hc).1, fun id hp => (h.taken call hc).2 id (hsub.subset hp)⟩,
    h.answers, h.results, h.current, h.holder, h.once, h.wrote, h.sent⟩

/-- A call takes the next id. -/
lemma Inv.takeId (h : s.Inv) {request : McpRequest}
    (hcall : s.calls call = .takeId request) :
    (StdioTransport.goto { s with nextId := s.nextId + 1 } call
      (.register s.nextId request)).Inv := by
  have hother : ∀ other, other ≠ call →
      (StdioTransport.goto { s with nextId := s.nextId + 1 } call
        (.register s.nextId request)).calls other = s.calls other :=
    fun other ho => goto_other _ ho _
  have hself : (StdioTransport.goto { s with nextId := s.nextId + 1 } call
      (.register s.nextId request)).calls call = .register s.nextId request :=
    goto_self _ _ _
  have hne : ∀ {other}, (s.calls other).id? ≠ none → other ≠ call := by
    rintro other ho rfl
    rw [hcall] at ho
    exact ho rfl
  refine ⟨h.issued.issue rfl, h.keys, ?_, ?_, ?_, ?_, h.current, ?_, h.once, h.wrote, ?_⟩
  · intro id other ho
    have hold := h.registered id other ho
    rw [hother other (hne (by rw [hold.1]; simp))]
    exact hold
  · intro other ho
    have hold := h.taken other ho
    have hc : other ≠ call := by
      rintro rfl
      rw [hcall] at hold
      cases hold.1
    rw [hother other hc]
    exact hold
  · intro other value ho
    obtain ⟨id, hid, hanswer⟩ := h.answers other value ho
    refine ⟨id, ?_, hanswer⟩
    rw [hother other (hne (by rw [hid]; simp))]
    exact hid
  · intro other id value ho
    by_cases hc : other = call
    · subst hc
      rw [hself] at ho
      cases ho
    · rw [hother other hc] at ho
      exact h.results other id value ho
  · intro other response ho
    obtain ⟨id, hresponse, hid⟩ := h.holder other response ho
    refine ⟨id, hresponse, ?_⟩
    rw [hother other (hne (by rw [hid]; simp))]
    exact hid
  · intro other id ho
    have hold := h.sent other id ho
    rw [hother other (hne (by rw [hold.1]; simp))]
    exact hold

/-- A call enters the pending map. -/
lemma Inv.register (h : s.Inv) {id : Nat} {request : McpRequest}
    (hcall : s.calls call = .register id request) :
    (StdioTransport.goto { s with pending := Keyed.put Prod.fst (id, call) s.pending } call
      (.measure id request)).Inv := by
  -- the call is entered behind its stage, where nothing was sent to it yet
  have hstage : (s.goto call (.measure id request)).Inv := by
    refine h.goto (by rw [hcall]; rfl) (fun _ _ => rfl) (fun he => nomatch he) (fun _ => by rw [hcall]; rfl)
      fun _ _ he => nomatch he
  have hearly : (s.calls call).early = true := by rw [hcall]; rfl
  refine ⟨hstage.issued, Keyed.distinct_put h.keys, ?_, ?_, hstage.answers,
    hstage.results, h.current, hstage.holder, h.once, h.wrote, hstage.sent⟩
  · intro id' other ho
    rcases (Keyed.mem_put h.keys).1 ho with heq | ⟨hold, -⟩
    · cases heq
      rw [goto_self]
      exact ⟨rfl, rfl⟩
    · exact hstage.registered id' other hold
  · intro other ho
    refine ⟨(hstage.taken other ho).1, fun id' hp => ?_⟩
    rcases (Keyed.mem_put h.keys).1 hp with heq | ⟨hold, -⟩
    · cases heq
      rw [(h.taken call ho).1] at hearly
      cases hearly
    · exact (h.taken other ho).2 id' hold

/-- A call writes its request. -/
lemma Inv.write (h : s.Inv) {id : Nat} {request : McpRequest}
    (hcall : s.calls call = .write id request) (hid : stage.id? = some id)
    (hregistered : stage.registered = true) (hearly : stage.early = false)
    (hunsent : stage.unsent = false) :
    (StdioTransport.goto { s with sent := s.sent ++ [(call, id)] } call stage).Inv := by
  have hstage : (s.goto call stage).Inv := by
    refine h.goto (by rw [hid, hcall]; rfl) (fun _ _ => hregistered) (fun he => ?_) (fun hu => ?_)
      fun _ _ he => ?_
    · rw [hearly] at he
      cases he
    · rw [hunsent] at hu
      cases hu
    · rw [he] at hregistered
      cases hregistered
  have hnew : call ∉ s.sent.map Prod.fst := by
    intro hmem
    obtain ⟨⟨other, i⟩, hsent, rfl⟩ := List.mem_map.1 hmem
    have hold := (h.sent other i hsent).2
    rw [hcall] at hold
    cases hold
  refine ⟨hstage.issued, h.keys, hstage.registered, hstage.taken, hstage.answers,
    hstage.results, h.current, hstage.holder, h.once, ?_, ?_⟩
  · change ((s.sent ++ [(call, id)]).map Prod.fst).Nodup
    rw [List.map_append]
    exact List.nodup_append'.2 ⟨h.wrote, List.nodup_singleton _,
      List.disjoint_singleton.2 hnew⟩
  · intro other id' ho
    rcases List.mem_append.1 ho with hold | hnow
    · exact hstage.sent other id' hold
    · cases List.mem_singleton.1 hnow
      rw [goto_self]
      exact ⟨hid, hunsent⟩

/-- A call that fails goes on to clean up; it stays in the pending map only if it will leave it. -/
lemma Inv.goto_leave (h : s.Inv) {id : Option Nat} {todo : List Cleanup} {error : McpError}
    (hid : (s.calls call).id? = id)
    (htodo : Cleanup.unregister ∈ todo ∨ ∀ id, (id, call) ∉ s.pending) :
    (s.goto call (.leave id todo error)).Inv := by
  refine h.goto hid.symm (fun id hp => ?_) (fun he => nomatch he) (fun hu => nomatch hu)
    fun _ _ he => nomatch he
  rcases htodo with hmem | hnot
  · simpa [StdioCall.registered] using hmem
  · exact absurd hp (hnot id)

/-- A call that returns an error is no longer pending. -/
lemma Inv.goto_error (h : s.Inv) {id : Option Nat} {error : McpError}
    (hid : (s.calls call).id? = id) (hnot : (s.calls call).registered = false) :
    (s.goto call (.returned id (.error error))).Inv := by
  refine h.goto hid.symm (fun id hp => ?_) (fun he => nomatch he) (fun hu => nomatch hu)
    fun _ _ he => nomatch he
  rw [(h.registered id call hp).2] at hnot
  cases hnot

/-- A call that waits goes on: with its message, or when none can come. -/
lemma Inv.receive (h : s.Inv) {id : Nat} (hcall : s.calls call = .wait id) :
    (match s.channels call with
      | some result => s.goto call (.returned (some id) result)
      | none =>
        if s.senderLives call then s
        else s.goto call (.leave (some id) [.lowerFlag] (.processExited none))).Inv := by
  have hid : (s.calls call).id? = some id := by rw [hcall]; rfl
  cases hc : s.channels call with
  | some result =>
    refine h.goto hid.symm (fun id' hp => ?_) (fun he => nomatch he) (fun hu => nomatch hu) ?_
    · exact absurd hp ((h.taken call (.inl (by rw [hc]; simp))).2 id')
    · intro i value he
      cases he
      obtain ⟨i, hi, hanswer⟩ := h.answers call value hc
      exact ⟨i, hid.symm.trans hi, hanswer⟩
  | none =>
    split_ifs with hlives
    · exact h
    · refine h.goto_leave hid (.inr fun id' hp => hlives ?_)
      simp only [senderLives, decide_eq_true_eq, List.mem_append]
      exact .inl (List.mem_map_of_mem hp)

/-- **One operation of a call.** -/
lemma Inv.callStep (h : s.Inv) (call : Nat) (event : CallEvent) : (s.callStep call event).Inv := by
  rw [StdioTransport.callStep]
  split
  case h_1 => exact h
  case h_2 => exact h
  case h_3 request hcall =>
    split_ifs
    · exact h.goto (by rw [hcall]; rfl) (fun id hp => by have hr := (h.registered id call hp).2; rw [hcall] at hr; cases hr)
        (fun _ => by rw [hcall]; rfl) (fun _ => by rw [hcall]; rfl) fun _ _ he => nomatch he
    · exact h.goto_error (by rw [hcall]; rfl) (by rw [hcall]; rfl)
  case h_4 request hcall =>
    have hnot : ∀ id, (id, call) ∉ s.pending := by
      intro id hp
      have hr := (h.registered id call hp).2
      rw [hcall] at hr
      cases hr
    split
    · exact h.goto_leave (by rw [hcall]; rfl) (.inr hnot)
    · exact h.goto_leave (by rw [hcall]; rfl) (.inr hnot)
    · exact h.goto (by rw [hcall]; rfl) (fun id hp => absurd hp (hnot id)) (fun _ => by rw [hcall]; rfl)
        (fun _ => by rw [hcall]; rfl) fun _ _ he => nomatch he
  case h_5 request hcall =>
    split_ifs
    · exact h.takeId hcall
    · exact h.goto_error (by rw [hcall]; rfl) (by rw [hcall]; rfl)
  case h_6 id request hcall => exact h.register hcall
  case h_7 id request hcall =>
    split_ifs
    · exact h.goto_leave (by rw [hcall]; rfl) (.inl (by simp))
    · exact h.goto (by rw [hcall]; rfl) (fun _ _ => rfl) (fun he => nomatch he) (fun _ => by rw [hcall]; rfl)
        fun _ _ he => nomatch he
  case h_8 id request hcall =>
    split
    · exact h.write hcall rfl (by simp [StdioCall.registered]) rfl rfl
    · exact h.write hcall rfl rfl rfl rfl
  case h_9 id hcall =>
    have hid : (s.calls call).id? = some id := by rw [hcall]; rfl
    split
    · exact h.goto_leave hid (.inl (by simp))
    · exact h.goto_leave hid (.inl (by simp))
    · exact h.goto_leave hid (.inl (by simp))
    · exact h.receive hcall
  case h_10 id error hcall => exact h.goto_error (by rw [hcall]; rfl) (by rw [hcall]; rfl)
  case h_11 id cleanup todo error hcall =>
    have hid : (s.calls call).id? = id := by rw [hcall]; rfl
    have hrest : cleanup ≠ .unregister →
        Cleanup.unregister ∈ todo ∨ ∀ id, (id, call) ∉ s.pending := by
      intro hne
      by_cases hmem : Cleanup.unregister ∈ todo
      · exact .inl hmem
      · refine .inr fun id' hp => hmem ?_
        have hr := (h.registered id' call hp).2
        rw [hcall] at hr
        simpa [StdioCall.registered, hne.symm] using hr
    cases cleanup with
    | lowerFlag => exact Inv.goto_leave (h.flags false s.child) hid (hrest (by simp))
    | takeChild => exact Inv.goto_leave (h.flags s.alive false) hid (hrest (by simp))
    | unregister =>
      cases id with
      | none =>
        refine Inv.goto_leave h hid (.inr fun id' hp => ?_)
        rw [(h.registered id' call hp).1] at hid
        cases hid
      | some id =>
        refine Inv.goto_leave (h.forget List.filter_sublist) hid (.inr fun id' hp => ?_)
        obtain ⟨hp, hne⟩ := List.mem_filter.1 hp
        have hsame := (h.registered id' call hp).1.symm.trans hid
        cases hsame
        simp at hne

/-! ### What the reader does -/

/-- More that was heard and delivered takes no answer back. -/
lemma Answered.mono {s' : StdioTransport} {id : Nat} {value : Value}
    (h : s.Answered call id value) (hheard : s.heard <+: s'.heard)
    (hdelivered : s.delivered ⊆ s'.delivered) : s'.Answered call id value := by
  obtain ⟨n, response, hn, hresponse, hw, hid, hresult⟩ := h
  refine ⟨n, response, hdelivered hn, ?_, hw, hid, hresult⟩
  obtain ⟨later, hlater⟩ := hheard
  obtain ⟨hlt, -⟩ := List.getElem?_eq_some_iff.1 hresponse
  rw [← hlater, List.getElem?_append_left hlt, hresponse]

/-- The reader goes on to a stage in which it has no response in hand. -/
lemma Inv.reader (h : s.Inv) {alive : Bool} {stage : ReaderStage}
    (hheld : ∀ call ∈ stage.holds, call ∈ s.reader.holds)
    (hresolving : ∀ response, stage ≠ .resolving response)
    (hdelivering : ∀ call response, stage ≠ .delivering call response) :
    Inv { s with alive := alive, reader := stage } := by
  refine ⟨h.issued, h.keys, h.registered, ?_, h.answers, h.results, ?_, ?_, h.once,
    h.wrote, h.sent⟩
  · intro other ho
    exact h.taken other (ho.imp_right (hheld other))
  · rintro response (hr | ⟨other, hr⟩)
    · exact absurd hr (hresolving response)
    · exact absurd hr (hdelivering other response)
  · intro other response hr
    exact absurd hr (hdelivering other response)

/-- The reader has sent an error to a call. -/
lemma Inv.refuse (h : s.Inv) {rest : List Nat} {error : McpError}
    (hreader : s.reader = .draining (call :: rest) error) :
    Inv { s with
      channels := Function.update s.channels call (some (.error error))
      reader := .draining rest error } := by
  have hheld : ∀ other ∈ rest, other ∈ s.reader.holds := by
    intro other ho
    rw [hreader]
    exact List.mem_cons_of_mem _ ho
  have hcall : call ∈ s.reader.holds := by
    rw [hreader]
    exact List.mem_cons_self
  refine ⟨h.issued, h.keys, h.registered, ?_, ?_, h.results, ?_, ?_, h.once, h.wrote,
    h.sent⟩
  · rintro other (ho | ho)
    · by_cases hc : other = call
      · exact h.taken other (.inr (hc ▸ hcall))
      · exact h.taken other (.inl (by dsimp only at ho; rwa [Function.update_of_ne hc] at ho))
    · exact h.taken other (.inr (hheld other ho))
  · intro other value ho
    by_cases hc : other = call
    · dsimp only at ho
      rw [hc, Function.update_self] at ho
      cases ho
    · exact h.answers other value (by dsimp only at ho; rwa [Function.update_of_ne hc] at ho)
  · rintro response (hr | ⟨other, hr⟩) <;> cases hr
  · intro other response hr
    cases hr

/-- The reader has delivered a response to the call it had found. -/
lemma Inv.deliver (h : s.Inv) (json : JsonReader) {response : JsonRpcResponse}
    (hreader : s.reader = .delivering call response) :
    Inv { s with
      channels := Function.update s.channels call (some (response.outcome json))
      delivered := s.delivered ++ [(s.heard.length - 1, call)]
      reader := .reading } := by
  obtain ⟨hlast, hbefore⟩ := h.current response (.inr ⟨call, hreader⟩)
  obtain ⟨id, hresponse, hid⟩ := h.holder call response hreader
  have hpos : 0 < s.heard.length := by
    by_contra hzero
    rw [List.getElem?_eq_none (by omega)] at hlast
    cases hlast
  have hnew : s.heard.length - 1 ∉ s.delivered.map Prod.fst := by
    intro hmem
    have hlt := hbefore _ hmem
    omega
  have hmono : ∀ {other i value}, s.Answered other i value → Answered { s with
      channels := Function.update s.channels call (some (response.outcome json))
      delivered := s.delivered ++ [(s.heard.length - 1, call)]
      reader := .reading } other i value :=
    fun ha => ha.mono (List.prefix_refl _) (List.subset_append_left _ _)
  refine ⟨h.issued, h.keys, h.registered, ?_, ?_, ?_, ?_, ?_, ?_, h.wrote, h.sent⟩
  · rintro other (ho | ho)
    · by_cases hc : other = call
      · exact h.taken other (.inr (by rw [hreader, hc]; exact List.mem_cons_self))
      · exact h.taken other (.inl (by dsimp only at ho; rwa [Function.update_of_ne hc] at ho))
    · cases ho
  · intro other value ho
    by_cases hc : other = call
    · dsimp only at ho
      rw [hc, Function.update_self] at ho
      obtain ⟨hw, hresult⟩ := outcome_eq_ok.1 (Option.some.inj ho)
      refine ⟨id, hc ▸ hid, s.heard.length - 1, response, ?_, hlast, hw, hresponse, hresult⟩
      exact hc ▸ List.mem_append_right _ (List.mem_singleton_self _)
    · obtain ⟨i, hi, hanswer⟩ := h.answers other value (by dsimp only at ho; rwa [Function.update_of_ne hc] at ho)
      exact ⟨i, hi, hmono hanswer⟩
  · intro other i value ho
    obtain ⟨j, hj, hanswer⟩ := h.results other i value ho
    exact ⟨j, hj, hmono hanswer⟩
  · rintro response' (hr | ⟨other, hr⟩) <;> cases hr
  · intro other response' hr
    cases hr
  · simp only [List.map_append, List.map_cons, List.map_nil]
    refine ⟨List.nodup_append'.2 ⟨h.once.1, List.nodup_singleton _,
      List.disjoint_singleton.2 hnew⟩, fun n hn => ?_⟩
    rcases List.mem_append.1 hn with hold | hlast'
    · exact h.once.2 n hold
    · rw [List.mem_singleton.1 hlast']
      omega

/-- The reader has found the call of a response, and taken it out of the pending map. -/
lemma Inv.resolve (h : s.Inv) {id : Nat} {response : JsonRpcResponse}
    (hreader : s.reader = .resolving response) (hresponse : response.id.asNat = some id)
    (hpending : (id, call) ∈ s.pending) :
    Inv { s with
      pending := Keyed.drop Prod.fst id s.pending, reader := .delivering call response } := by
  have hdrop := h.forget (List.filter_sublist : (Keyed.drop Prod.fst id s.pending).Sublist _)
  obtain ⟨hid, hregistered⟩ := h.registered id call hpending
  refine ⟨h.issued, hdrop.keys, hdrop.registered, ?_, h.answers, h.results, ?_, ?_,
    h.once, h.wrote, h.sent⟩
  · rintro other (ho | ho)
    · exact hdrop.taken other (.inl ho)
    · have hc : other = call := List.mem_singleton.1 ho
      rw [hc]
      refine ⟨?_, fun id' hp => ?_⟩
      · cases hcall : s.calls call <;> simp_all [StdioCall.registered, StdioCall.early]
      · obtain ⟨hp, hne⟩ := List.mem_filter.1 hp
        have hsame := (h.registered id' call hp).1.symm.trans hid
        cases hsame
        simp at hne
  · rintro response' (hr | ⟨other, hr⟩)
    · cases hr
    · cases hr
      exact h.current response (.inl hreader)
  · intro other response' hr
    cases hr
    exact ⟨id, hresponse, hid⟩

/-- The reader has drained the pending map. -/
lemma Inv.drain (h : s.Inv) (error : McpError) :
    Inv { s with pending := [], reader := .draining (s.pending.map Prod.snd) error } := by
  have hdrop := h.forget (List.nil_sublist s.pending)
  refine ⟨h.issued, hdrop.keys, hdrop.registered, ?_, h.answers, h.results, ?_, ?_,
    h.once, h.wrote, h.sent⟩
  · rintro other (ho | ho)
    · exact hdrop.taken other (.inl ho)
    · obtain ⟨⟨id, c⟩, hp, rfl⟩ := List.mem_map.1 ho
      refine ⟨?_, fun id' hp => nomatch hp⟩
      have hregistered := (h.registered id c hp).2
      cases hcall : s.calls c <;> simp_all [StdioCall.registered, StdioCall.early]
  · rintro response (hr | ⟨other, hr⟩) <;> cases hr
  · intro other response hr
    cases hr

/-- The reader has read a response. -/
lemma Inv.hear (h : s.Inv) (response : JsonRpcResponse) :
    Inv { s with heard := s.heard ++ [response], reader := .resolving response } := by
  have hmono : ∀ {other i value}, s.Answered other i value → Answered { s with
      heard := s.heard ++ [response], reader := .resolving response } other i value :=
    fun ha => ha.mono (List.prefix_append _ _) (List.Subset.refl _)
  refine ⟨h.issued, h.keys, h.registered, ?_, ?_, ?_, ?_, ?_, ?_, h.wrote, h.sent⟩
  · rintro other (ho | ho)
    · exact h.taken other (.inl ho)
    · cases ho
  · intro other value ho
    obtain ⟨i, hi, hanswer⟩ := h.answers other value ho
    exact ⟨i, hi, hmono hanswer⟩
  · intro other i value ho
    obtain ⟨j, hj, hanswer⟩ := h.results other i value ho
    exact ⟨j, hj, hmono hanswer⟩
  · rintro response' (hr | ⟨other, hr⟩)
    · cases hr
      refine ⟨by simp, fun n hn => ?_⟩
      have hlt := h.once.2 n hn
      simpa using hlt
    · cases hr
  · intro other response' hr
    cases hr
  · refine ⟨h.once.1, fun n hn => ?_⟩
    have hlt := h.once.2 n hn
    simp only [List.length_append, List.length_singleton]
    omega

/-- **One operation of the reader.** -/
lemma Inv.readerStep (h : s.Inv) (json : JsonReader) : (s.readerStep json).Inv := by
  rw [StdioTransport.readerStep]
  split
  case h_1 => exact h
  case h_2 => exact h
  case h_3 response hreader =>
    cases hid : response.id.asNat with
    | none =>
      exact h.reader (fun _ hc => by cases hc) (fun _ he => by cases he) fun _ _ he => by cases he
    | some id =>
      simp only [Option.bind_some]
      cases hfound : Keyed.lookup Prod.fst id s.pending with
      | none =>
        exact h.reader (fun _ hc => by cases hc) (fun _ he => by cases he) fun _ _ he => by cases he
      | some entry =>
        obtain ⟨id', call⟩ := entry
        have hkey : id' = id := Keyed.key_of_lookup hfound
        subst hkey
        exact h.resolve hreader hid (Keyed.mem_of_lookup hfound)
  case h_4 call response hreader => exact h.deliver json hreader
  case h_5 error hreader =>
    exact h.reader (fun _ hc => by cases hc) (fun _ he => by cases he) fun _ _ he => by cases he
  case h_6 error hreader => exact h.drain error
  case h_7 error hreader =>
    exact h.reader (fun _ hc => by cases hc) (fun _ he => by cases he) fun _ _ he => by cases he
  case h_8 call rest error hreader => exact h.refuse hreader

/-! ### Runs -/

/-- **One step of the whole.** -/
theorem Inv.step (h : s.Inv) (json : JsonReader) (input : StdioInput) :
    (s.step json input).Inv := by
  cases input with
  | begin call request =>
    rw [StdioTransport.step]
    split
    case h_1 hcall =>
      refine h.goto (by rw [hcall]; rfl) (fun id hp => ?_) (fun _ => by rw [hcall]; rfl)
        (fun _ => by rw [hcall]; rfl) fun _ _ he => nomatch he
      have hr := (h.registered id call hp).2
      rw [hcall] at hr
      cases hr
    case h_2 => exact h
  | go call event => exact h.callStep call event
  | line text =>
    rw [StdioTransport.step]
    split_ifs
    · rw [StdioTransport.readLine]
      split
      case h_1 response _ =>
        split_ifs
        · exact h.hear response
        · exact h
      case h_2 => exact h
    · exact h
  | endOfOutput =>
    rw [StdioTransport.step]
    split_ifs
    · exact h.reader (fun _ hc => nomatch hc) (fun _ he => nomatch he) fun _ _ he => nomatch he
    · exact h
  | readError message =>
    rw [StdioTransport.step]
    split_ifs
    · exact h.reader (fun _ hc => nomatch hc) (fun _ he => nomatch he) fun _ _ he => nomatch he
    · exact h
  | reader => exact h.readerStep json
  | notify written =>
    rw [StdioTransport.step]
    split_ifs
    · exact h.flags false s.child
    · exact h
  | close => exact h.flags false false

lemma inv_spawn : spawn.Inv where
  issued := ⟨fun _ _ h => (nomatch h), fun _ _ _ h => (nomatch h)⟩
  keys := List.nodup_nil
  registered _ _ h := nomatch h
  taken _ h := h.elim (fun h => absurd rfl h) fun h => nomatch h
  answers _ _ h := nomatch h
  results _ _ _ h := nomatch h
  current _ h := h.elim (fun h => nomatch h) fun ⟨_, h⟩ => nomatch h
  holder _ _ h := nomatch h
  once := ⟨List.nodup_nil, fun _ h => nomatch h⟩
  wrote := List.nodup_nil
  sent _ _ h := nomatch h

lemma Inv.safe (h : s.Inv) : s.Safe where
  own := h.results
  apart n call call' hc hc' := by
    have hsame := List.inj_on_of_nodup_map h.once.1 hc hc' rfl
    cases hsame
    rfl
  ids := h.issued.distinct
  once := ⟨h.wrote, h.issued.nodup_snd h.wrote fun call id hsent => (h.sent call id hsent).1⟩
  clean call id result hcall hmem := by
    obtain ⟨⟨i, other⟩, hp, rfl⟩ := List.mem_map.1 hmem
    obtain ⟨hid, hregistered⟩ := h.registered i other hp
    have hsame := h.issued.distinct other call i hid (by rw [hcall]; rfl)
    rw [hsame, hcall] at hregistered
    cases hregistered

lemma inv_run (json : JsonReader) (inputs : List StdioInput) :
    (run (step json) spawn inputs).Inv := by
  have hstep : ∀ s input, Inv s → True → Inv (step json s input) :=
    fun _ input h _ => h.step json input
  exact Along.invariant hstep (along_true spawn inputs) inv_spawn

/-- **Exchanges on a pipe never cross**: in every state of every run. -/
theorem safe_run (json : JsonReader) (inputs : List StdioInput) :
    (run (step json) spawn inputs).Safe :=
  (inv_run json inputs).safe

/-! ### After the end -/

lemma alive_clean {id : Option Nat} {cleanup : Cleanup} (h : s.alive = false) :
    (s.clean id cleanup).alive = false := by
  cases cleanup with
  | unregister => cases id <;> exact h
  | lowerFlag => rfl
  | takeChild => exact h

lemma alive_callStep (call : Nat) (event : CallEvent) (h : s.alive = false) :
    (s.callStep call event).alive = false := by
  rw [StdioTransport.callStep]
  split
  case h_11 => exact alive_clean h
  all_goals repeat' split
  all_goals exact h

/-- **The flag stays down.** -/
lemma alive_step (json : JsonReader) (input : StdioInput) (h : s.alive = false) :
    (s.step json input).alive = false := by
  cases input with
  | go call event => exact alive_callStep call event h
  | reader =>
    rw [StdioTransport.step, StdioTransport.readerStep]
    repeat' split
    all_goals first | exact h | rfl
  | line text =>
    rw [StdioTransport.step, StdioTransport.readLine]
    repeat' split
    all_goals exact h
  | begin | endOfOutput | readError | notify =>
    rw [StdioTransport.step]
    split <;> first | exact h | rfl
  | close => rfl

theorem alive_run (json : JsonReader) (inputs : List StdioInput) (h : s.alive = false) :
    (run (step json) s inputs).alive = false := by
  have hstep : ∀ s input, StdioTransport.alive s = false → True →
      StdioTransport.alive (step json s input) = false := fun _ input h _ => alive_step json input h
  exact Along.invariant hstep (along_true s inputs) h

lemma calls_clean {id : Option Nat} (cleanup : Cleanup) : (s.clean id cleanup).calls = s.calls := by
  cases cleanup with
  | unregister => cases id <;> rfl
  | lowerFlag | takeChild => rfl

lemma sent_clean {id : Option Nat} (cleanup : Cleanup) : (s.clean id cleanup).sent = s.sent := by
  cases cleanup with
  | unregister => cases id <;> rfl
  | lowerFlag | takeChild => rfl

/-- A call changes its own stage, and writes only for itself. -/
lemma callStep_other (call : Nat) (event : CallEvent) {other : Nat} (ho : other ≠ call) :
    (s.callStep call event).calls other = s.calls other ∧
      (other ∈ (s.callStep call event).sent.map Prod.fst → other ∈ s.sent.map Prod.fst) := by
  rw [StdioTransport.callStep]
  split
  case h_8 =>
    have hsent : ∀ id, other ∈ (s.sent ++ [(call, id)]).map Prod.fst → other ∈ s.sent.map Prod.fst := by
      intro id hmem
      rw [List.map_append, List.mem_append] at hmem
      exact hmem.resolve_right fun hc => ho (List.mem_singleton.1 hc)
    split <;> exact ⟨goto_other _ ho _, hsent _⟩
  case h_11 id cleanup todo error _ =>
    refine ⟨(goto_other _ ho _).trans (congrFun (calls_clean cleanup) other), ?_⟩
    change other ∈ (s.clean id cleanup).sent.map Prod.fst → _
    rw [sent_clean]
    exact fun h => h
  all_goals repeat' split
  all_goals first
    | exact ⟨rfl, fun h => h⟩
    | exact ⟨goto_other _ ho _, fun h => h⟩

/-- The flag is down, and the call has not looked at it yet or has found it so. -/
structure Silent (s : StdioTransport) (call : Nat) : Prop where
  alive : s.alive = false
  sent : call ∉ s.sent.map Prod.fst
  quiet : (s.calls call).quiet = true

lemma Silent.callStep (h : s.Silent call) (other : Nat) (event : CallEvent) :
    (s.callStep other event).Silent call := by
  by_cases ho : call = other
  · subst ho
    have hquiet := h.quiet
    cases hcall : s.calls call with
    | idle => simpa [StdioTransport.callStep, hcall] using h
    | checkAlive request =>
      simp only [StdioTransport.callStep, hcall, h.alive, Bool.false_eq_true, if_false]
      exact ⟨h.alive, h.sent, by rw [goto_self]; rfl⟩
    | returned id result => simpa [StdioTransport.callStep, hcall] using h
    | _ => rw [hcall] at hquiet; cases hquiet
  · obtain ⟨hcalls, hsent⟩ := callStep_other (s := s) other event ho
    exact ⟨alive_callStep other event h.alive, fun hmem => h.sent (hsent hmem), hcalls ▸ h.quiet⟩

lemma Silent.step (h : s.Silent call) (json : JsonReader) (input : StdioInput) :
    (s.step json input).Silent call := by
  have halive := alive_step json input h.alive
  cases input with
  | go other event => exact h.callStep other event
  | begin other request =>
    refine ⟨halive, ?_, ?_⟩
    · rw [StdioTransport.step]
      split <;> exact h.sent
    · rw [StdioTransport.step]
      split
      · by_cases ho : call = other
        · rw [ho, goto_self]
          rfl
        · rw [goto_other _ ho]
          exact h.quiet
      · exact h.quiet
  | line text =>
    refine ⟨halive, ?_, ?_⟩ <;> rw [StdioTransport.step, StdioTransport.readLine] <;>
      repeat' split
    all_goals first | exact h.sent | exact h.quiet
  | reader =>
    refine ⟨halive, ?_, ?_⟩ <;> rw [StdioTransport.step, StdioTransport.readerStep] <;>
      repeat' split
    all_goals first | exact h.sent | exact h.quiet
  | endOfOutput | readError | notify =>
    refine ⟨halive, ?_, ?_⟩ <;> rw [StdioTransport.step] <;> split
    all_goals first | exact h.sent | exact h.quiet
  | close => exact ⟨halive, h.sent, h.quiet⟩

/-- **A call that begins behind the end writes nothing.** -/
theorem silent_run (json : JsonReader) (inputs : List StdioInput) (hinv : s.Inv)
    (halive : s.alive = false) (hcall : s.calls call = .idle) :
    call ∉ (run (StdioTransport.step json) s inputs).sent.map Prod.fst := by
  have hsilent : s.Silent call := by
    refine ⟨halive, fun hmem => ?_, by rw [hcall]; rfl⟩
    obtain ⟨⟨other, id⟩, hsent, rfl⟩ := List.mem_map.1 hmem
    have hold := (hinv.sent other id hsent).2
    rw [hcall] at hold
    cases hold
  have hstep : ∀ s input, Silent s call → True → Silent (StdioTransport.step json s input) call :=
    fun _ input h _ => h.step json input
  exact (Along.invariant hstep (along_true s inputs) hsilent).sent

end StdioTransport

end Rupi
