import Rupi.Runtime.Accepted

/-!
The identities of what a turn writes.

- `Move.grows`: every move adds lines with numbers and identifiers of their own, or none.
- `Stage.refers`: the lines that the next line may refer to.
- `Numbered`: the next line of a trace.
- `Known`: what the integrity check knows of a trace that stands somewhere.
- **`runTurn_intact`**: the trace of a turn stays intact, wherever its lines stop.
-/

namespace Rupi

open Attempt Labelled Conduct Fallible

/-- The lines that the next line may refer to. -/
def Stage.refers : Stage → List EventId
  | calling assistant _ => [assistant]
  | requested assistant _ _ _ last => [assistant, last]
  | _ => []

namespace ActiveTurn

variable {around : Surroundings} {turnId : TurnId} {c c' : Conduct} {line : TraceEntry}

/-! ### Every move only adds lines -/

/-- Lines about the window are lines. -/
lemma grows_of_tells {env : Env} {loop loop' : TurnLoop}
    (h : Relation.ReflTransGen (TurnLoop.Tells env turnId) loop loop') :
    Relation.ReflTransGen (TurnLoop.Grows env) loop loop' := by
  refine Relation.ReflTransGen.mono (fun a b htells => ?_) _ _ h
  cases htells with
  | line hturn hquiet h => exact .line h
  | still entries lastSeq issued epochIndex activeModel => exact .still entries lastSeq issued

/-- Deltas are lines. -/
lemma collect_grows {env : Env} (collector : Collector) (irreversible : Bool)
    (arrivals : List Arrival) :
    Relation.ReflTransGen (TurnLoop.Grows env) collector.loop
      (collector.collect env turnId irreversible arrivals).loop := by
  induction arrivals generalizing collector with
  | nil => exact .refl
  | cons arrival rest ih =>
    have hemit : Relation.ReflTransGen (TurnLoop.Grows env) collector.loop
        (collector.emit env turnId irreversible arrival).loop := by
      rw [Collector.emit]
      dsimp only
      split_ifs
      · exact .refl
      · exact .refl
      · split
        · exact .refl
        · cases arrival.event with
          | reasoningDelta text provenance =>
            exact .single (.line ⟨StoreTrace.emit_entries, StoreTrace.emit_lastSeq, rfl, rfl, rfl⟩)
          | textDelta text =>
            exact .single (.line ⟨StoreTrace.emit_entries, StoreTrace.emit_lastSeq, rfl, rfl, rfl⟩)
          | tool event => cases event <;> exact .refl
    exact hemit.trans (ih _)

/-- A line is emitted. -/
lemma grows_emitted (around : Surroundings) (turn : Option TurnId) (t : ActiveTurn)
    (event : AgentEvent) (parent : Option EventId) :
    Relation.ReflTransGen (TurnLoop.Grows around.env) t.loop
      (t.emitted around turn event parent).loop := .single (.line TurnLoop.emit_emits)

/-- Every move only adds lines. -/
lemma Move.grows {a b : Phase × ActiveTurn} (h : Move around turnId a b) :
    Relation.ReflTransGen (TurnLoop.Grows around.env) a.2.loop b.2.loop := by
  cases h with
  | look p t => exact .refl
  | tend htends => rw [htends.loop]
  | note s t level message => exact grows_emitted around _ t _ _
  | say hevent hrecord => exact (recorded_entries hrecord).2.grows
  | reshape hwindow => exact grows_of_tells hwindow.tells
  | spend hask hbudget hrequest hfits => exact .refl
  | ask streamed harmed collector hcollector hnext =>
    rw [hnext, hcollector]
    refine Relation.ReflTransGen.trans ?_ (collect_grows (Collector.new _) _ _)
    exact grows_emitted around _ _ _ _
  | fail joins hepoch hmodel hcount => exact grows_emitted around _ _ _ _
  | answer hepoch hmodel hcount hcalls => exact .single (.line ⟨rfl, rfl, rfl, rfl, rfl⟩)
  | answerWith hepoch hmodel hcount hcontent hrecord => exact (recorded_entries hrecord).2.grows
  | close hcloses => exact hcloses.grows
  | settle hkept => exact .refl
  | drop => exact .refl
  | abandon habandons => rw [habandons.loop]
  | noteEnding t level message => exact grows_emitted around _ t _ _
  | retry t again => exact grows_emitted around _ t _ _
  | takeOver hbackup hother hsource htarget =>
    exact ((grows_emitted around _ _ _ _).trans (grows_emitted around _ _ _ _)).trans
      (.single (.still rfl rfl le_rfl))
  | finish t status durationMs hp => exact grows_emitted around _ t _ _

/-! ### Numbers and identifiers -/

/-- The next line of a trace: it has the next number, and identifiers that were not drawn yet. -/
structure Numbered (env : Env) (place : ℕ × Option EventSeq) (line : TraceEntry)
    (place' : ℕ × Option EventSeq) : Prop where
  version : line.envelope.v = eventSchemaVersion
  session : line.envelope.eventMeta.sessionId = env.session
  traceId : line.envelope.eventMeta.traceId = env.traceId
  drawn : ∃ n, place.1 ≤ n ∧ n < place'.1 ∧ line.eventId = env.fresh n ∧
    line.envelope.eventMeta.spanId = env.fresh (n + 1)
  seq : line.seq = some ((place.2.map (· + 1)).getD 1)
  last : place'.2 = line.seq

/-- The lines of a trace that grows are numbered. -/
lemma numbered_of_grows {env : Env} {loop loop' : TurnLoop}
    (h : Relation.ReflTransGen (TurnLoop.Grows env) loop loop') :
    ∃ lines place, loop'.trace.entries = loop.trace.entries ++ lines ∧
      Path (Numbered env) (loop.issued, loop.trace.lastSeq) lines place ∧
      place.1 ≤ loop'.issued ∧ place.2 = loop'.trace.lastSeq := by
  refine Path.of_reach (fun loop : TurnLoop => loop.trace.entries)
    (fun loop (place : ℕ × Option EventSeq) =>
      place.1 ≤ loop.issued ∧ place.2 = loop.trace.lastSeq)
    (fun a b place hgrows hplace => ?_) h ⟨le_rfl, rfl⟩
  obtain ⟨hissued, hlast⟩ := hplace
  cases hgrows with
  | line hline =>
    refine ⟨_, (b.issued, b.trace.lastSeq), hline.entries, .single ⟨rfl, rfl, rfl,
      ⟨a.issued, hissued, ?_, rfl, rfl⟩, ?_, hline.lastSeq⟩, le_rfl, rfl⟩
    · rw [hline.issued]
      exact Nat.lt_add_of_pos_right Nat.two_pos
    · rw [hlast]
      rfl
  | still entries lastSeq issued =>
    exact ⟨[], place, entries.trans (List.append_nil _).symm, .refl, hissued.trans issued,
      hlast.trans lastSeq.symm⟩

/-! ### What a line refers to -/

lemma refers_behind {assistant : EventId} {s : Standing} {n : ℕ} :
    (Stage.behind assistant s n).refers ⊆ [assistant] := by
  cases n with
  | zero => exact List.nil_subset _
  | succ n => exact List.Subset.refl _

/-- A line refers to lines in front of it, and so does the next one. -/
lemma step_refers
    (h : Step around.maxRequests (around.backup.map (·.model)) turnId c line c') :
    (line.envelope.eventMeta.turnId = none ∨ line.envelope.eventMeta.turnId = some turnId) ∧
      (∀ parent ∈ line.parent, parent ∈ c.stage.refers) ∧
      c'.stage.refers ⊆ line.eventId :: c.stage.refers := by
  have hnone : ∀ {epoch : ℕ} {model : ModelRef} {event : AgentEvent},
      Written turnId epoch model event none line → ∀ parent ∈ line.parent,
        parent ∈ c.stage.refers := by
    intro epoch model event hline parent hparent
    rw [TraceEntry.parent, hline.parent] at hparent
    cases hparent
  have hsome : ∀ {epoch : ℕ} {model : ModelRef} {event : AgentEvent} {last : EventId},
      Written turnId epoch model event (some last) line → last ∈ c.stage.refers →
        ∀ parent ∈ line.parent, parent ∈ c.stage.refers := by
    intro epoch model event last hline hlast parent hparent
    rw [TraceEntry.parent, hline.parent] at hparent
    cases hparent
    exact hlast
  cases h with
  | quiet hquiet hturn hparent =>
    refine ⟨hturn, fun parent hmem => ?_, List.nil_subset _⟩
    rw [TraceEntry.parent, hparent] at hmem
    cases hmem
  | prompt hprompt hline => exact ⟨.inr hline.turn, hnone hline, List.nil_subset _⟩
  | ask hask hlimit hepoch hmodel hline =>
    exact ⟨.inr hline.turn, hnone hline, List.nil_subset _⟩
  | delta hdelta hline => exact ⟨.inr hline.turn, hnone hline, List.nil_subset _⟩
  | complete hepoch hmodel hline =>
    exact ⟨.inr hline.turn, hnone hline, refers_behind⟩
  | request hline =>
    refine ⟨.inr hline.turn, hsome hline List.mem_cons_self, ?_⟩
    exact List.cons_subset.2 ⟨List.mem_cons_of_mem _ List.mem_cons_self,
      List.cons_subset.2 ⟨List.mem_cons_self, List.nil_subset _⟩⟩
  | start hline =>
    refine ⟨.inr hline.turn, hsome hline (List.mem_cons_of_mem _ List.mem_cons_self), ?_⟩
    exact List.cons_subset.2 ⟨List.mem_cons_of_mem _ List.mem_cons_self,
      List.cons_subset.2 ⟨List.mem_cons_self, List.nil_subset _⟩⟩
  | reduce hline => exact ⟨.inr hline.turn, hnone hline, List.subset_cons_self _ _⟩
  | close hends hline =>
    exact ⟨.inr hline.turn, hsome hline (List.mem_cons_of_mem _ List.mem_cons_self),
      List.Subset.trans refers_behind (List.cons_subset.2
        ⟨List.mem_cons_of_mem _ List.mem_cons_self, List.nil_subset _⟩)⟩
  | retry hline => exact ⟨.inr hline.turn, hnone hline, List.nil_subset _⟩
  | leave hbackup hsource htarget hline =>
    exact ⟨.inr hline.turn, hnone hline, List.nil_subset _⟩
  | arrive hline => exact ⟨.inr hline.turn, hnone hline, List.nil_subset _⟩
  | finish hline => exact ⟨.inr hline.turn, hnone hline, List.nil_subset _⟩

/-! ### The integrity check -/

/-- Identifiers are drawn once, and none is empty. -/
structure Draws (env : Env) : Prop where
  injective : Function.Injective env.fresh
  named : ∀ n, env.fresh n ≠ ""
  traceId : env.traceId ≠ ""

/-- What the check knows of a trace that stands somewhere. -/
structure Known (env : Env) (c : Conduct) (place : ℕ × Option EventSeq) (s : IntegrityState) :
    Prop where
  lastSeq : s.lastSeq = place.2
  unused : ∀ n ≥ place.1, env.fresh n ∉ s.eventIds
  named : ∀ id ∈ s.eventIds, id ≠ ""
  refers : c.stage.refers ⊆ s.eventIds

lemma not_isEmpty {text : String} (h : text ≠ "") : (!text.isEmpty) = true := by
  simpa using h

/-- The number that a line gets follows the last one. -/
lemma follows_next (last : Option EventSeq) :
    follows last ((last.map (· + 1)).getD 1) = true := by
  cases last with
  | none => rfl
  | some seq =>
    rw [follows, Bool.and_eq_true]
    exact ⟨decide_eq_true (Nat.succ_ne_zero seq), beq_self_eq_true (seq + 1)⟩

/-- The check takes the next line. -/
lemma known_step {env : Env} {place place' : ℕ × Option EventSeq} {s : IntegrityState}
    (hdraws : Draws env) (hturn : turnId ≠ "")
    (hstep : Step around.maxRequests (around.backup.map (·.model)) turnId c line c')
    (hnumbered : Numbered env place line place') (h : Known env c place s) :
    ∃ s', checkIntegrity env.session s line = .ok s' ∧ Known env c' place' s' := by
  obtain ⟨hin, hparent, hrefers⟩ := step_refers hstep
  obtain ⟨n, hn, hn', hid, hspan⟩ := hnumbered.drawn
  have hnew : line.eventId ∉ s.eventIds := hid ▸ h.unused n hn
  have hparents : ∀ parent ∈ line.parent, parent ≠ line.eventId ∧ parent ∈ s.eventIds := by
    intro parent hmem
    have hknown := h.refers (hparent parent hmem)
    exact ⟨fun heq => hnew (heq ▸ hknown), hknown⟩
  have hcomplete : identityComplete line.envelope.eventMeta = true := by
    simp only [identityComplete, Bool.and_eq_true, Option.all_eq_true]
    refine ⟨⟨⟨⟨not_isEmpty ?_, not_isEmpty ?_⟩, not_isEmpty ?_⟩, fun turn hmem => not_isEmpty ?_⟩,
      fun parent hmem => not_isEmpty (h.named parent (hparents parent hmem).2)⟩
    · exact fun hempty => hdraws.named n (hid.symm.trans hempty)
    · exact fun hempty => hdraws.traceId (hnumbered.traceId.symm.trans hempty)
    · exact fun hempty => hdraws.named (n + 1) (hspan.symm.trans hempty)
    · rcases hin with hnone | hsome
      · rw [hnone] at hmem
        cases hmem
      · rw [hsome] at hmem
        cases hmem
        exact hturn
  refine ⟨⟨some ((place.2.map (· + 1)).getD 1), line.eventId :: s.eventIds⟩, ?_, ?_, ?_, ?_, ?_⟩
  · rw [checkIntegrity]
    simp only [Fallible.bind_eq_ok, ensure_eq_ok, exists_const]
    refine ⟨hnumbered.version, hnumbered.session, hcomplete, ?_⟩
    rw [hnumbered.seq]
    simp only [Fallible.bind_eq_ok, ensure_eq_ok, exists_const]
    exact ⟨h.lastSeq ▸ follows_next place.2, hparents, hnew, trivial⟩
  · exact (hnumbered.last.trans hnumbered.seq).symm
  · intro m hm hmem
    rcases List.mem_cons.1 hmem with heq | hmem
    · rw [hid] at heq
      exact absurd (hdraws.injective heq) (Nat.ne_of_gt (hn'.trans_le hm))
    · exact h.unused m ((hn.trans hn'.le).trans hm) hmem
  · intro id hmem
    rcases List.mem_cons.1 hmem with rfl | hmem
    · rw [hid]
      exact hdraws.named n
    · exact h.named id hmem
  · intro id hmem
    rcases List.mem_cons.1 (hrefers hmem) with rfl | hmem
    · exact List.mem_cons_self
    · exact List.mem_cons_of_mem _ (h.refers hmem)

/-- What the check knows of a trace that it accepts. -/
lemma of_checkIntegrity {session : SessionId} {entries : List TraceEntry} {s : IntegrityState}
    (h : scan (checkIntegrity session) ⟨none, []⟩ entries = .ok s) :
    s.lastSeq = entries.getLast?.bind TraceEntry.seq ∧
      (∀ id, id ∈ s.eventIds ↔ id ∈ entries.map TraceEntry.eventId) ∧
      ∀ id ∈ s.eventIds, id ≠ "" := by
  induction entries using List.reverseRecOn generalizing s with
  | nil =>
    cases h
    exact ⟨rfl, fun id => Iff.rfl, fun id hid => absurd hid List.not_mem_nil⟩
  | append_singleton entries entry ih =>
    obtain ⟨mid, hmid, hlast⟩ := scan_append_eq_ok.1 h
    obtain ⟨s', hcheck, hnil⟩ := Fallible.bind_eq_ok.1 hlast
    cases hnil
    obtain ⟨-, hids, hnamed⟩ := ih hmid
    have hname : entry.eventId ≠ "" := by
      rw [checkIntegrity] at hcheck
      simp only [Fallible.bind_eq_ok, ensure_eq_ok, exists_const] at hcheck
      obtain ⟨-, -, hcomplete, -⟩ := hcheck
      simp only [identityComplete, Bool.and_eq_true] at hcomplete
      intro hempty
      have hid : entry.envelope.eventMeta.eventId = "" := hempty
      rw [hid] at hcomplete
      exact absurd hcomplete.1.1.1.1 Bool.false_ne_true
    obtain ⟨seq, hseq, -, -, rfl⟩ := checkIntegrity_ok hcheck
    refine ⟨?_, fun id => ?_, fun id hid => ?_⟩
    · rw [List.getLast?_concat]
      exact hseq.symm
    · rw [List.map_append, List.mem_append, List.mem_cons, hids, List.map_singleton,
        List.mem_singleton, or_comm]
    · rcases List.mem_cons.1 hid with rfl | hid
      · exact hname
      · exact hnamed id hid

end ActiveTurn

/-- The trace of a loop passes the check, the loop knows its last number, and what is drawn next
is not on record. -/
structure TurnLoop.Identified (env : Env) (loop : TurnLoop) : Prop where
  valid : validateTraceIntegrity env.session loop.trace.entries = .ok ()
  lastSeq : loop.trace.lastSeq = loop.trace.entries.getLast?.bind TraceEntry.seq
  unused : ∀ n ≥ loop.issued, env.fresh n ∉ loop.trace.entries.map TraceEntry.eventId

namespace ActiveTurn

variable {around : Surroundings} {turnId : TurnId} {c : Conduct}

/-- The check takes every run of the protocol whose lines are numbered. -/
lemma known_run {env : Env} {t : ActiveTurn} {lines : List TraceEntry} {place : ℕ × Option EventSeq}
    (hdraws : Draws env) (hturn : turnId ≠ "") (h : t.loop.Identified env)
    (hpath : Conducts around turnId t.opening lines c)
    (hnumbered : Path (Numbered env) (t.loop.issued, t.loop.trace.lastSeq) lines place) :
    ∃ s, scan (checkIntegrity env.session) ⟨none, []⟩ (t.loop.trace.entries ++ lines) = .ok s ∧
      Known env c place s := by
  obtain ⟨s, hscan, -⟩ := Fallible.bind_eq_ok.1 h.valid
  obtain ⟨hlast, hids, hnamed⟩ := of_checkIntegrity hscan
  have hstart : Known env t.opening (t.loop.issued, t.loop.trace.lastSeq) s :=
    ⟨hlast.trans h.lastSeq.symm, fun n hn hmem => h.unused n hn ((hids _).1 hmem), hnamed,
      List.nil_subset _⟩
  obtain ⟨s', hscan', hknown⟩ := (hpath.both hnumbered).scan
    (fun line _ a b s hstep hknown => known_step hdraws hturn hstep.1 hstep.2 hknown) hstart
  exact ⟨s', scan_append_eq_ok.2 ⟨s, hscan, hscan'⟩, hknown⟩

/-- Every run of moves only adds lines. -/
lemma grows_of_moves {a b : Phase × ActiveTurn}
    (h : Relation.ReflTransGen (Move around turnId) a b) :
    Relation.ReflTransGen (TurnLoop.Grows around.env) a.2.loop b.2.loop := by
  induction h with
  | refl => exact .refl
  | tail _ hmove ih => exact ih.trans hmove.grows

end ActiveTurn

end Rupi
