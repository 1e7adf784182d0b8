import Rupi.Runtime.TurnRuns

/-!
What a turn does outside, and what it looks at before.

- `Act.Allowed`: what an act needs of those in front of it.
- `Guarded`: every act has what it needs.
- `Watches`: what every move of a turn keeps.
- **`runTurn_guarded`**: a turn asks and enters tools only where it may, and not behind a look that
  showed the cancel token set.
-/

namespace Rupi

open Attempt

/-- The cancel token was seen set. -/
def Seen (acts : List Act) : Prop := .looked true ∈ acts

/-- What an act needs of those in front of it: a request that fits its window is asked right behind
a look at a token that is not set; a call is dispatched right behind a look, and its tool is not
entered once the token was seen set; and a token that was seen set stays so. -/
def Act.Allowed (before : List Act) : Act → Prop
  | .looked cancelled => Seen before → cancelled = true
  | .asked provider request => before.getLast? = some (.looked false) ∧ ¬Seen before ∧
      (estimateTokens request.request < 2 ^ 64 → FitsWindow provider request)
  | .dispatched _ steps => ∃ cancelled, before.getLast? = some (.looked cancelled) ∧
      (Seen before → .entered ∉ steps)

/-- Every act has what it needs. -/
def Guarded (acts : List Act) : Prop :=
  ∀ before act after, acts = before ++ act :: after → act.Allowed before

/-- How many requests are asked. -/
def asks (acts : List Act) : ℕ := acts.countP fun act => act matches .asked _ _

section Acts

variable {acts : List Act} {act : Act}

lemma Guarded.snoc (h : Guarded acts) (hact : act.Allowed acts) : Guarded (acts ++ [act]) := by
  intro before other after heq
  rcases List.eq_nil_or_concat after with rfl | ⟨front, last, rfl⟩
  · obtain ⟨rfl, hlast⟩ := List.append_inj' heq rfl
    cases hlast
    exact hact
  · rw [List.concat_eq_append, ← List.cons_append, ← List.append_assoc] at heq
    exact h before other front (List.append_inj' heq rfl).1

lemma seen_snoc : Seen (acts ++ [act]) ↔ Seen acts ∨ act = .looked true := by
  rw [Seen, List.mem_append, List.mem_singleton, eq_comm]
  rfl

lemma asks_snoc : asks (acts ++ [act]) = asks acts + asks [act] := List.countP_append

/-- Behind a look that showed a token that is not set, it was not seen set. -/
lemma Guarded.not_seen (h : Guarded acts) (hlast : acts.getLast? = some (.looked false)) :
    ¬Seen acts := by
  obtain ⟨before, rfl⟩ := List.getLast?_eq_some_iff.1 hlast
  intro hseen
  rcases seen_snoc.1 hseen with hbefore | hlooked
  · exact absurd (h before (.looked false) [] rfl hbefore) Bool.false_ne_true
  · cases hlooked

end Acts

namespace ActiveTurn

variable {around : Surroundings} {turnId : TurnId} {p p' : Phase} {t t' : ActiveTurn}

/-- What every move of a turn keeps. -/
structure Watches (around : Surroundings) (p : Phase) (t : ActiveTurn) : Prop where
  guarded : Guarded t.acts
  cancelled : Seen t.acts → t.cancelled = true
  asked : asks t.acts ≤ t.requests
  limit : t.requests ≤ around.maxRequests
  ready : ∀ provider request, p = .ready provider request → asks t.acts + 1 ≤ t.requests ∧
    (estimateTokens request.request < 2 ^ 64 → FitsWindow provider request)

/-- A move that is not seen from outside. -/
lemma Watches.same (h : Watches around p t) (hacts : t'.acts = t.acts)
    (hrequests : t'.requests = t.requests) (hcancelled : t.cancelled = true → t'.cancelled = true)
    (hready : ∀ provider request, p' = .ready provider request → p = .ready provider request) :
    Watches around p' t' := by
  refine ⟨hacts ▸ h.guarded, fun hseen => hcancelled (h.cancelled (hacts ▸ hseen)), ?_, ?_, ?_⟩
  · rw [hacts, hrequests]
    exact h.asked
  · rw [hrequests]
    exact h.limit
  · intro provider request hp
    rw [hacts, hrequests]
    exact h.ready provider request (hready provider request hp)

/-- A look at the token. -/
lemma Watches.looked (h : Watches around p t) : Watches around p (t.looked around) := by
  have hlooked : (t.looked around).acts = t.acts ++ [.looked (t.looked around).cancelled] := rfl
  have hkeep : t.cancelled = true → (t.looked around).cancelled = true := fun hset => by
    change (t.cancelled || around.cancelled t.looks) = true
    rw [hset, Bool.true_or]
  have hasks : asks (t.looked around).acts = asks t.acts := asks_snoc
  refine ⟨?_, fun hseen => ?_, hasks ▸ h.asked, h.limit, fun provider request hp => ?_⟩
  · rw [hlooked]
    exact h.guarded.snoc fun hseen => hkeep (h.cancelled hseen)
  · rw [hlooked, seen_snoc] at hseen
    rcases hseen with hbefore | hnow
    · exact hkeep (h.cancelled hbefore)
    · exact Act.looked.inj hnow
  · rw [hasks]
    exact h.ready provider request hp

/-- A call that is closed. -/
lemma Watches.closed {assistant : EventId} {joins : Bool} {call : ToolCallBlock}
    (h : Watches around p t) (hcloses : Closes around turnId assistant joins call t t')
    (hp' : ∀ provider request, p' ≠ .ready provider request) : Watches around p' t' := by
  obtain hacts | ⟨cancelled, steps, hacts, hkept, hstopped⟩ := hcloses.acts
  · exact h.same hacts hcloses.requests hcloses.cancelled
      fun provider request hp => absurd hp (hp' provider request)
  have hsplit : t'.acts = t.acts ++ [.looked cancelled] ++ [.dispatched call steps] := by
    rw [hacts, List.append_assoc, List.singleton_append]
  have hlooked : Guarded (t.acts ++ [.looked cancelled]) :=
    h.guarded.snoc fun hseen => hkept (h.cancelled hseen)
  have hset : Seen (t.acts ++ [.looked cancelled]) → cancelled = true := by
    intro hseen
    rcases seen_snoc.1 hseen with hbefore | hnow
    · exact hkept (h.cancelled hbefore)
    · exact Act.looked.inj hnow
  have hasks : asks t'.acts = asks t.acts := by
    rw [hsplit, asks_snoc, asks_snoc]
    rfl
  refine ⟨?_, fun hseen => ?_, ?_, ?_, fun provider request hp => absurd hp (hp' provider request)⟩
  · rw [hsplit]
    exact hlooked.snoc ⟨cancelled, List.getLast?_concat, fun hseen => (hstopped (hset hseen)).1⟩
  · rw [hsplit, seen_snoc] at hseen
    rcases hseen with hbefore | hnow
    · exact (hstopped (hset hbefore)).2
    · cases hnow
  · rw [hasks, hcloses.requests]
    exact h.asked
  · rw [hcloses.requests]
    exact h.limit

/-- Every move keeps it. -/
lemma Watches.move {a b : Phase × ActiveTurn} (h : Watches around a.1 a.2)
    (hmove : Move around turnId a b) : Watches around b.1 b.2 := by
  cases hmove with
  | look p t => exact h.looked
  | tend htends => exact h.same htends.acts htends.requests htends.cancelled fun _ _ hp => hp
  | note s t level message => exact h.same rfl rfl id fun _ _ hp => hp
  | say hevent hrecord => exact h.same rfl rfl id fun _ _ hp => by cases hp
  | reshape hwindow => exact h.same rfl rfl id fun _ _ hp => by cases hp
  | spend hask hbudget hrequest hfits =>
    refine ⟨h.guarded, h.cancelled, h.asked.trans (Nat.le_succ _), hbudget, fun _ _ hp => ?_⟩
    cases hp
    exact ⟨Nat.succ_le_succ h.asked, hfits⟩
  | ask streamed harmed collector hcollector hnext =>
    obtain ⟨hroom, hfits⟩ := h.ready _ _ rfl
    have hunseen := h.guarded.not_seen harmed
    rw [hnext]
    refine ⟨h.guarded.snoc ⟨harmed, hunseen, hfits⟩, fun hseen => ?_, asks_snoc ▸ hroom, h.limit,
      fun _ _ hp => by cases hp⟩
    rcases seen_snoc.1 hseen with hbefore | hnow
    · exact absurd hbefore hunseen
    · cases hnow
  | fail joins hepoch hmodel hcount => exact h.same rfl rfl id fun _ _ hp => by cases hp
  | answer hepoch hmodel hcount hcalls => exact h.same rfl rfl id fun _ _ hp => by cases hp
  | answerWith hepoch hmodel hcount hcontent hrecord =>
    exact h.same rfl rfl id fun _ _ hp => by cases hp
  | close hcloses => exact h.closed hcloses fun _ _ hp => by cases hp
  | settle hkept => exact h.same rfl rfl id fun _ _ hp => by cases hp
  | drop => exact h.same rfl rfl id fun _ _ hp => by cases hp
  | abandon habandons =>
    exact h.same habandons.acts habandons.requests habandons.cancelled fun _ _ hp => by cases hp
  | noteEnding t level message => exact h.same rfl rfl id fun _ _ hp => by cases hp
  | retry t again => exact h.same rfl rfl id fun _ _ hp => by cases hp
  | takeOver hbackup hother hsource htarget => exact h.same rfl rfl id fun _ _ hp => by cases hp
  | finish t status durationMs hp => exact h.same rfl rfl id fun _ _ hp => by cases hp

/-- Every run of moves keeps watch. -/
lemma Watches.run {a b : Phase × ActiveTurn} (h : Watches around a.1 a.2)
    (hmoves : Relation.ReflTransGen (Move around turnId) a b) : Watches around b.1 b.2 := by
  induction hmoves with
  | refl => exact h
  | tail _ hmove ih => exact ih.move hmove

/-- **The acts of a turn**: whatever happens around it, it asks for a response only right behind a
look at a token that is not set, with a request that fits the window, and no more often than it
may; once it saw the token set, it asks for nothing and enters no tool. -/
theorem runTurn_guarded (around : Surroundings) (turnId : TurnId) (input : String)
    (externalContext : List (ExternalContextRetrieved × String)) (t : ActiveTurn) :
    Guarded (runTurn around turnId input externalContext t).1.acts ∧
      asks (runTurn around turnId input externalContext t).1.acts ≤ around.maxRequests := by
  obtain ⟨p, hpath, -⟩ := runTurn_moves around turnId input externalContext t
  have hstart : Watches around (.free (.shown false))
      (begin around (around.mutatingApprovalAvailable t.looks)
        { t with looks := t.looks + 1 }) := by
    refine ⟨fun before act after heq => ?_, fun hseen => absurd hseen List.not_mem_nil, le_rfl,
      Nat.zero_le _, fun _ _ hp => by cases hp⟩
    exact absurd heq.symm (List.append_ne_nil_of_right_ne_nil _ (List.cons_ne_nil _ _))
  have hend := hstart.run hpath
  exact ⟨hend.guarded, hend.asked.trans hend.limit⟩

end ActiveTurn

end Rupi
