import Mathlib.Tactic

/-!
Tickets that a counter issues to threads.

- `Issued`: every ticket is below the counter, and no two threads have the same.
- `Issued.keep`, `Issued.issue`: a thread goes on with its ticket, or takes the next.
- `Issued.nodup_snd`: a log with one entry a thread has no ticket twice.
-/

namespace Tickets

variable {T σ : Type*} [DecidableEq T]

/-- What a counter has issued to threads in these states. -/
structure Issued (ticket : σ → Option Nat) (next : Nat) (threads : T → σ) : Prop where
  fresh : ∀ t i, ticket (threads t) = some i → i < next
  distinct : ∀ t t' i, ticket (threads t) = some i → ticket (threads t') = some i → t = t'

namespace Issued

variable {ticket : σ → Option Nat} {next : Nat} {threads : T → σ} {t : T} {stage : σ}

/-- A thread goes on with its ticket. -/
lemma keep (h : Issued ticket next threads) (hstage : ticket stage = ticket (threads t)) :
    Issued ticket next (Function.update threads t stage) := by
  have hsame : ∀ u, ticket (Function.update threads t stage u) = ticket (threads u) := by
    intro u
    by_cases hu : u = t
    · rw [hu, Function.update_self, hstage]
    · rw [Function.update_of_ne hu]
  refine ⟨fun u i hu => h.fresh u i ((hsame u).symm.trans hu), fun u u' i hu hu' => ?_⟩
  exact h.distinct u u' i ((hsame u).symm.trans hu) ((hsame u').symm.trans hu')

/-- A thread takes the next ticket. -/
lemma issue (h : Issued ticket next threads) (hstage : ticket stage = some next) :
    Issued ticket (next + 1) (Function.update threads t stage) := by
  have hother : ∀ u, u ≠ t → ∀ i, ticket (Function.update threads t stage u) = some i → i < next := by
    intro u hu i hi
    rw [Function.update_of_ne hu] at hi
    exact h.fresh u i hi
  have hself : ∀ i, ticket (Function.update threads t stage t) = some i → i = next := by
    intro i hi
    rw [Function.update_self, hstage] at hi
    exact (Option.some.inj hi).symm
  refine ⟨fun u i hi => ?_, fun u u' i hi hi' => ?_⟩
  · by_cases hu : u = t
    · subst hu
      exact Nat.lt_succ_of_le (hself i hi).le
    · exact Nat.lt_succ_of_lt (hother u hu i hi)
  · by_cases hu : u = t <;> by_cases hu' : u' = t
    · exact hu.trans hu'.symm
    · subst hu
      have hlt := hother u' hu' i hi'
      have heq := hself i hi
      omega
    · subst hu'
      have hlt := hother u hu i hi
      have heq := hself i hi'
      omega
    · rw [Function.update_of_ne hu] at hi
      rw [Function.update_of_ne hu'] at hi'
      exact h.distinct u u' i hi hi'

omit [DecidableEq T] in
/-- A log in which every thread enters its ticket at most once has no ticket twice. -/
lemma nodup_snd (h : Issued ticket next threads) {log : List (T × Nat)}
    (honce : (log.map Prod.fst).Nodup)
    (howner : ∀ t i, (t, i) ∈ log → ticket (threads t) = some i) : (log.map Prod.snd).Nodup := by
  refine List.Nodup.map_on (fun a ha b hb hab => ?_) honce.of_map
  obtain ⟨t, i⟩ := a
  obtain ⟨t', i'⟩ := b
  cases (hab : i = i')
  rw [h.distinct t t' i (howner t i ha) (howner t' i hb)]

end Issued

end Tickets
