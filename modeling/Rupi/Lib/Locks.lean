import Mathlib.Tactic

/-!
Locks by name, held by threads at a program counter.

- `Table`: who holds which lock.
- `Agrees`: the program counters say the same.
- `Agrees.exclusive`: no lock is held by two threads.
-/

namespace Locks

variable {N P C : Type*} [DecidableEq N] [DecidableEq P]

/-- The holder of every lock, if it has one. -/
abbrev Table (N P : Type*) := N → Option P

/-- The thread takes the lock. -/
def take (table : Table N P) (n : N) (p : P) : Table N P := Function.update table n (some p)

/-- The lock is free again. -/
def release (table : Table N P) (n : N) : Table N P := Function.update table n none

/-- The locks of a thread that has ended are free again. -/
def releaseAll (table : Table N P) (p : P) : Table N P :=
  fun n => if table n = some p then none else table n

/-- The table names a holder exactly where the holder's program counter says so. -/
def Agrees (holds : C → N → Bool) (table : Table N P) (counters : P → C) : Prop :=
  ∀ n p, table n = some p ↔ holds (counters p) n = true

/-- A lock that was given back early makes no difference at the end. -/
lemma releaseAll_release {table : Table N P} {n : N} {p : P} (h : table n = some p) :
    releaseAll (release table n) p = releaseAll table p := by
  funext m
  by_cases hm : m = n
  · simp [releaseAll, release, hm, h]
  · simp [releaseAll, release, Function.update_of_ne hm]

namespace Agrees

variable {holds : C → N → Bool} {table : Table N P} {counters : P → C} {n : N} {p q : P} {c : C}

omit [DecidableEq N] [DecidableEq P] in
/-- **Mutual exclusion.** -/
lemma exclusive (h : Agrees holds table counters) (hp : holds (counters p) n = true)
    (hq : holds (counters q) n = true) : p = q :=
  Option.some.inj (((h n p).2 hp).symm.trans ((h n q).2 hq))

omit [DecidableEq N] in
/-- A thread goes on with the locks it has. -/
lemma keep (h : Agrees holds table counters) (hc : ∀ n, holds c n = holds (counters p) n) :
    Agrees holds table (Function.update counters p c) := by
  intro n q
  by_cases hq : q = p
  · rw [hq, Function.update_self, hc]
    exact h n p
  · rw [Function.update_of_ne hq]
    exact h n q

/-- A thread takes a free lock. -/
lemma take (h : Agrees holds table counters) (hfree : table n = none) (hn : holds c n = true)
    (hc : ∀ m, m ≠ n → holds c m = holds (counters p) m) :
    Agrees holds (take table n p) (Function.update counters p c) := by
  intro m q
  by_cases hm : m = n
  · subst hm
    rw [Locks.take, Function.update_self]
    by_cases hq : q = p
    · simp [hq, hn]
    · have hnot : ¬ holds (counters q) m = true := by rw [← h m q, hfree]; simp
      rw [Function.update_of_ne hq]
      exact ⟨fun he => absurd (Option.some.inj he).symm hq, fun he => absurd he hnot⟩
  · rw [Locks.take, Function.update_of_ne hm]
    by_cases hq : q = p
    · rw [hq, Function.update_self, hc m hm]
      exact h m p
    · rw [Function.update_of_ne hq]
      exact h m q

/-- A thread gives back a lock that it has. -/
lemma release (h : Agrees holds table counters) (hheld : holds (counters p) n = true)
    (hn : holds c n = false) (hc : ∀ m, m ≠ n → holds c m = holds (counters p) m) :
    Agrees holds (release table n) (Function.update counters p c) := by
  intro m q
  by_cases hm : m = n
  · subst hm
    rw [Locks.release, Function.update_self]
    by_cases hq : q = p
    · simp [hq, hn]
    · rw [Function.update_of_ne hq]
      exact ⟨(nomatch ·), fun he => absurd (h.exclusive he hheld) hq⟩
  · rw [Locks.release, Function.update_of_ne hm]
    by_cases hq : q = p
    · rw [hq, Function.update_self, hc m hm]
      exact h m p
    · rw [Function.update_of_ne hq]
      exact h m q

omit [DecidableEq N] in
/-- A thread ends. -/
lemma releaseAll (h : Agrees holds table counters) (hc : ∀ m, holds c m = false) :
    Agrees holds (releaseAll table p) (Function.update counters p c) := by
  intro m q
  rw [Locks.releaseAll]
  by_cases hq : q = p
  · subst hq
    rw [Function.update_self, hc m]
    split_ifs with hm
    · simp
    · simp [hm]
  · rw [Function.update_of_ne hq, ← h m q]
    split_ifs with hm
    · rw [hm]
      exact ⟨(nomatch ·), fun he => absurd (Option.some.inj he).symm hq⟩
    · rfl

end Agrees

end Locks
