import Rupi.Lib.Attempt

/-!
Pre- and postconditions of computations whose state survives an error.

- `bind_eq_ok`: a sequence succeeds exactly if both of its halves do.
- `Meets`: what a computation leaves of the states that meet its precondition, with its result
  or with its error.
- `Meets.pure`, `Meets.bind`, `Meets.modify`, `Meets.ofExcept`: one rule for each construct.
- `Meets.weaken`: the rule of consequence.
- `each`, `Meets.each`: a loop over a list, with an invariant that may depend on what is left.
-/

namespace Attempt

variable {σ ε ε' α β ι : Type}

section Inversion

variable {m : Attempt σ ε α} {f : α → Attempt σ ε β} {s s' : σ} {a : α} {b : β}

/-- A sequence succeeds exactly if both of its halves do. -/
lemma bind_eq_ok : (m >>= f) s = (s', .ok b) ↔
    ∃ mid a, m s = (mid, .ok a) ∧ f a mid = (s', .ok b) := by
  cases hstep : m s with
  | mk mid result =>
    cases result with
    | ok a =>
      rw [bind_of_ok hstep]
      exact ⟨fun h => ⟨mid, a, rfl, h⟩, fun ⟨_, _, heq, h⟩ => by cases heq; exact h⟩
    | error e =>
      rw [bind_of_error hstep]
      constructor
      · intro h
        cases h
      · rintro ⟨_, _, heq, -⟩
        cases heq

/-- A run that ends in a result which passes a test. -/
lemma exists_of_any {p : α → Bool} (h : (m s).2.toOption.any p = true) :
    ∃ a, m s = ((m s).1, .ok a) ∧ p a = true := by
  cases hrun : m s with
  | mk s' result =>
    rw [hrun] at h
    cases result with
    | ok a => exact ⟨a, rfl, h⟩
    | error e => cases h

end Inversion

/-- The error of a computation is another one. -/
def mapError (f : ε → ε') (m : Attempt σ ε α) : Attempt σ ε' α := fun s =>
  ((m s).1, (m s).2.mapError f)

/-- Fail. -/
def fail (e : ε) : Attempt σ ε α := fun s => (s, .error e)

/-- What is left of a state that meets the precondition: with a result it meets `post`, with an
error it meets `failed`. -/
def Meets (pre : σ → Prop) (m : Attempt σ ε α) (post : α → σ → Prop) (failed : ε → σ → Prop) :
    Prop :=
  ∀ s, pre s →
    match m s with
    | (s', .ok a) => post a s'
    | (s', .error e) => failed e s'

namespace Meets

variable {pre pre' : σ → Prop} {m : Attempt σ ε α} {f : α → Attempt σ ε β} {mid post : α → σ → Prop}
  {post' : β → σ → Prop} {failed : ε → σ → Prop}

lemma pure {a : α} (h : ∀ s, pre s → post a s) : Meets pre (Pure.pure a) post failed := h

lemma fail {e : ε} (h : ∀ s, pre s → failed e s) :
    Meets pre (fail e : Attempt σ ε α) post failed := h

lemma bind (hm : Meets pre m mid failed) (hf : ∀ a, Meets (mid a) (f a) post' failed) :
    Meets pre (m >>= f) post' failed := by
  intro s hs
  have hstep := hm s hs
  cases hrun : m s with
  | mk s' result =>
    rw [hrun] at hstep
    cases result with
    | ok a =>
      rw [bind_of_ok hrun]
      exact hf a s' hstep
    | error e =>
      rw [bind_of_error hrun]
      exact hstep

/-- The rule of consequence. -/
lemma weaken {post'' : α → σ → Prop} {failed' : ε → σ → Prop} (h : Meets pre m post failed)
    (hpre : ∀ s, pre' s → pre s) (hpost : ∀ a s, post a s → post'' a s)
    (hfailed : ∀ e s, failed e s → failed' e s) : Meets pre' m post'' failed' := by
  intro s hs
  have hrun := h s (hpre s hs)
  cases hstep : m s with
  | mk s' result =>
    rw [hstep] at hrun
    cases result with
    | ok a => exact hpost a s' hrun
    | error e => exact hfailed e s' hrun

lemma modify {g : σ → σ} {post : Unit → σ → Prop} (h : ∀ s, pre s → post () (g s)) :
    Meets pre (modify g : Attempt σ ε Unit) post failed := h

lemma ofExcept {x : Except ε α} (hok : ∀ a s, x = .ok a → pre s → post a s)
    (herror : ∀ e s, x = .error e → pre s → failed e s) :
    Meets pre (ofExcept x : Attempt σ ε α) post failed := by
  intro s hs
  cases x with
  | ok a => exact hok a s rfl hs
  | error e => exact herror e s rfl hs

lemma mapError {g : ε → ε'} {failed' : ε' → σ → Prop}
    (h : Meets pre m post fun e s => failed' (g e) s) :
    Meets pre (m.mapError g) post failed' := by
  intro s hs
  have hrun := h s hs
  rw [Attempt.mapError]
  cases hstep : m s with
  | mk s' result =>
    rw [hstep] at hrun
    cases result with
    | ok a => exact hrun
    | error e => exact hrun

lemma ite {p : Prop} [Decidable p] {m' : Attempt σ ε α} (hm : p → Meets pre m post failed)
    (hm' : ¬p → Meets pre m' post failed) : Meets pre (if p then m else m') post failed := by
  split_ifs with h
  · exact hm h
  · exact hm' h

end Meets

/-- A computation for every element of a list, in order. -/
def each (f : ι → Attempt σ ε Unit) : List ι → Attempt σ ε Unit
  | [] => pure ()
  | i :: rest => do
    f i
    each f rest

/-- What every element preserves, a loop over the elements preserves. -/
lemma Meets.each {inv : σ → Prop} {f : ι → Attempt σ ε Unit} {failed : ε → σ → Prop}
    {items : List ι} (h : ∀ i ∈ items, Meets inv (f i) (fun _ => inv) failed) :
    Meets inv (each f items) (fun _ => inv) failed := by
  induction items with
  | nil => exact .pure fun _ hs => hs
  | cons i rest ih =>
    exact (h i List.mem_cons_self).bind fun _ => ih fun j hj => h j (List.mem_cons_of_mem _ hj)

end Attempt
