import Mathlib.Tactic

/-!
Computations whose state survives an error.

- `Attempt`: a step of a state that may fail; what it did before stays done.
- `Fails`: the failures of a sequence.
- `Keeps`, `KeepsOnError`: a part of the state that a step leaves alone, always or when it
  fails.
-/

/-- A computation on a state that may fail, and leaves a state either way. -/
def Attempt (σ ε α : Type) : Type := σ → σ × Except ε α

namespace Attempt

variable {σ ε α β γ : Type}

instance : Monad (Attempt σ ε) where
  pure a := fun s => (s, .ok a)
  bind m f := fun s =>
    match m s with
    | (s, .ok a) => f a s
    | (s, .error e) => (s, .error e)

/-- The state. -/
def get : Attempt σ ε σ := fun s => (s, .ok s)

/-- A change of the state. -/
def modify (f : σ → σ) : Attempt σ ε Unit := fun s => (f s, .ok ())

/-- A check that leaves the state alone. -/
def ofExcept (x : Except ε α) : Attempt σ ε α := fun s => (s, x)

section Run

variable {m : Attempt σ ε α} {f : α → Attempt σ ε β} {s s' : σ} {a : α} {e : ε}

lemma bind_of_ok (h : m s = (s', .ok a)) : (m >>= f) s = f a s' := by
  change (match m s with
    | (s, .ok a) => f a s
    | (s, .error e) => (s, .error e)) = _
  rw [h]

lemma bind_of_error (h : m s = (s', .error e)) : (m >>= f) s = (s', .error e) := by
  change (match m s with
    | (s, .ok a) => f a s
    | (s, .error e) => (s, .error e)) = _
  rw [h]

@[simp] lemma pure_apply (a : α) (s : σ) : (pure a : Attempt σ ε α) s = (s, .ok a) := rfl

@[simp] lemma get_bind (f : σ → Attempt σ ε β) (s : σ) : (get >>= f) s = f s s := rfl

@[simp] lemma modify_bind (g : σ → σ) (f : Unit → Attempt σ ε β) (s : σ) :
    (modify g >>= f) s = f () (g s) := rfl

@[simp] lemma ofExcept_ok_bind (a : α) (f : α → Attempt σ ε β) (s : σ) :
    ((ofExcept (.ok a) : Attempt σ ε α) >>= f) s = f a s := rfl

@[simp] lemma ofExcept_error_bind (e : ε) (f : α → Attempt σ ε β) (s : σ) :
    ((ofExcept (.error e) : Attempt σ ε α) >>= f) s = (s, .error e) := rfl

/-- The attempt fails from a state. -/
def Fails (m : Attempt σ ε α) (s : σ) : Prop := ∃ e, (m s).2 = .error e

end Run

/-! ### What a step leaves alone -/

/-- A part of the state that a step leaves alone. -/
def Keeps (view : σ → γ) (m : Attempt σ ε α) : Prop := ∀ s, view (m s).1 = view s

/-- A part of the state that a step leaves alone when it fails. -/
def KeepsOnError (view : σ → γ) (m : Attempt σ ε α) : Prop := ∀ s, m.Fails s → view (m s).1 = view s

section Keeps

variable {view : σ → γ} {m : Attempt σ ε α} {f : α → Attempt σ ε β}

lemma keeps_pure (a : α) : (pure a : Attempt σ ε α).Keeps view := fun _ => rfl

lemma Keeps.bind (hm : m.Keeps view) (hf : ∀ a, (f a).Keeps view) : (m >>= f).Keeps view := by
  intro s
  have hs := hm s
  cases hstep : m s with
  | mk s' result =>
    rw [hstep] at hs
    cases result with
    | ok a => rw [bind_of_ok hstep, hf a s', hs]
    | error e => rw [bind_of_error hstep, hs]

/-- A sequence fails in its first half, or in its second. -/
lemma KeepsOnError.bind (hm : m.Keeps view) (hf : ∀ a, (f a).KeepsOnError view) :
    (m >>= f).KeepsOnError view := by
  rintro s ⟨e, he⟩
  have hs := hm s
  cases hstep : m s with
  | mk s' result =>
    rw [hstep] at hs
    cases result with
    | ok a =>
      rw [bind_of_ok hstep] at he ⊢
      exact (hf a s' ⟨e, he⟩).trans hs
    | error e' =>
      rw [bind_of_error hstep]
      exact hs

lemma keeps_ofExcept (x : Except ε α) : (ofExcept x : Attempt σ ε α).Keeps view := fun _ => rfl

/-- A change of the state does not fail. -/
lemma keepsOnError_modify (g : σ → σ) (b : β) :
    (modify g >>= fun _ => pure b : Attempt σ ε β).KeepsOnError view := by
  rintro s ⟨e, he⟩
  contradiction

lemma keepsOnError_pure (a : α) : (pure a : Attempt σ ε α).KeepsOnError view := by
  rintro s ⟨e, he⟩
  contradiction

end Keeps

end Attempt
