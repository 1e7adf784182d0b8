import Mathlib.Tactic

/-!
Computations that stop at the first error.

- `bind_eq_ok`: a sequence succeeds when both of its halves do.
- `ensure`: a check with the error it reports.
- `forEach`: a loop that runs a check on every element.
- `scan`: a loop that threads a state; `scan_append` cuts it, `scan_invariant`
  carries an invariant through it.
-/

namespace Fallible

variable {ε α β σ : Type}

/-- A sequence succeeds exactly when both of its halves do. -/
lemma bind_eq_ok {x : Except ε α} {f : α → Except ε β} {b : β} :
    x >>= f = .ok b ↔ ∃ a, x = .ok a ∧ f a = .ok b := by
  rcases x with e | a
  · simp [bind, Except.bind]
  · simp [bind, Except.bind]

@[simp] lemma ok_bind (a : α) (f : α → Except ε β) : (Except.ok a >>= f) = f a := rfl

@[simp] lemma error_bind (e : ε) (f : α → Except ε β) :
    ((Except.error e : Except ε α) >>= f) = .error e := rfl

/-- A check with the error it reports. -/
def ensure (p : Prop) [Decidable p] (e : ε) : Except ε Unit := if p then .ok () else .error e

@[simp] lemma ensure_eq_ok {p : Prop} [Decidable p] {e : ε} {u : Unit} :
    ensure p e = .ok u ↔ p := by
  by_cases h : p <;> simp [ensure, h]

/-- Run a check on every element, in order. -/
def forEach (check : α → Except ε Unit) : List α → Except ε Unit
  | [] => .ok ()
  | a :: as => do
    check a
    forEach check as

@[simp] lemma forEach_eq_ok {check : α → Except ε Unit} {as : List α} {u : Unit} :
    forEach check as = .ok u ↔ ∀ a ∈ as, check a = .ok () := by
  induction as with
  | nil => simp [forEach]
  | cons a as ih =>
    constructor
    · intro h
      obtain ⟨⟨⟩, ha, hrest⟩ := bind_eq_ok.mp h
      simpa [ha] using ih.mp hrest
    · intro h
      exact bind_eq_ok.mpr ⟨(), h a (by simp), ih.mpr fun b hb => h b (by simp [hb])⟩

/-- Thread a state through a list, stopping at the first error. -/
def scan (step : σ → α → Except ε σ) : σ → List α → Except ε σ
  | s, [] => .ok s
  | s, a :: as => do
    let s ← step s a
    scan step s as

@[simp] lemma scan_nil (step : σ → α → Except ε σ) (s : σ) : scan step s [] = .ok s := rfl

lemma scan_cons (step : σ → α → Except ε σ) (s : σ) (a : α) (as : List α) :
    scan step s (a :: as) = (step s a >>= fun s => scan step s as) := rfl

lemma scan_append (step : σ → α → Except ε σ) (s : σ) (as bs : List α) :
    scan step s (as ++ bs) = (scan step s as >>= fun s => scan step s bs) := by
  induction as generalizing s with
  | nil => rfl
  | cons a as ih =>
    rw [List.cons_append, scan_cons, scan_cons]
    cases step s a with
    | error e => rfl
    | ok s' => exact ih s'

/-- A loop over a longer list succeeds only if the loop over the front does. -/
lemma scan_append_eq_ok {step : σ → α → Except ε σ} {s t : σ} {as bs : List α} :
    scan step s (as ++ bs) = .ok t ↔
      ∃ m, scan step s as = .ok m ∧ scan step m bs = .ok t := by
  rw [scan_append, bind_eq_ok]

/-- What every successful step preserves holds after a successful loop. -/
theorem scan_invariant {step : σ → α → Except ε σ} {inv : σ → Prop}
    (hstep : ∀ s a s', inv s → step s a = .ok s' → inv s') {s t : σ} {as : List α}
    (hs : inv s) (h : scan step s as = .ok t) : inv t := by
  induction as generalizing s with
  | nil =>
    obtain rfl := Except.ok.inj h
    exact hs
  | cons a as ih =>
    obtain ⟨s', hstep', hrest⟩ := bind_eq_ok.mp h
    exact ih (hstep s a s' hs hstep') hrest

end Fallible
