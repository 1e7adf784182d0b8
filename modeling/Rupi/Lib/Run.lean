import Mathlib.Tactic

/-!
Runs of a deterministic step function.

- `run`: the state after a list of inputs.
- `Along`: a condition that holds at every step of a run.
- `Along.invariant`: an invariant that every admissible step preserves holds
  after a run whose steps are all admissible.
- `Along.strengthen`: and so does, at every step, what it gives there.
-/

namespace Run

variable {σ ι : Type*}

/-- The state after a list of inputs. -/
def run (step : σ → ι → σ) (s : σ) (inputs : List ι) : σ := inputs.foldl step s

/-- The condition holds of every input, in the state the inputs before it lead to. -/
def Along (step : σ → ι → σ) (ok : σ → ι → Prop) : σ → List ι → Prop
  | _, [] => True
  | s, i :: inputs => ok s i ∧ Along step ok (step s i) inputs

instance instDecidableAlong {step : σ → ι → σ} {ok : σ → ι → Prop} [∀ s i, Decidable (ok s i)] :
    (s : σ) → (inputs : List ι) → Decidable (Along step ok s inputs)
  | _, [] => isTrue trivial
  | s, i :: inputs =>
    haveI : Decidable (Along step ok (step s i) inputs) := instDecidableAlong (step s i) inputs
    inferInstanceAs (Decidable (ok s i ∧ Along step ok (step s i) inputs))

@[simp] lemma run_nil (step : σ → ι → σ) (s : σ) : run step s [] = s := rfl

@[simp] lemma run_cons (step : σ → ι → σ) (s : σ) (i : ι) (inputs : List ι) :
    run step s (i :: inputs) = run step (step s i) inputs := rfl

lemma run_append (step : σ → ι → σ) (s : σ) (inputs inputs' : List ι) :
    run step s (inputs ++ inputs') = run step (run step s inputs) inputs' :=
  List.foldl_append

/-- An invariant of every admissible step is an invariant of every admissible run. -/
theorem Along.invariant {step : σ → ι → σ} {ok : σ → ι → Prop} {inv : σ → Prop}
    (hstep : ∀ s i, inv s → ok s i → inv (step s i)) {s : σ} {inputs : List ι}
    (hok : Along step ok s inputs) (hs : inv s) : inv (run step s inputs) := by
  induction inputs generalizing s with
  | nil => exact hs
  | cons i inputs ih =>
    obtain ⟨hi, hrest⟩ := hok
    exact ih hrest (hstep s i hs hi)

/-- What an invariant gives at every admissible step holds along an admissible run. -/
theorem Along.strengthen {step : σ → ι → σ} {ok post : σ → ι → Prop} {inv : σ → Prop}
    (hstep : ∀ s i, inv s → ok s i → inv (step s i) ∧ post s i) {s : σ} {inputs : List ι}
    (hok : Along step ok s inputs) (hs : inv s) : Along step post s inputs := by
  induction inputs generalizing s with
  | nil => trivial
  | cons i inputs ih =>
    obtain ⟨hi, hrest⟩ := hok
    obtain ⟨hinv, hpost⟩ := hstep s i hs hi
    exact ⟨hpost, ih hrest hinv⟩

lemma along_true {step : σ → ι → σ} (s : σ) (inputs : List ι) :
    Along step (fun _ _ => True) s inputs := by
  induction inputs generalizing s with
  | nil => trivial
  | cons i inputs ih => exact ⟨trivial, ih (step s i)⟩

lemma Along.and {step : σ → ι → σ} {ok ok' : σ → ι → Prop} {s : σ} {inputs : List ι}
    (h : Along step ok s inputs) (h' : Along step ok' s inputs) :
    Along step (fun s i => ok s i ∧ ok' s i) s inputs := by
  induction inputs generalizing s with
  | nil => trivial
  | cons i inputs ih => exact ⟨⟨h.1, h'.1⟩, ih h.2 h'.2⟩

lemma Along.append {step : σ → ι → σ} {ok : σ → ι → Prop} {s : σ} {inputs inputs' : List ι} :
    Along step ok s (inputs ++ inputs') ↔
      Along step ok s inputs ∧ Along step ok (run step s inputs) inputs' := by
  induction inputs generalizing s with
  | nil => simp [Along]
  | cons i inputs ih => simp [Along, ih, and_assoc]

end Run
