import Rupi.Lib.Fallible
import Mathlib.Logic.Relation

/-!
Runs of a labelled step relation.

- `Path`: where a list of labels leads to.
- `Path.trans`: two runs, one behind the other.
- `Path.both`: two runs with the same labels, side by side.
- `Path.of_append`: a run passes through the end of each of its parts.
- `Path.of_reach`: a run of another relation that is matched step by step.
- `Path.scan`: a loop that takes every step takes every run.
-/

namespace Labelled

variable {ε τ ι : Type} {σ κ : Type*} {step : σ → ι → σ → Prop} {start s s' : σ}
  {labels labels' : List ι} {i : ι}

/-- Where a list of labels leads to. -/
inductive Path (step : σ → ι → σ → Prop) (start : σ) : List ι → σ → Prop where
  | refl : Path step start [] start
  | tail {labels : List ι} {i : ι} {s s' : σ} (path : Path step start labels s)
      (h : step s i s') : Path step start (labels ++ [i]) s'

namespace Path

lemma single (h : step start i s) : Path step start [i] s := .tail .refl h

lemma trans (h : Path step start labels s) (h' : Path step s labels' s') :
    Path step start (labels ++ labels') s' := by
  induction h' with
  | refl => rwa [List.append_nil]
  | tail _ hstep ih =>
    rw [← List.append_assoc]
    exact .tail ih hstep

lemma head (h : step start i s) (h' : Path step s labels s') :
    Path step start (i :: labels) s' := (single h).trans h'

/-- A run whose steps are each matched, with the labels that it leaves, is matched. -/
theorem of_reach {move : κ → κ → Prop} (written : κ → List ι) (R : κ → σ → Prop)
    (hmove : ∀ a b s, move a b → R a s →
      ∃ labels s', written b = written a ++ labels ∧ Path step s labels s' ∧ R b s')
    {a b : κ} (h : Relation.ReflTransGen move a b) (hs : R a s) :
    ∃ labels s', written b = written a ++ labels ∧ Path step s labels s' ∧ R b s' := by
  induction h with
  | refl => exact ⟨[], s, (List.append_nil _).symm, .refl, hs⟩
  | tail _ hlast ih =>
    obtain ⟨labels, s', hwritten, hpath, hs'⟩ := ih
    obtain ⟨labels', s'', hwritten', hpath', hs''⟩ := hmove _ _ _ hlast hs'
    refine ⟨labels ++ labels', s'', ?_, hpath.trans hpath', hs''⟩
    rw [hwritten', hwritten, List.append_assoc]

/-- A loop that takes every step takes every run. -/
theorem scan {check : τ → ι → Except ε τ} {R : σ → τ → Prop} (h : Path step start labels s)
    (hstep : ∀ i ∈ labels, ∀ s s' t, step s i s' → R s t → ∃ t', check t i = .ok t' ∧ R s' t')
    {t : τ} (ht : R start t) : ∃ t', Fallible.scan check t labels = .ok t' ∧ R s t' := by
  induction h with
  | refl => exact ⟨t, rfl, ht⟩
  | tail _ hlast ih =>
    obtain ⟨t', hscan, ht'⟩ := ih fun i hi => hstep i (List.mem_append_left _ hi)
    obtain ⟨t'', hcheck, ht''⟩ :=
      hstep _ (List.mem_append_right _ (List.mem_singleton_self _)) _ _ _ hlast ht'
    exact ⟨t'', Fallible.scan_append_eq_ok.2 ⟨t', hscan, Fallible.bind_eq_ok.2 ⟨t'', hcheck, rfl⟩⟩,
      ht''⟩

/-- Two runs with the same labels, side by side. -/
lemma both {step' : κ → ι → κ → Prop} {k k' : κ} (h : Path step start labels s)
    (h' : Path step' k labels k') :
    Path (fun a i b => step a.1 i b.1 ∧ step' a.2 i b.2) (start, k) labels (s, k') := by
  induction h generalizing k' with
  | refl =>
    generalize hlabels : ([] : List ι) = all at h'
    cases h' with
    | refl => exact .refl
    | tail _ _ => exact absurd hlabels.symm (List.append_ne_nil_of_right_ne_nil _
        (List.cons_ne_nil _ _))
  | @tail labels i s s' _ hlast ih =>
    generalize hlabels : labels ++ [i] = all at h'
    cases h' with
    | refl => exact absurd hlabels (List.append_ne_nil_of_right_ne_nil _ (List.cons_ne_nil _ _))
    | tail hpath' hlast' =>
      obtain ⟨rfl, hi⟩ := List.append_inj' hlabels rfl
      obtain rfl := List.singleton_inj.1 hi
      exact (ih hpath').tail ⟨hlast, hlast'⟩

/-- A run passes through the end of each of its parts. -/
lemma of_append (h : Path step start (labels ++ labels') s') :
    ∃ s, Path step start labels s ∧ Path step s labels' s' := by
  induction labels' using List.reverseRecOn generalizing s' with
  | nil => exact ⟨s', by rwa [List.append_nil] at h, .refl⟩
  | append_singleton labels' i ih =>
    rw [← List.append_assoc] at h
    generalize hlabels : labels ++ labels' ++ [i] = all at h
    cases h with
    | refl => exact absurd hlabels (List.append_ne_nil_of_right_ne_nil _ (List.cons_ne_nil _ _))
    | tail hpath hlast =>
      obtain ⟨hfront, hback⟩ := List.append_inj' hlabels rfl
      obtain ⟨s, hfirst, hrest⟩ := ih (hfront ▸ hpath)
      obtain rfl := List.singleton_inj.1 hback
      exact ⟨s, hfirst, hrest.tail hlast⟩

end Path

end Labelled
