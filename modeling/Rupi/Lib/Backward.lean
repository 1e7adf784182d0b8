import Mathlib.Tactic

/-!
Searching a list from its end, in one go and chunk by chunk.

- `rposition`: the last position of a list whose element passes a test.
- `searchBack`: the same search, in chunks, from a cursor towards the front.
- **`searchBack_eq`**: the chunks make no difference.
-/

namespace Backward

variable {α : Type*} (p : α → Bool)

/-- The last position whose element passes the test. -/
def rposition : List α → Option Nat
  | [] => none
  | a :: as =>
    match rposition as with
    | some i => some (i + 1)
    | none => if p a then some 0 else none

variable {p}

/-- Nothing is found exactly when nothing passes. -/
lemma rposition_eq_none {as : List α} : rposition p as = none ↔ ∀ a ∈ as, p a = false := by
  induction as with
  | nil => simp [rposition]
  | cons a as ih =>
    rw [rposition]
    cases hrest : rposition p as with
    | some i =>
      have hnot : ¬∀ a ∈ as, p a = false := fun h => by simp [ih.mpr h] at hrest
      simp only [reduceCtorEq, false_iff]
      exact fun h => hnot fun b hb => h b (List.mem_cons_of_mem _ hb)
    | none =>
      have hrest := ih.mp hrest
      cases hp : p a with
      | true => simp [hp]
      | false => simpa [hp] using hrest

/-- The search prefers the back. -/
lemma rposition_append (as bs : List α) :
    rposition p (as ++ bs) =
      match rposition p bs with
      | some i => some (as.length + i)
      | none => rposition p as := by
  induction as with
  | nil => cases h : rposition p bs <;> simp [rposition, h]
  | cons a as ih =>
    rw [List.cons_append, rposition, ih]
    cases h : rposition p bs with
    | some i => simp only [List.length_cons, Option.some.injEq]; omega
    | none => rfl

/-- The last element that passes, with none after it. -/
lemma rposition_split {as bs : List α} {a : α} (ha : p a = true) (hbs : ∀ b ∈ bs, p b = false) :
    rposition p (as ++ a :: bs) = some as.length := by
  have hback : rposition p (a :: bs) = some 0 := by
    rw [rposition, rposition_eq_none.mpr hbs]
    simp [ha]
  rw [rposition_append, hback]
  rfl

/-- What a search finds passes, and nothing after it does. -/
lemma of_rposition {as : List α} {i : Nat} (h : rposition p as = some i) :
    ∃ before a after, as = before ++ a :: after ∧ before.length = i ∧ p a = true ∧
      ∀ b ∈ after, p b = false := by
  induction as generalizing i with
  | nil => simp [rposition] at h
  | cons a as ih =>
    rw [rposition] at h
    cases hrest : rposition p as with
    | some j =>
      rw [hrest] at h
      obtain ⟨before, b, after, rfl, rfl, hb, hafter⟩ := ih hrest
      exact ⟨a :: before, b, after, rfl, Option.some.inj h, hb, hafter⟩
    | none =>
      rw [hrest] at h
      have hafter := rposition_eq_none.mp hrest
      cases hp : p a with
      | true =>
        simp only [hp, if_true, Option.some.injEq] at h
        exact ⟨[], a, as, rfl, h, hp, hafter⟩
      | false => simp [hp] at h

variable (p)

/-- Search the part of a list before a cursor, one chunk after the other. -/
def searchBack (chunk : Nat) (hchunk : 0 < chunk) (as : List α) (cursor : Nat) : Option Nat :=
  if cursor = 0 then none
  else
    let start := cursor - chunk
    match rposition p ((as.take cursor).drop start) with
    | some i => some (start + i)
    | none => searchBack chunk hchunk as start
termination_by cursor
decreasing_by omega

/-- **Searching in chunks finds what searching in one go finds.** -/
theorem searchBack_eq (chunk : Nat) (hchunk : 0 < chunk) (as : List α) (cursor : Nat)
    (hcursor : cursor ≤ as.length) :
    searchBack p chunk hchunk as cursor = rposition p (as.take cursor) := by
  induction cursor using Nat.strong_induction_on with
  | _ cursor ih =>
    rw [searchBack]
    by_cases hzero : cursor = 0
    · rw [if_pos hzero, hzero]
      rfl
    · rw [if_neg hzero]
      have hstart : (as.take cursor).take (cursor - chunk) = as.take (cursor - chunk) := by
        rw [List.take_take, Nat.min_eq_left (Nat.sub_le _ _)]
      have hlength : (as.take (cursor - chunk)).length = cursor - chunk :=
        List.length_take_of_le (by omega)
      have hsplit : as.take cursor =
          as.take (cursor - chunk) ++ (as.take cursor).drop (cursor - chunk) := by
        rw [← hstart, List.take_append_drop]
      have hrest := ih (cursor - chunk) (by omega) (by omega)
      rw [hsplit, rposition_append, ← hsplit, hlength]
      cases h : rposition p ((as.take cursor).drop (cursor - chunk)) with
      | some i => simp [h]
      | none => simpa [h] using hrest

end Backward
