import Mathlib.Tactic

/-!
Cutting a list of symbols that have sizes.

- `cut`: the two parts at an offset, where a symbol begins there.
- `cutFloor`, `cutCeil`: the nearest offset on either side where one begins.
- `cut_eq_some`, `cut_append`: the parts are those whose size is the offset.
- `cutFloor_eq`, `cutCeil_eq`: the offset is decided by the symbol that is hit.
-/

namespace Cut

variable {α : Type*} (size : α → Nat)

/-- The size of a list. -/
def total (xs : List α) : Nat := (xs.map size).sum

/-- The parts before and behind an offset. -/
def cut : Nat → List α → Option (List α × List α)
  | 0, xs => some ([], xs)
  | _ + 1, [] => none
  | n + 1, x :: xs =>
    if size x ≤ n + 1 then (cut (n + 1 - size x) xs).map fun parts => (x :: parts.1, parts.2)
    else none

/-- A symbol begins at the offset, or the list ends there. -/
def IsBoundary (xs : List α) (n : Nat) : Prop := (cut size n xs).isSome = true

instance (xs : List α) (n : Nat) : Decidable (IsBoundary size xs n) :=
  inferInstanceAs (Decidable (_ = true))

/-- Step back to a boundary. -/
def walkDown (xs : List α) : Nat → Nat
  | 0 => 0
  | n + 1 => if IsBoundary size xs (n + 1) then n + 1 else walkDown xs n

/-- Step on to a boundary, a number of times at most. -/
def walkUp (xs : List α) : Nat → Nat → Nat
  | 0, n => n
  | steps + 1, n => if IsBoundary size xs n then n else walkUp xs steps (n + 1)

/-- The last boundary that is not behind an offset. -/
def cutFloor (xs : List α) (n : Nat) : Nat :=
  if total size xs ≤ n then total size xs else walkDown size xs n

/-- The first boundary that is not before an offset. -/
def cutCeil (xs : List α) (n : Nat) : Nat :=
  if total size xs ≤ n then total size xs else walkUp size xs (total size xs - n) n

variable {size} {xs front back : List α} {n m : Nat}

@[simp] lemma total_nil : total size ([] : List α) = 0 := rfl

@[simp] lemma total_cons (x : α) (xs : List α) : total size (x :: xs) = size x + total size xs := by
  simp [total]

@[simp] lemma total_append (xs ys : List α) :
    total size (xs ++ ys) = total size xs + total size ys := by
  simp [total]

/-- The part before the offset has its size. -/
lemma cut_eq_some (h : cut size n xs = some (front, back)) :
    xs = front ++ back ∧ total size front = n := by
  induction xs generalizing n front with
  | nil =>
    cases n with
    | zero =>
      cases h
      exact ⟨rfl, rfl⟩
    | succ n => cases h
  | cons x xs ih =>
    cases n with
    | zero =>
      cases h
      exact ⟨rfl, rfl⟩
    | succ n =>
      rw [cut] at h
      split_ifs at h with hle
      obtain ⟨⟨a, b⟩, hcut, heq⟩ := Option.map_eq_some_iff.1 h
      cases heq
      obtain ⟨rfl, hsize⟩ := ih hcut
      exact ⟨rfl, by rw [total_cons, hsize]; omega⟩

lemma isBoundary_zero (xs : List α) : IsBoundary size xs 0 := by
  cases xs <;> rfl

section Positive

variable (hpos : ∀ x, 0 < size x)
include hpos

/-- The parts of a list are found at the size of the first. -/
lemma cut_append (front back : List α) :
    cut size (total size front) (front ++ back) = some (front, back) := by
  induction front with
  | nil => cases back <;> rfl
  | cons x front ih =>
    have hx := hpos x
    obtain ⟨n, hn⟩ : ∃ n, total size (x :: front) = n + 1 :=
      ⟨total size (x :: front) - 1, by rw [total_cons]; omega⟩
    rw [hn, List.cons_append, cut, if_pos (by rw [total_cons] at hn; omega)]
    have hrest : n + 1 - size x = total size front := by rw [total_cons] at hn; omega
    rw [hrest, ih]
    rfl

lemma isBoundary_iff : IsBoundary size xs n ↔ ∃ front back, xs = front ++ back ∧ total size front = n := by
  constructor
  · intro h
    obtain ⟨⟨front, back⟩, hcut⟩ := Option.isSome_iff_exists.1 h
    exact ⟨front, back, cut_eq_some hcut⟩
  · rintro ⟨front, back, rfl, rfl⟩
    rw [IsBoundary, cut_append hpos]
    rfl

/-- Inside a symbol there is no boundary. -/
lemma not_isBoundary {x : α} (hlo : total size front < n) (hhi : n < total size front + size x) :
    ¬ IsBoundary size (front ++ x :: back) n := by
  rw [isBoundary_iff hpos]
  rintro ⟨front', back', heq, hsize⟩
  rcases List.append_eq_append_iff.1 heq with ⟨mid, hfront, hback⟩ | ⟨mid, hfront, hback⟩
  · cases mid with
    | nil =>
      rw [hfront, List.append_nil] at hsize
      omega
    | cons y mid =>
      cases hback
      rw [hfront, total_append, total_cons] at hsize
      omega
  · rw [hfront, total_append] at hlo
    omega

omit hpos in
lemma walkDown_le (xs : List α) (n : Nat) : walkDown size xs n ≤ n := by
  induction n with
  | zero => exact le_rfl
  | succ n ih =>
    rw [walkDown]
    split_ifs
    · exact le_rfl
    · exact ih.trans (Nat.le_succ n)

omit hpos in
/-- The walk back ends where the boundaries begin. -/
lemma walkDown_eq (hm : IsBoundary size xs m) (hle : m ≤ n)
    (hnone : ∀ k, m < k → k ≤ n → ¬ IsBoundary size xs k) : walkDown size xs n = m := by
  induction n with
  | zero => exact (Nat.le_zero.1 hle).symm
  | succ n ih =>
    rw [walkDown]
    rcases Nat.lt_or_eq_of_le hle with hlt | rfl
    · rw [if_neg (hnone _ hlt le_rfl)]
      exact ih (Nat.le_of_lt_succ hlt) fun k hk hkn => hnone k hk (hkn.trans (Nat.le_succ n))
    · rw [if_pos hm]

omit hpos in
/-- The walk on ends where the boundaries begin. -/
lemma walkUp_eq {steps : Nat} (hm : IsBoundary size xs m) (hle : n ≤ m) (hsteps : m ≤ n + steps)
    (hnone : ∀ k, n ≤ k → k < m → ¬ IsBoundary size xs k) : walkUp size xs steps n = m := by
  induction steps generalizing n with
  | zero =>
    show n = m
    omega
  | succ steps ih =>
    rw [walkUp]
    rcases Nat.lt_or_eq_of_le hle with hlt | rfl
    · rw [if_neg (hnone n le_rfl hlt)]
      exact ih hlt (by omega) fun k hk hkm => hnone k (by omega) hkm
    · rw [if_pos hm]

/-- The offset is at a symbol, or inside it. -/
lemma cutFloor_eq {x : α} (hlo : total size front ≤ n) (hhi : n < total size front + size x) :
    cutFloor size (front ++ x :: back) n = total size front := by
  rw [cutFloor, if_neg (by simp; omega)]
  refine walkDown_eq ((isBoundary_iff hpos).2 ⟨front, x :: back, rfl, rfl⟩) hlo fun k hk hkn => ?_
  exact not_isBoundary hpos hk (by omega)

lemma cutCeil_eq {x : α} (hlo : total size front < n) (hhi : n ≤ total size front + size x) :
    cutCeil size (front ++ x :: back) n = total size front + size x := by
  rw [cutCeil]
  split_ifs with hend
  · have hx := hpos x
    simp only [total_append, total_cons] at hend ⊢
    omega
  · refine walkUp_eq ((isBoundary_iff hpos).2 ⟨front ++ [x], back, by simp, by simp⟩) hhi
      (by simp; omega) fun k hk hkm => ?_
    exact not_isBoundary hpos (by omega) hkm

lemma cutCeil_self (front back : List α) :
    cutCeil size (front ++ back) (total size front) = total size front := by
  rw [cutCeil]
  split_ifs with hend
  · simp only [total_append] at hend ⊢
    omega
  · exact walkUp_eq ((isBoundary_iff hpos).2 ⟨front, back, rfl, rfl⟩) le_rfl (by omega)
      fun k hk hkn => absurd hkn (not_lt.2 hk)

end Positive

omit xs front back n m in
/-- Every offset is at a symbol, inside one, or at the end. -/
lemma exists_symbol (xs : List α) (n : Nat) (h : n < total size xs) :
    ∃ front x back, xs = front ++ x :: back ∧ total size front ≤ n ∧
      n < total size front + size x := by
  induction xs generalizing n with
  | nil => exact absurd h (by simp)
  | cons x xs ih =>
    by_cases hx : n < size x
    · exact ⟨[], x, xs, rfl, Nat.zero_le _, by simpa using hx⟩
    · rw [total_cons] at h
      obtain ⟨front, y, back, rfl, hlo, hhi⟩ := ih (n - size x) (by omega)
      exact ⟨x :: front, y, back, rfl, by rw [total_cons]; omega, by rw [total_cons]; omega⟩

section Nearest

variable (hpos : ∀ x, 0 < size x)
include hpos

lemma isBoundary_cutFloor (xs : List α) (n : Nat) :
    IsBoundary size xs (cutFloor size xs n) ∧ cutFloor size xs n ≤ n := by
  by_cases hend : total size xs ≤ n
  · rw [cutFloor, if_pos hend]
    exact ⟨(isBoundary_iff hpos).2 ⟨xs, [], by simp, rfl⟩, hend⟩
  · obtain ⟨front, x, back, rfl, hlo, hhi⟩ := exists_symbol xs n (not_le.1 hend)
    rw [cutFloor_eq hpos hlo hhi]
    exact ⟨(isBoundary_iff hpos).2 ⟨front, x :: back, rfl, rfl⟩, hlo⟩

lemma isBoundary_cutCeil (xs : List α) (n : Nat) :
    IsBoundary size xs (cutCeil size xs n) ∧ cutCeil size xs n ≤ total size xs := by
  by_cases hend : total size xs ≤ n
  · rw [cutCeil, if_pos hend]
    exact ⟨(isBoundary_iff hpos).2 ⟨xs, [], by simp, rfl⟩, le_rfl⟩
  · obtain ⟨front, x, back, rfl, hlo, hhi⟩ := exists_symbol xs n (not_le.1 hend)
    have hx := hpos x
    rcases Nat.lt_or_eq_of_le hlo with hlt | heq
    · rw [cutCeil_eq hpos hlt hhi.le]
      exact ⟨(isBoundary_iff hpos).2 ⟨front ++ [x], back, by simp, by simp⟩, by simp⟩
    · rw [← heq, cutCeil_self hpos]
      exact ⟨(isBoundary_iff hpos).2 ⟨front, x :: back, rfl, rfl⟩, by simp⟩

/-- At the end of a list there is no symbol to be hit. -/
lemma le_cutCeil (xs : List α) {n : Nat} (h : n ≤ total size xs) : n ≤ cutCeil size xs n := by
  by_cases hend : total size xs ≤ n
  · rwa [cutCeil, if_pos hend]
  · obtain ⟨front, x, back, rfl, hlo, hhi⟩ := exists_symbol xs n (not_le.1 hend)
    rcases Nat.lt_or_eq_of_le hlo with hlt | heq
    · rw [cutCeil_eq hpos hlt hhi.le]
      exact hhi.le
    · rw [← heq, cutCeil_self hpos]

end Nearest

/-- The part before an offset is the beginning of the part before a later one. -/
lemma cut_between {a b c d : List α} (ha : cut size n xs = some (a, b))
    (hc : cut size m xs = some (c, d)) (hpos : ∀ x, 0 < size x) (hle : n ≤ m) :
    ∃ mid, c = a ++ mid ∧ total size mid = m - n := by
  obtain ⟨rfl, rfl⟩ := cut_eq_some ha
  obtain ⟨heq, rfl⟩ := cut_eq_some hc
  rcases List.append_eq_append_iff.1 heq with ⟨mid, rfl, rfl⟩ | ⟨mid, rfl, rfl⟩
  · exact ⟨mid, rfl, by simp⟩
  · cases mid with
    | nil => exact ⟨[], by simp, by simp⟩
    | cons x mid =>
      have hx := hpos x
      simp only [total_append, total_cons] at hle
      omega

end Cut
