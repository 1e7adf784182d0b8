import Mathlib
import Rupi.Core.Text
import Rupi.Core.Digits
import Rupi.Lib.Calendar

/-!
Timestamps, as the exporter writes them and as the importer reads them.

- `piTimestamp`: epoch milliseconds as a text.
- `readStamp`, `Stamp.toMillis`, `isToMillis`: the fields of a text, and their instant.
- `Stamp.toMillis_eq`: the instant is that of the calendar, unless a sum on the way overflows.
- `readStamp_stampText`: a written timestamp gives back its fields.
-/

namespace Rupi.PiTime

open Calendar

/-! ### Machine integers -/

/-- An operation left the range of its type. -/
inductive ArithmeticError where
  | overflow
  deriving DecidableEq, Repr

/-- What arithmetic returns, unless it overflows. -/
abbrev Checked (α : Type) := Except ArithmeticError α

/-- The values of an `i64`. -/
def InI64 (n : ℤ) : Prop := -2 ^ 63 ≤ n ∧ n < 2 ^ 63

instance (n : ℤ) : Decidable (InI64 n) := inferInstanceAs (Decidable (_ ∧ _))

/-- The result of an operation on `i64`. -/
def i64 (n : ℤ) : Checked ℤ := if InI64 n then .ok n else .error .overflow

/-- The result of an operation on `u64`. -/
def u64 (n : ℕ) : Checked ℕ := if n < 2 ^ 64 then .ok n else .error .overflow

/-- A difference on `u64`. -/
def subU64 (a b : ℕ) : Checked ℕ := if b ≤ a then .ok (a - b) else .error .overflow

/-- `as i64` of a `u64`: the same bits. -/
def asI64 (n : ℕ) : ℤ := if n < 2 ^ 63 then n else n - 2 ^ 64

/-! ### Writing -/

def dayMs : ℕ := 86400000

/-- `{:0width$}`. -/
def padded (width n : ℕ) : List Char := (Nat.toDigits 10 n).leftpad width '0'

/-- `pi_timestamp`: epoch milliseconds as the `Z`-suffix stamp Pi writes. -/
def piTimestamp (milliseconds : ℕ) : Checked (List Char) := do
  let days := milliseconds / dayMs
  let timeOfDay := milliseconds % dayMs
  let shifted := days + 719468
  let era := shifted / 146097
  let dayOfEra := shifted - era * 146097
  let yearOfEra := (dayOfEra - dayOfEra / 1461 + dayOfEra / 36524 - dayOfEra / 146096) / 365
  let year := yearOfEra + era * 400
  let dayOfYear ← subU64 dayOfEra (365 * yearOfEra + yearOfEra / 4 - yearOfEra / 100)
  let monthProbe := (5 * dayOfYear + 2) / 153
  let day := dayOfYear - (153 * monthProbe + 2) / 5 + 1
  let month := if monthProbe < 10 then monthProbe + 3 else monthProbe - 9
  let year := if month ≤ 2 then year + 1 else year
  return padded 4 year ++ '-' :: padded 2 month ++ '-' :: padded 2 day ++
    'T' :: padded 2 (timeOfDay / 3600000) ++ ':' :: padded 2 (timeOfDay / 60000 % 60) ++
    ':' :: padded 2 (timeOfDay / 1000 % 60) ++ '.' :: padded 3 (timeOfDay % 1000) ++ ['Z']

/-! ### Reading numbers -/

/-- `str::parse::<i64>`. -/
def parseI64 (text : List Char) : Option ℤ :=
  match text with
  | '-' :: digits => ((parseDigits digits).filter (· ≤ 2 ^ 63)).map fun n : ℕ => -(n : ℤ)
  | text => (parseUnsigned (2 ^ 63) text).map fun n : ℕ => (n : ℤ)

/-- A field of type `f64`, read as an exact decimal. -/
inductive ExactF64 where
  | finite (value : ℚ)
  | infinite (negative : Bool)
  | nan
  deriving DecidableEq, Repr

/-- A sign and what is behind it. -/
def splitSign : List Char → Bool × List Char
  | '-' :: rest => (true, rest)
  | '+' :: rest => (false, rest)
  | text => (false, text)

/-- The exponent behind an `e`. -/
def parseExponent : List Char → Option ℤ
  | [] => some 0
  | _ :: text =>
    let (negative, digits) := splitSign text
    (parseDigits digits).map fun n : ℕ => if negative then -(n : ℤ) else n

/-- A number: digits with a point among them, and an exponent. -/
def parseNumber (text : List Char) : Option ℚ :=
  let mantissa := text.takeWhile fun c => c != 'e' && c != 'E'
  let whole := mantissa.takeWhile Char.isDigit
  let fraction := match mantissa.dropWhile Char.isDigit with
    | [] => some []
    | c :: digits => if c = '.' ∧ digits.all Char.isDigit then some digits else none
  match fraction, parseExponent (text.dropWhile fun c => c != 'e' && c != 'E') with
  | some fraction, some exponent =>
    (parseDigits (whole ++ fraction)).map fun n : ℕ => (n : ℚ) * 10 ^ (exponent - fraction.length)
  | _, _ => none

/-- `str::parse::<f64>`. -/
def parseF64 (text : List Char) : Option ExactF64 :=
  let (negative, body) := splitSign text
  let name := body.map Char.toLower
  if name = "inf".toList ∨ name = "infinity".toList then some (.infinite negative)
  else if name = "nan".toList then some .nan
  else (parseNumber body).map fun value => .finite (if negative then -value else value)

namespace ExactF64

/-- The integral part of a number, towards zero. -/
def integral (value : ℚ) : ℤ := if 0 ≤ value then ⌊value⌋ else ⌈value⌉

/-- `f64::round`: to the nearest integer, halves away from zero. -/
def round (value : ℚ) : ℤ := if 0 ≤ value then ⌊value + 1 / 2⌋ else ⌈value - 1 / 2⌉

/-- `as i64`: towards zero, as far as the type goes. -/
def asI64 : ExactF64 → ℤ
  | finite value => max (-2 ^ 63) (min (integral value) (2 ^ 63 - 1))
  | infinite negative => if negative then -2 ^ 63 else 2 ^ 63 - 1
  | nan => 0

/-- `(fract() * 1_000.0).round() as i64`. -/
def fractMillis : ExactF64 → ℤ
  | finite value => round ((value - integral value) * 1000)
  | infinite _ | nan => 0

end ExactF64

/-! ### Reading a timestamp -/

/-- The fields of a timestamp, as they are parsed. -/
structure Stamp where
  year : ℤ
  month : ℕ
  day : ℕ
  hour : ℕ
  minute : ℕ
  second : ExactF64
  offsetMinutes : ℤ
  deriving DecidableEq, Repr

/-- `split_zone`: the wall clock and the zone offset in minutes. A zone stands in the last six
bytes, and these are its last six symbols. -/
def splitZone (time : List Char) : List Char × ℤ :=
  let unmarked := (if time.getLast? = some 'Z' then time.dropLast else time, (0 : ℤ))
  match time.drop (time.length - 6) with
  | [sign, h₁, h₂, ':', m₁, m₂] =>
    if (sign = '+' ∨ sign = '-') ∧ [h₁, h₂, m₁, m₂].all Char.isDigit then
      let magnitude := (parseI64 [h₁, h₂]).getD 0 * 60 + (parseI64 [m₁, m₂]).getD 0
      (time.take (time.length - 6), if sign = '-' then -magnitude else magnitude)
    else unmarked
  | _ => unmarked

/-- The fields of a text. -/
def readStamp (text : List Char) : Option Stamp := do
  let (date, time) ← splitOnce 'T' text
  let dateParts := date.splitOn '-'
  let year ← dateParts[0]?.bind parseI64
  let month ← dateParts[1]?.bind (parseUnsigned (2 ^ 32))
  let day ← dateParts[2]?.bind (parseUnsigned (2 ^ 32))
  let (clock, offsetMinutes) := splitZone time
  let timeParts := clock.splitOn ':'
  let hour ← timeParts[0]?.bind (parseUnsigned (2 ^ 64))
  let minute ← timeParts[1]?.bind (parseUnsigned (2 ^ 64))
  let second ← timeParts[2]?.bind parseF64
  return ⟨year, month, day, hour, minute, second, offsetMinutes⟩

/-- The year in which a month is counted, when years begin in March. -/
def shiftedYear (year : ℤ) (month : ℕ) : Checked ℤ :=
  if month ≤ 2 then i64 (year - 1) else .ok year

/-- The era of 400 years that a year is in. -/
def eraOf (year : ℤ) : Checked ℤ :=
  if 0 ≤ year then .ok (year.tdiv 400) else (i64 (year - 399)).map (·.tdiv 400)

/-- `days_from_epoch`. -/
def daysFromEpoch (year : ℤ) (month day : ℕ) : Checked (Option ℤ) :=
  if month = 0 ∨ 12 < month ∨ day = 0 ∨ 31 < day then .ok none
  else do
    let year ← shiftedYear year month
    let month := if month ≤ 2 then month + 9 else month - 3
    let era ← eraOf year
    let yearOfEra := year - era * 400
    let dayOfEra := 365 * yearOfEra + yearOfEra.tdiv 4 - yearOfEra.tdiv 100 +
      ((153 * month + 2) / 5 : ℕ) + day - 1
    let eras ← i64 (era * 146097)
    let days ← i64 (eras + dayOfEra)
    return some (← i64 (days - 719468))

/-- The instant of the fields. -/
def Stamp.toMillis (stamp : Stamp) : Checked (Option ℕ) := do
  match ← daysFromEpoch stamp.year stamp.month stamp.day with
  | none => return none
  | some days =>
    let clock ← u64 ((← u64 (stamp.hour * 3600)) + (← u64 (stamp.minute * 60)))
    let wall ← i64 ((← i64 (days * 86400)) + asI64 clock)
    let seconds ← i64 (wall + stamp.second.asI64)
    let millis ← i64 ((← i64 (seconds * 1000)) + stamp.second.fractMillis)
    let millis ← i64 (millis - (← i64 (stamp.offsetMinutes * 60000)))
    return if 0 ≤ millis then some millis.toNat else none

/-- `is_to_millis`. -/
def isToMillis (text : List Char) : Checked (Option ℕ) :=
  match readStamp text with
  | none => return none
  | some stamp => stamp.toMillis

/-! ### The instant of the fields -/

section Instant

variable {year : ℤ} {month day : ℕ} {stamp : Stamp}

lemma i64_of_inI64 {n : ℤ} (h : InI64 n) : i64 n = .ok n := if_pos h

lemma i64_bind {α : Type} (n : ℤ) (next : ℤ → Checked α) :
    (i64 n >>= next) = if InI64 n then next n else .error .overflow := by
  unfold i64
  split_ifs <;> rfl

lemma u64_bind {α : Type} (n : ℕ) (next : ℕ → Checked α) :
    (u64 n >>= next) = if n < 2 ^ 64 then next n else .error .overflow := by
  unfold u64
  split_ifs <;> rfl

lemma ok_bind {α β : Type} (a : α) (next : α → Checked β) :
    ((Except.ok a : Checked α) >>= next) = next a := rfl

/-- Days are those of the calendar, where they fit the type. -/
lemma daysFromEpoch_eq (hyear : 0 ≤ year ∧ year < 2 ^ 63) (hmonth : 1 ≤ month ∧ month ≤ 12)
    (hday : 1 ≤ day ∧ day ≤ 31) : daysFromEpoch year month day =
      if dayNumber year month day + 719468 < 2 ^ 63 then .ok (some (dayNumber year month day))
      else .error .overflow := by
  have hdays := @dayNumber_march year month day hmonth
  have hmarch : shiftedYear year month = .ok (marchYear year month) := by
    unfold shiftedYear marchYear
    split_ifs
    · exact i64_of_inI64 ⟨by omega, by omega⟩
    · rfl
  have hlow : -1 ≤ marchYear year month := by unfold marchYear; split_ifs <;> omega
  have hera : eraOf (marchYear year month) = .ok (marchYear year month / 400) := by
    unfold eraOf
    split_ifs with hpos
    · rw [Int.tdiv_eq_ediv_of_nonneg hpos]
    · obtain hone : marchYear year month = -1 := by omega
      rw [hone]
      rfl
  have hmod : marchYear year month - marchYear year month / 400 * 400 =
      marchYear year month % 400 := by omega
  have hnonneg : 0 ≤ marchYear year month % 400 := Int.emod_nonneg _ (by decide)
  rw [daysFromEpoch, if_neg (by omega), hmarch]
  simp only [ok_bind, i64_bind, hera, hmod, Int.tdiv_eq_ediv_of_nonneg hnonneg]
  have hmonths : (if month ≤ 2 then month + 9 else month - 3) = marchMonth month := rfl
  rw [hmonths]
  obtain ⟨dayOfEra, hdayOfEra⟩ : ∃ dayOfEra, dayOfEra = 365 * (marchYear year month % 400) +
      marchYear year month % 400 / 4 - marchYear year month % 400 / 100 +
        ((153 * marchMonth month + 2) / 5 : ℕ) + day - 1 := ⟨_, rfl⟩
  have hsum : marchYear year month / 400 * 146097 + dayOfEra = dayNumber year month day + 719468 := by
    rw [hdays, hdayOfEra]
    push_cast
    omega
  have hpos : 0 ≤ dayOfEra := by
    rw [hdayOfEra]
    omega
  rw [← hdayOfEra, hsum, add_sub_cancel_right]
  by_cases hfits : dayNumber year month day + 719468 < 2 ^ 63
  · have heras : InI64 (marchYear year month / 400 * 146097) := ⟨by omega, by omega⟩
    have hshifted : InI64 (dayNumber year month day + 719468) := ⟨by omega, hfits⟩
    have hnumber : InI64 (dayNumber year month day) := ⟨by omega, by omega⟩
    rw [if_pos heras, if_pos hshifted, if_pos hnumber, if_pos hfits]
    rfl
  · have hshifted : ¬ InI64 (dayNumber year month day + 719468) := fun h => hfits h.2
    rw [if_neg hshifted, if_neg hfits, ite_self]

/-- The seconds of the day, as the code adds them up. -/
def Stamp.clock (stamp : Stamp) : ℕ := stamp.hour * 3600 + stamp.minute * 60

/-- Seconds from the epoch to the whole second of the fields. -/
def Stamp.seconds (stamp : Stamp) : ℤ :=
  dayNumber stamp.year stamp.month stamp.day * 86400 + asI64 stamp.clock + stamp.second.asI64

/-- Milliseconds from the epoch to the fields, as the clock of their zone shows them. -/
def Stamp.localMillis (stamp : Stamp) : ℤ := stamp.seconds * 1000 + stamp.second.fractMillis

/-- Milliseconds from the epoch to the instant of the fields. -/
def Stamp.utcMillis (stamp : Stamp) : ℤ := stamp.localMillis - stamp.offsetMinutes * 60000

/-- Every sum on the way to the instant is in the range of its type. -/
structure Stamp.Fits (stamp : Stamp) : Prop where
  days : InI64 (dayNumber stamp.year stamp.month stamp.day * 86400)
  clock : stamp.clock < 2 ^ 64
  wall : InI64 (dayNumber stamp.year stamp.month stamp.day * 86400 + asI64 stamp.clock)
  scaled : InI64 (stamp.seconds * 1000)
  localMillis : InI64 stamp.localMillis
  utcMillis : InI64 stamp.utcMillis

/-- What the parser guarantees of the fields. -/
structure Stamp.Parsed (stamp : Stamp) : Prop where
  year : 0 ≤ stamp.year ∧ stamp.year < 2 ^ 63
  offset : -6039 ≤ stamp.offsetMinutes ∧ stamp.offsetMinutes ≤ 6039

instance (stamp : Stamp) : Decidable stamp.Fits :=
  decidable_of_iff (InI64 (dayNumber stamp.year stamp.month stamp.day * 86400) ∧
      stamp.clock < 2 ^ 64 ∧
      InI64 (dayNumber stamp.year stamp.month stamp.day * 86400 + asI64 stamp.clock) ∧
      InI64 (stamp.seconds * 1000) ∧ InI64 stamp.localMillis ∧ InI64 stamp.utcMillis)
    ⟨fun ⟨a, b, c, d, e, f⟩ => ⟨a, b, c, d, e, f⟩,
      fun h => ⟨h.days, h.clock, h.wall, h.scaled, h.localMillis, h.utcMillis⟩⟩

/-- The code computes the instant, unless a sum on the way does not fit. -/
lemma Stamp.toMillis_eq (hparsed : stamp.Parsed) (hmonth : 1 ≤ stamp.month ∧ stamp.month ≤ 12)
    (hday : 1 ≤ stamp.day ∧ stamp.day ≤ 31) : stamp.toMillis =
      if stamp.Fits then
        .ok (if 0 ≤ stamp.utcMillis then some stamp.utcMillis.toNat else none)
      else .error .overflow := by
  obtain ⟨hlow, hhigh⟩ := hparsed.offset
  have hoffset : InI64 (stamp.offsetMinutes * 60000) := ⟨by omega, by omega⟩
  rw [toMillis, daysFromEpoch_eq hparsed.year hmonth hday]
  by_cases hfits : dayNumber stamp.year stamp.month stamp.day + 719468 < 2 ^ 63
  · rw [if_pos hfits, ok_bind]
    simp only [i64_bind, u64_bind, hoffset, if_true]
    have hchain : stamp.Fits ↔ stamp.hour * 3600 < 2 ^ 64 ∧ stamp.minute * 60 < 2 ^ 64 ∧
        stamp.hour * 3600 + stamp.minute * 60 < 2 ^ 64 ∧
        InI64 (dayNumber stamp.year stamp.month stamp.day * 86400) ∧
        InI64 (dayNumber stamp.year stamp.month stamp.day * 86400 + asI64 stamp.clock) ∧
        InI64 stamp.seconds ∧ InI64 (stamp.seconds * 1000) ∧ InI64 stamp.localMillis ∧
        InI64 stamp.utcMillis := by
      constructor
      · intro h
        have hclock : stamp.hour * 3600 + stamp.minute * 60 < 2 ^ 64 := h.clock
        have hscaled := h.scaled
        have hseconds : InI64 stamp.seconds := by
          unfold InI64 at hscaled ⊢
          omega
        exact ⟨lt_of_le_of_lt (Nat.le_add_right _ _) hclock,
          lt_of_le_of_lt (Nat.le_add_left _ _) hclock, hclock, h.days, h.wall, hseconds, hscaled,
          h.localMillis, h.utcMillis⟩
      · rintro ⟨-, -, hclock, hdays, hwall, -, hscaled, hlocal, hutc⟩
        exact ⟨hdays, hclock, hwall, hscaled, hlocal, hutc⟩
    rw [if_congr hchain rfl rfl]
    simp only [ite_and]
    rfl
  · have hnot : ¬ stamp.Fits := fun h => by
      have hdays := h.days.2
      omega
    rw [if_neg hfits, if_neg hnot]
    rfl

lemma Stamp.toMillis_of_fits (hparsed : stamp.Parsed) (hmonth : 1 ≤ stamp.month ∧ stamp.month ≤ 12)
    (hday : 1 ≤ stamp.day ∧ stamp.day ≤ 31) (h : stamp.Fits) :
    stamp.toMillis = .ok (if 0 ≤ stamp.utcMillis then some stamp.utcMillis.toNat else none) := by
  rw [Stamp.toMillis_eq hparsed hmonth hday, if_pos h]

lemma Stamp.toMillis_of_not_fits (hparsed : stamp.Parsed)
    (hmonth : 1 ≤ stamp.month ∧ stamp.month ≤ 12) (hday : 1 ≤ stamp.day ∧ stamp.day ≤ 31)
    (h : ¬ stamp.Fits) : stamp.toMillis = .error .overflow := by
  rw [Stamp.toMillis_eq hparsed hmonth hday, if_neg h]

end Instant

/-! ### Fields of a text -/

section Fields

variable {text digits : List Char} {bound n width : ℕ} {stamp : Stamp}

/-- A text without a minus sign gives no negative number. -/
lemma parseI64_bounds {year : ℤ} (hsign : '-' ∉ text) (h : parseI64 text = some year) :
    0 ≤ year ∧ year < 2 ^ 63 := by
  unfold parseI64 at h
  split at h
  · exact absurd List.mem_cons_self hsign
  · obtain ⟨n, hn, rfl⟩ := Option.map_eq_some_iff.1 h
    exact ⟨Int.natCast_nonneg n, by exact_mod_cast parseUnsigned_lt hn⟩

lemma parseI64_digits (hne : digits ≠ []) (hall : digits.all Char.isDigit = true)
    (hlt : Nat.ofDigitChars 10 digits 0 < 2 ^ 63) :
    parseI64 digits = some (Nat.ofDigitChars 10 digits 0 : ℤ) := by
  unfold parseI64
  split
  · exact absurd rfl (ne_sign_of_digits hall).1
  · rw [parseUnsigned_digits hne hall hlt]
    rfl

/-- Two digits are below 100. -/
lemma ofDigitChars_pair {a b : Char} (hall : [a, b].all Char.isDigit = true) :
    Nat.ofDigitChars 10 [a, b] 0 ≤ 99 := by
  have ha := toNat_of_isDigit (List.all_eq_true.1 hall a (by simp))
  have hb := toNat_of_isDigit (List.all_eq_true.1 hall b (by simp))
  have hzero : '0'.toNat = 48 := rfl
  simp only [Nat.ofDigitChars_cons, Nat.ofDigitChars_nil]
  omega

/-- A zone of two pairs of digits. -/
lemma splitZone_marked {clock : List Char} {sign h₁ h₂ m₁ m₂ : Char} (hsign : sign = '+' ∨ sign = '-')
    (hhours : [h₁, h₂].all Char.isDigit = true) (hminutes : [m₁, m₂].all Char.isDigit = true) :
    splitZone (clock ++ [sign, h₁, h₂, ':', m₁, m₂]) = (clock,
      if sign = '-' then
        -((Nat.ofDigitChars 10 [h₁, h₂] 0 : ℤ) * 60 + Nat.ofDigitChars 10 [m₁, m₂] 0)
      else Nat.ofDigitChars 10 [h₁, h₂] 0 * 60 + Nat.ofDigitChars 10 [m₁, m₂] 0) := by
  have hall : [h₁, h₂, m₁, m₂].all Char.isDigit = true := by
    simp only [List.all_cons, List.all_nil, Bool.and_true, Bool.and_eq_true] at hhours hminutes ⊢
    exact ⟨hhours.1, hhours.2, hminutes⟩
  have hpair : ∀ {a b : Char}, [a, b].all Char.isDigit = true →
      (parseI64 [a, b]).getD 0 = Nat.ofDigitChars 10 [a, b] 0 := by
    intro a b hpair
    rw [parseI64_digits (by simp) hpair (lt_of_le_of_lt (ofDigitChars_pair hpair) (by norm_num))]
    rfl
  simp [splitZone, hsign, hall, hpair hhours, hpair hminutes]

/-- A zone is at most 99 hours and 99 minutes off. -/
lemma splitZone_bounds (time : List Char) :
    -6039 ≤ (splitZone time).2 ∧ (splitZone time).2 ≤ 6039 := by
  by_cases hmarked : ∃ sign h₁ h₂ m₁ m₂, time.drop (time.length - 6) = [sign, h₁, h₂, ':', m₁, m₂] ∧
      (sign = '+' ∨ sign = '-') ∧ [h₁, h₂, m₁, m₂].all Char.isDigit = true
  · obtain ⟨sign, h₁, h₂, m₁, m₂, hdrop, hsign, hall⟩ := hmarked
    have hpairs : [h₁, h₂].all Char.isDigit = true ∧ [m₁, m₂].all Char.isDigit = true := by
      simp only [List.all_cons, List.all_nil, Bool.and_true, Bool.and_eq_true] at hall ⊢
      exact ⟨⟨hall.1, hall.2.1⟩, hall.2.2⟩
    have hhours := ofDigitChars_pair hpairs.1
    have hminutes := ofDigitChars_pair hpairs.2
    rw [← List.take_append_drop (time.length - 6) time, hdrop,
      splitZone_marked hsign hpairs.1 hpairs.2]
    dsimp only
    split_ifs <;> omega
  · have hzero : (splitZone time).2 = 0 := by
      unfold splitZone
      dsimp only
      split
      · rename_i hdrop
        rw [if_neg fun h => hmarked ⟨_, _, _, _, _, hdrop, h⟩]
      · rfl
    omega

/-- The fields of a text are those of a stamp. -/
lemma parsed_of_readStamp (h : readStamp text = some stamp) : stamp.Parsed := by
  simp only [readStamp, bind, Option.bind_eq_some_iff, pure, Option.some.injEq] at h
  obtain ⟨⟨date, time⟩, -, year, ⟨part, hpart, hyear⟩, month, -, day, -, hour, -, minute, -, second,
    -, rfl⟩ := h
  exact ⟨parseI64_bounds (notMem_splitOn (List.mem_of_getElem? hpart)) hyear, splitZone_bounds time⟩

end Fields

/-! ### Written fields -/

section Written

variable {width n second : ℕ} {whole digits : List Char}

lemma padded_eq (width n : ℕ) : padded width n =
    List.replicate (width - (Nat.toDigits 10 n).length) '0' ++ Nat.toDigits 10 n := rfl

lemma padded_ne_nil (width n : ℕ) : padded width n ≠ [] := by
  rw [padded_eq]
  simp [Nat.toDigits_ne_nil]

lemma all_padded (width n : ℕ) : (padded width n).all Char.isDigit = true := by
  rw [padded_eq, List.all_append, Bool.and_eq_true]
  constructor
  · simp [List.all_replicate]
  · exact List.all_eq_true.2 fun c hc => Nat.isDigit_of_mem_toDigits (by decide) (by decide) hc

lemma ofDigitChars_padded (width n : ℕ) : Nat.ofDigitChars 10 (padded width n) 0 = n := by
  rw [padded_eq, Nat.ofDigitChars_append, Nat.ofDigitChars_replicate_zero, Nat.mul_zero,
    Nat.ofDigitChars_ten_toDigits]

/-- A symbol that is no digit is not in a number. -/
lemma notMem_padded {c : Char} (hc : c.isDigit = false) : c ∉ padded width n := fun hmem => by
  rw [List.all_eq_true.1 (all_padded width n) c hmem] at hc
  cases hc

lemma parseUnsigned_padded {bound : ℕ} (h : n < bound) :
    parseUnsigned bound (padded width n) = some n := by
  have hparsed := @parseUnsigned_digits (padded width n) bound (padded_ne_nil width n)
    (all_padded width n) (by rwa [ofDigitChars_padded])
  rwa [ofDigitChars_padded] at hparsed

lemma parseI64_padded (h : n < 2 ^ 63) : parseI64 (padded width n) = some (n : ℤ) := by
  have hparsed := parseI64_digits (padded_ne_nil width n) (all_padded width n)
    (by rwa [ofDigitChars_padded])
  rwa [ofDigitChars_padded] at hparsed

/-- The digits behind the point, with the point. -/
def fractionText (digits : List Char) : List Char := if digits = [] then [] else '.' :: digits

/-- The seconds that two groups of digits name. -/
def decimal (whole : ℕ) (digits : List Char) : ℚ :=
  whole + Nat.ofDigitChars 10 digits 0 / 10 ^ digits.length

lemma parseNumber_decimal (hne : whole ≠ []) (hwhole : whole.all Char.isDigit = true)
    (hdigits : digits.all Char.isDigit = true) : parseNumber (whole ++ fractionText digits) =
      some (decimal (Nat.ofDigitChars 10 whole 0) digits) := by
  have hdigit : ∀ {c : Char}, c.isDigit = true → (c != 'e' && c != 'E') = true := by
    intro c hc
    rw [Bool.and_eq_true, bne_iff_ne, bne_iff_ne]
    constructor <;> rintro rfl <;> exact absurd hc (by decide)
  have hplain : ∀ c ∈ whole ++ fractionText digits, (c != 'e' && c != 'E') = true := by
    intro c hc
    rcases List.mem_append.1 hc with hc | hc
    · exact hdigit (List.all_eq_true.1 hwhole c hc)
    · unfold fractionText at hc
      split_ifs at hc
      · cases hc
      · rcases List.mem_cons.1 hc with rfl | hc
        · decide
        · exact hdigit (List.all_eq_true.1 hdigits c hc)
  have htake : (whole ++ fractionText digits).takeWhile (fun c => c != 'e' && c != 'E') =
      whole ++ fractionText digits := List.takeWhile_eq_self_iff.2 hplain
  have hdrop : (whole ++ fractionText digits).dropWhile (fun c => c != 'e' && c != 'E') = [] :=
    List.dropWhile_eq_nil_iff.2 hplain
  have hpoint : (fractionText digits).takeWhile Char.isDigit = [] ∧
      (fractionText digits).dropWhile Char.isDigit = fractionText digits := by
    unfold fractionText
    split_ifs
    · exact ⟨rfl, rfl⟩
    · exact ⟨rfl, rfl⟩
  have hall : ∀ c ∈ whole, c.isDigit = true := List.all_eq_true.1 hwhole
  have hnumber : parseDigits (whole ++ digits) =
      some (10 ^ digits.length * Nat.ofDigitChars 10 whole 0 + Nat.ofDigitChars 10 digits 0) := by
    rw [parseDigits_digits (by simp [hne]) (by rw [List.all_append, hwhole, hdigits]; rfl),
      Nat.ofDigitChars_append, Nat.ofDigitChars_eq_ofDigitChars_zero]
  have hvalue : ((10 ^ digits.length * Nat.ofDigitChars 10 whole 0 +
      Nat.ofDigitChars 10 digits 0 : ℕ) : ℚ) * 10 ^ (0 - (digits.length : ℤ)) =
        decimal (Nat.ofDigitChars 10 whole 0) digits := by
    have hpos : (10 : ℚ) ^ digits.length ≠ 0 := by positivity
    rw [decimal, zero_sub, zpow_neg, zpow_natCast]
    push_cast
    field_simp
  simp only [parseNumber, htake, hdrop, List.takeWhile_append_of_pos hall,
    List.dropWhile_append_of_pos hall, hpoint.1, hpoint.2, List.append_nil, parseExponent]
  by_cases hnil : digits = []
  · subst hnil
    simp only [List.append_nil, List.length_nil, pow_zero, one_mul, Nat.ofDigitChars_nil,
      Nat.add_zero] at hnumber
    simpa [fractionText, hnumber] using hvalue
  · simp only [fractionText, if_neg hnil, hdigits, and_self, if_true, hnumber, Option.map_some]
    exact congrArg some hvalue

/-- A decimal without a sign. -/
lemma parseF64_decimal (hne : whole ≠ []) (hwhole : whole.all Char.isDigit = true)
    (hdigits : digits.all Char.isDigit = true) : parseF64 (whole ++ fractionText digits) =
      some (.finite (decimal (Nat.ofDigitChars 10 whole 0) digits)) := by
  have hnumber := parseNumber_decimal hne hwhole hdigits
  cases whole with
  | nil => exact absurd rfl hne
  | cons c whole =>
    have hsign : splitSign (c :: whole ++ fractionText digits) =
        (false, c :: whole ++ fractionText digits) := by
      obtain ⟨hminus, hplus⟩ := ne_sign_of_digits hwhole
      rw [List.cons_append]
      unfold splitSign
      split
      · rename_i heq
        exact absurd (List.cons.inj heq).1 hminus
      · rename_i heq
        exact absurd (List.cons.inj heq).1 hplus
      · rfl
    have hc : c.isDigit = true := List.all_eq_true.1 hwhole c List.mem_cons_self
    have hlower : c.toLower = c := by
      simp only [Char.isDigit, Bool.and_eq_true, decide_eq_true_eq, UInt32.le_iff_toNat_le] at hc
      have hhigh : c.toNat ≤ 57 := hc.2
      simp [Char.toLower, UInt32.le_iff_toNat_le]
      omega
    have hname : ∀ word : List Char, (∀ d ∈ word.head?, d.isDigit = false) → word ≠ [] →
        ¬ (c :: whole ++ fractionText digits).map Char.toLower = word := by
      intro word hword hne heq
      subst heq
      have hdigit := hword c (by simp [hlower])
      rw [hc] at hdigit
      cases hdigit
    simp only [parseF64, hsign]
    rw [if_neg, if_neg, hnumber]
    · rfl
    · exact hname _ (by decide) (by decide)
    · rintro (h | h)
      · exact hname _ (by decide) (by decide) h
      · exact hname _ (by decide) (by decide) h

/-- The zone of a timestamp: UTC, or hours and minutes east or west of it. -/
inductive IsoZone where
  | utc
  | offset (west : Bool) (hours minutes : ℕ)
  deriving DecidableEq, Repr

def IsoZone.text : IsoZone → List Char
  | utc => ['Z']
  | offset west hours minutes =>
    (if west then '-' else '+') :: (padded 2 hours ++ ':' :: padded 2 minutes)

/-- Minutes that the clocks of the zone are ahead of UTC. -/
def IsoZone.minutes : IsoZone → ℤ
  | utc => 0
  | offset west hours minutes => if west then -(hours * 60 + minutes) else hours * 60 + minutes

/-- Two digits are enough for both numbers of a zone. -/
def IsoZone.Short : IsoZone → Prop
  | utc => True
  | offset _ hours minutes => hours < 100 ∧ minutes < 100

lemma length_padded (hwidth : 0 < width) (h : n < 10 ^ width) : (padded width n).length = width := by
  have hdigits := (Nat.length_toDigits_le_iff (by decide) hwidth).2 h
  rw [padded, List.length_leftpad]
  omega

lemma exists_padded (h : n < 100) : ∃ a b, padded 2 n = [a, b] :=
  List.length_eq_two.1 (length_padded (by decide) h)

lemma splitZone_text {zone : IsoZone} (h : zone.Short) (clock : List Char) :
    splitZone (clock ++ zone.text) = (clock, zone.minutes) := by
  cases zone with
  | utc =>
    have hlast : (clock ++ ['Z']).getLast? = some 'Z' := by simp
    unfold splitZone IsoZone.text
    rw [hlast]
    dsimp only
    split
    · rename_i sign h₁ h₂ m₁ m₂ hdrop
      have hend : m₂ = 'Z' := by
        have hsuffix := congrArg List.getLast? hdrop
        rw [List.getLast?_drop, if_neg (by simp), hlast] at hsuffix
        exact (Option.some.inj hsuffix).symm
      rw [if_neg]
      · simp [IsoZone.minutes]
      · rintro ⟨-, hall⟩
        rw [hend] at hall
        simp [Char.isDigit] at hall
    · simp [IsoZone.minutes]
  | offset west hours minutes =>
    obtain ⟨h₁, h₂, hhours⟩ := exists_padded h.1
    obtain ⟨m₁, m₂, hminutes⟩ := exists_padded h.2
    have hall := all_padded 2 hours
    have hall' := all_padded 2 minutes
    have hvalue := ofDigitChars_padded 2 hours
    have hvalue' := ofDigitChars_padded 2 minutes
    rw [hhours] at hall hvalue
    rw [hminutes] at hall' hvalue'
    have hmarked := @splitZone_marked clock (if west then '-' else '+') h₁ h₂ m₁ m₂
      (by cases west <;> simp) hall hall'
    rw [hvalue, hvalue'] at hmarked
    have htext : (IsoZone.offset west hours minutes).text =
        [if west then '-' else '+', h₁, h₂, ':', m₁, m₂] := by
      rw [IsoZone.text, hhours, hminutes]
      rfl
    rw [htext, hmarked]
    cases west <;> rfl

/-- The text of a timestamp. -/
def stampText (year month day hour minute second : ℕ) (digits : List Char) (zone : IsoZone) :
    List Char :=
  (padded 4 year ++ '-' :: (padded 2 month ++ '-' :: padded 2 day)) ++
    'T' :: ((padded 2 hour ++ ':' :: (padded 2 minute ++ ':' ::
      (padded 2 second ++ fractionText digits))) ++ zone.text)

/-- A written timestamp gives back its fields. -/
lemma readStamp_stampText {year month day hour minute second : ℕ} {zone : IsoZone}
    (hyear : year < 2 ^ 63) (hmonth : month < 2 ^ 32) (hday : day < 2 ^ 32) (hhour : hour < 2 ^ 64)
    (hminute : minute < 2 ^ 64) (hdigits : digits.all Char.isDigit = true) (hzone : zone.Short) :
    readStamp (stampText year month day hour minute second digits zone) =
      some ⟨year, month, day, hour, minute, .finite (decimal second digits), zone.minutes⟩ := by
  have hT : 'T' ∉ padded 4 year ++ '-' :: (padded 2 month ++ '-' :: padded 2 day) := by
    simp [notMem_padded (show 'T'.isDigit = false by decide)]
  have hdash : ∀ width n, '-' ∉ padded width n := fun _ _ => notMem_padded (by decide)
  have hcolon : ∀ width n, ':' ∉ padded width n := fun _ _ => notMem_padded (by decide)
  have hfraction : ':' ∉ padded 2 second ++ fractionText digits := by
    rw [List.mem_append, not_or]
    refine ⟨hcolon _ _, ?_⟩
    unfold fractionText
    split_ifs
    · simp
    · rw [List.mem_cons, not_or]
      exact ⟨by decide, fun hmem => absurd (List.all_eq_true.1 hdigits _ hmem) (by decide)⟩
  have hdate : (padded 4 year ++ '-' :: (padded 2 month ++ '-' :: padded 2 day)).splitOn '-' =
      [padded 4 year, padded 2 month, padded 2 day] := by
    rw [List.splitOn_append_cons_self_of_not_mem (hdash _ _),
      List.splitOn_append_cons_self_of_not_mem (hdash _ _), List.splitOn_eq_singleton (hdash _ _)]
  have htime : (padded 2 hour ++ ':' :: (padded 2 minute ++ ':' ::
      (padded 2 second ++ fractionText digits))).splitOn ':' =
        [padded 2 hour, padded 2 minute, padded 2 second ++ fractionText digits] := by
    rw [List.splitOn_append_cons_self_of_not_mem (hcolon _ _),
      List.splitOn_append_cons_self_of_not_mem (hcolon _ _), List.splitOn_eq_singleton hfraction]
  have hsecond := parseF64_decimal (padded_ne_nil 2 second) (all_padded 2 second) hdigits
  rw [ofDigitChars_padded] at hsecond
  rw [readStamp, stampText, splitOnce_append hT]
  simp only [bind, Option.bind_some, splitZone_text hzone, hdate, htime, List.getElem?_cons_zero,
    List.getElem?_cons_succ, parseI64_padded hyear, parseUnsigned_padded hmonth,
    parseUnsigned_padded hday, parseUnsigned_padded hhour, parseUnsigned_padded hminute, hsecond,
    pure]

end Written

end Rupi.PiTime
