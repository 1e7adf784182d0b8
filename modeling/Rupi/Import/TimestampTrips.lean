import Rupi.Import.Timestamps

/-!
Timestamps that are written and read back.

- `piTimestamp_of_date`: which date is written for a day. A leap day is not written right.
- `IsoStamp`: a timestamp with its zone, and the instant that it names.
- `isToMillis_text`: the reader gives that instant.
- **`timestamps_survive_iff`**: which milliseconds read back, that timestamps keep their instant, and
  which texts are read without an overflow and without an impossible date.
-/

namespace Rupi.PiTime

open Calendar

/-! ### The date that is written -/

section Dates

variable {year month day milliseconds : ℕ}

/-- A day of a year that begins in March: its era of 400 years, its century of the era, its year of
the century and its day of the year. Only a leap day has the number 365. -/
structure MarchDay (year month day era century place dayOfYear : ℕ) : Prop where
  year_eq : marchYear year month = 400 * era + 100 * century + place
  day_eq : dayOfYear = (153 * marchMonth month + 2) / 5 + day - 1
  shifted : dayNumber year month day + 719468 =
    146097 * era + 36524 * century + 365 * place + place / 4 + dayOfYear
  century_le : century ≤ 3
  place_le : place ≤ 99
  leap : dayOfYear ≤ 364 ∨ dayOfYear = 365 ∧ place % 4 = 3 ∧ (place = 99 → century = 3)

lemma exists_marchDay (hdate : IsDate year month day) (hpos : 0 ≤ marchYear year month) :
    ∃ era century place dayOfYear, MarchDay year month day era century place dayOfYear := by
  have hcount := @dayNumber_march year month day ⟨hdate.1, hdate.2.1⟩
  obtain ⟨hle, hleap⟩ := marchDay_bounds hdate
  have hday := hdate.2.2.1
  obtain ⟨march, hmarch⟩ := Int.eq_ofNat_of_zero_le hpos
  rw [hmarch] at hcount
  have hquarters : march / 4 = 100 * (march / 400) + 25 * (march % 400 / 100) + march % 100 / 4 := by
    omega
  have hcenturies : march / 100 = 4 * (march / 400) + march % 400 / 100 := by omega
  refine ⟨march / 400, march % 400 / 100, march % 100, (153 * marchMonth month + 2) / 5 + day - 1,
    by omega, rfl, by omega, by omega, by omega, ?_⟩
  by_cases hlast : (153 * marchMonth month + 2) / 5 + day = 366
  · obtain ⟨rfl, rfl⟩ := hleap.1 hlast
    have hlength : (29 : ℕ) ≤ monthLength year 2 := hdate.2.2.2
    simp only [monthLength, marchYear] at hlength hmarch
    split_ifs at hlength with hyear
    · unfold IsLeap at hyear
      norm_num at hmarch
      omega
    · omega
  · omega

/-- The era and the day of the era, as the code divides them out. -/
lemma MarchDay.divided {era century place dayOfYear days : ℕ}
    (h : MarchDay year month day era century place dayOfYear)
    (hdays : dayNumber year month day = days) : (days + 719468) / 146097 = era ∧
      days + 719468 - era * 146097 = 36524 * century + 365 * place + place / 4 + dayOfYear := by
  obtain ⟨-, -, hshifted, hcentury, hplace, hleap⟩ := h
  have hsum : days + 719468 =
      146097 * era + (36524 * century + 365 * place + place / 4 + dayOfYear) := by omega
  have hlt : 36524 * century + 365 * place + place / 4 + dayOfYear < 146097 := by omega
  constructor
  · rw [hsum, Nat.mul_add_div (by decide), Nat.div_eq_of_lt hlt, Nat.add_zero]
  · rw [hsum, Nat.mul_comm era, Nat.add_sub_cancel_left]

/-- The month and the day of the month are those of the date. -/
lemma monthProbe_eq (hdate : IsDate year month day) :
    (5 * ((153 * marchMonth month + 2) / 5 + day - 1) + 2) / 153 = marchMonth month := by
  obtain ⟨hlow, hhigh, hpos, hle⟩ := hdate
  interval_cases month <;> simp only [monthLength, marchMonth] at hle ⊢ <;>
    (try split_ifs at hle) <;> norm_num <;> omega

/-- The year of the era as the code computes it. -/
def yearOfEra (dayOfEra : ℕ) : ℕ :=
  (dayOfEra - dayOfEra / 1461 + dayOfEra / 36524 - dayOfEra / 146096) / 365

lemma yearOfEra_eq {century place dayOfYear : ℕ} (hcentury : century ≤ 3) (hplace : place ≤ 99)
    (hday : dayOfYear ≤ 364) :
    yearOfEra (36524 * century + 365 * place + place / 4 + dayOfYear) = 100 * century + place := by
  obtain ⟨dayOfEra, hdayOfEra⟩ : ∃ dayOfEra, dayOfEra =
    36524 * century + 365 * place + place / 4 + dayOfYear := ⟨_, rfl⟩
  have hcenturies : dayOfEra / 36524 = century := by omega
  have hera : dayOfEra / 146096 = 0 := by omega
  rw [← hdayOfEra, yearOfEra, hcenturies, hera]
  -- Groups of four years begin one day earlier with every century.
  by_cases hfirst : 365 * (place % 4) + dayOfYear < century
  · have hquarters : dayOfEra / 1461 + 1 = 25 * century + place / 4 := by omega
    omega
  · have hquarters : dayOfEra / 1461 = 25 * century + place / 4 := by omega
    omega

/-- The leap day is counted to the year behind it. -/
lemma yearOfEra_leap {century place : ℕ} (hcentury : century ≤ 3) (hplace : place ≤ 99)
    (hleap : place % 4 = 3) (hlast : place = 99 → century = 3) :
    yearOfEra (36524 * century + 365 * place + place / 4 + 365) = 100 * century + place + 1 := by
  obtain ⟨dayOfEra, hdayOfEra⟩ : ∃ dayOfEra, dayOfEra =
    36524 * century + 365 * place + place / 4 + 365 := ⟨_, rfl⟩
  have hquarters : dayOfEra / 1461 = 25 * century + place / 4 := by omega
  rw [← hdayOfEra, yearOfEra, hquarters]
  by_cases hend : place = 99
  · obtain rfl : century = 3 := hlast hend
    have hcenturies : dayOfEra / 36524 = 4 := by omega
    have hera : dayOfEra / 146096 = 1 := by omega
    omega
  · have hcenturies : dayOfEra / 36524 = century := by omega
    have hera : dayOfEra / 146096 = 0 := by omega
    omega

/-- The text of a date with a time of day in milliseconds. -/
def writtenText (year month day time : ℕ) : List Char :=
  stampText year month day (time / 3600000) (time / 60000 % 60) (time / 1000 % 60)
    (padded 3 (time % 1000)) .utc

/-- The calendar month of a month that is counted from March. -/
def calendarMonth (monthProbe : ℕ) : ℕ := if monthProbe < 10 then monthProbe + 3 else monthProbe - 9

/-- The date of a day of an era, as the code computes it. -/
def civilDate (era dayOfEra : ℕ) : Checked (ℕ × ℕ × ℕ) :=
  (subU64 dayOfEra (365 * yearOfEra dayOfEra + yearOfEra dayOfEra / 4 -
    yearOfEra dayOfEra / 100)).map fun dayOfYear =>
      let month := calendarMonth ((5 * dayOfYear + 2) / 153)
      let year := yearOfEra dayOfEra + era * 400
      (if month ≤ 2 then year + 1 else year, month,
        dayOfYear - (153 * ((5 * dayOfYear + 2) / 153) + 2) / 5 + 1)

lemma piTimestamp_eq {era dayOfEra : ℕ} (hera : (milliseconds / dayMs + 719468) / 146097 = era)
    (hday : milliseconds / dayMs + 719468 - era * 146097 = dayOfEra) :
    piTimestamp milliseconds =
      (civilDate era dayOfEra).map fun date =>
        writtenText date.1 date.2.1 date.2.2 (milliseconds % dayMs) := by
  have hfraction : ∀ n, fractionText (padded 3 n) = '.' :: padded 3 n := fun n =>
    if_neg (padded_ne_nil 3 n)
  have hyear : (dayOfEra - dayOfEra / 1461 + dayOfEra / 36524 - dayOfEra / 146096) / 365 =
      yearOfEra dayOfEra := rfl
  unfold piTimestamp civilDate
  dsimp only
  rw [hera, hday, hyear]
  cases subU64 dayOfEra (365 * yearOfEra dayOfEra + yearOfEra dayOfEra / 4 -
      yearOfEra dayOfEra / 100) with
  | error => rfl
  | ok dayOfYear =>
    simp only [ok_bind, pure, Except.pure, Except.map, writtenText, stampText, hfraction,
      IsoZone.text, calendarMonth, List.append_assoc, List.cons_append]
    rfl

/-- The computed date is the date of the day, but for leap days: of these, the one that ends an era
becomes the day behind it, and the others take a difference below zero. -/
lemma MarchDay.civilDate_eq {era century place dayOfYear : ℕ} (hdate : IsDate year month day)
    (h : MarchDay year month day era century place dayOfYear) :
    civilDate era (36524 * century + 365 * place + place / 4 + dayOfYear) =
      if month = 2 ∧ day = 29 then if 400 ∣ year then .ok (year, 3, 1) else .error .overflow
      else .ok (year, month, day) := by
  obtain ⟨hyear, hday, -, hcentury, hplace, hleap⟩ := h
  have hlast := (marchDay_bounds hdate).2
  have hpos := hdate.2.2.1
  by_cases hleapDay : month = 2 ∧ day = 29
  · rw [if_pos hleapDay]
    obtain rfl : dayOfYear = 365 := by have := hlast.2 hleapDay; omega
    obtain ⟨rfl, rfl⟩ := hleapDay
    have hquarter : place % 4 = 3 ∧ (place = 99 → century = 3) := by omega
    have hplaces := yearOfEra_leap hcentury hplace hquarter.1 hquarter.2
    simp only [marchYear] at hyear
    norm_num at hyear
    rw [civilDate, hplaces]
    split_ifs with hend
    · obtain ⟨rfl, rfl⟩ : century = 3 ∧ place = 99 := by omega
      have hyears : 400 + era * 400 = year := by omega
      norm_num [subU64, Except.map, calendarMonth, hyears]
    · rw [subU64, if_neg (by omega)]
      rfl
  · rw [if_neg hleapDay]
    have hshort : dayOfYear ≤ 364 := by omega
    have hplaces := yearOfEra_eq hcentury hplace hshort
    have hprobe := monthProbe_eq hdate
    rw [← hday] at hprobe
    rw [civilDate, hplaces, subU64, if_pos (by omega)]
    have hsub : 36524 * century + 365 * place + place / 4 + dayOfYear -
        (365 * (100 * century + place) + (100 * century + place) / 4 -
          (100 * century + place) / 100) = dayOfYear := by omega
    simp only [Except.map, hsub, hprobe]
    have hmonth : calendarMonth (marchMonth month) = month := by
      have hlow := hdate.1
      have hhigh := hdate.2.1
      unfold calendarMonth marchMonth
      split_ifs <;> omega
    have hyears : (if month ≤ 2 then 100 * century + place + era * 400 + 1
        else 100 * century + place + era * 400) = year := by
      unfold marchYear at hyear
      split_ifs at hyear ⊢ <;> omega
    have hdays : dayOfYear - (153 * marchMonth month + 2) / 5 + 1 = day := by omega
    rw [hmonth, hyears, hdays]

/-- Every day is written with its date, but for leap days. -/
theorem piTimestamp_of_date (hdate : IsDate year month day)
    (hdays : dayNumber year month day = (milliseconds / dayMs : ℕ)) :
    piTimestamp milliseconds =
      if month = 2 ∧ day = 29 then
        if 400 ∣ year then .ok (writtenText year 3 1 (milliseconds % dayMs)) else .error .overflow
      else .ok (writtenText year month day (milliseconds % dayMs)) := by
  have hmarch : 0 ≤ marchYear year month := by
    have hcount := @dayNumber_march year month day ⟨hdate.1, hdate.2.1⟩
    have hle := (marchDay_bounds hdate).1
    have hnonneg := Int.natCast_nonneg (milliseconds / dayMs)
    rw [← hdays] at hnonneg
    omega
  obtain ⟨era, century, place, dayOfYear, h⟩ := exists_marchDay hdate hmarch
  obtain ⟨hera, hrest⟩ := h.divided hdays
  rw [piTimestamp_eq hera hrest, h.civilDate_eq hdate]
  split_ifs <;> rfl

end Dates

/-! ### Instants of timestamps -/

section Instants

variable {whole : ℕ} {digits : List Char}

/-- Milliseconds of the digits behind the point, to the nearest one. -/
def fractionMillis (digits : List Char) : ℤ :=
  ⌊(Nat.ofDigitChars 10 digits 0 : ℚ) / 10 ^ digits.length * 1000 + 1 / 2⌋

lemma fractionMillis_bounds (hall : digits.all Char.isDigit = true) :
    0 ≤ fractionMillis digits ∧ fractionMillis digits ≤ 1000 := by
  have hlt : (Nat.ofDigitChars 10 digits 0 : ℚ) / 10 ^ digits.length < 1 := by
    rw [div_lt_one (by positivity)]
    exact_mod_cast ofDigitChars_lt hall
  constructor
  · exact Int.floor_nonneg.2 (by positivity)
  · rw [fractionMillis, ← Int.lt_add_one_iff, Int.floor_lt]
    push_cast
    linarith

lemma integral_decimal (hall : digits.all Char.isDigit = true) :
    ExactF64.integral (decimal whole digits) = whole := by
  have hlt : (Nat.ofDigitChars 10 digits 0 : ℚ) / 10 ^ digits.length < 1 := by
    rw [div_lt_one (by positivity)]
    exact_mod_cast ofDigitChars_lt hall
  have hpos : (0 : ℚ) ≤ (Nat.ofDigitChars 10 digits 0 : ℚ) / 10 ^ digits.length := by positivity
  have hnonneg : 0 ≤ decimal whole digits := by
    unfold decimal
    positivity
  rw [ExactF64.integral, if_pos hnonneg, Int.floor_eq_iff, decimal]
  constructor <;> push_cast <;> linarith

lemma fractMillis_decimal (hall : digits.all Char.isDigit = true) :
    (ExactF64.finite (decimal whole digits)).fractMillis = fractionMillis digits := by
  have hpos : (0 : ℚ) ≤ (Nat.ofDigitChars 10 digits 0 : ℚ) / 10 ^ digits.length * 1000 := by
    positivity
  rw [ExactF64.fractMillis, integral_decimal hall, decimal, Int.cast_natCast, add_sub_cancel_left,
    ExactF64.round, if_pos hpos, fractionMillis]

lemma asI64_decimal (hall : digits.all Char.isDigit = true) (hwhole : whole < 2 ^ 63) :
    (ExactF64.finite (decimal whole digits)).asI64 = whole := by
  rw [ExactF64.asI64, integral_decimal hall]
  omega

/-- A timestamp of the accepted shape: a date of the calendar with four digits for the year, a time
of day with any digits behind the seconds, and a zone. -/
structure IsoStamp where
  year : ℕ
  month : ℕ
  day : ℕ
  hour : ℕ
  minute : ℕ
  second : ℕ
  digits : List Char
  zone : IsoZone
  year_le : year ≤ 9999
  isDate : IsDate year month day
  hour_le : hour ≤ 24
  minute_le : minute ≤ 59
  second_le : second ≤ 60
  digits_all : digits.all Char.isDigit = true
  zone_short : zone.Short

namespace IsoStamp

/-- `YYYY-MM-DDTHH:MM:SS[.sss][Z|+-HH:MM]`. -/
def text (stamp : IsoStamp) : List Char :=
  stampText stamp.year stamp.month stamp.day stamp.hour stamp.minute stamp.second stamp.digits
    stamp.zone

/-- Seconds from 1970-01-01 in UTC to the instant that a timestamp names. -/
def instant (stamp : IsoStamp) : ℚ :=
  dayNumber stamp.year stamp.month stamp.day * 86400 + stamp.hour * 3600 + stamp.minute * 60 +
    (stamp.second + Nat.ofDigitChars 10 stamp.digits 0 / 10 ^ stamp.digits.length) -
      stamp.zone.minutes * 60

/-- The instant in milliseconds, to the nearest one. -/
def utcMillis (stamp : IsoStamp) : ℤ := ⌊stamp.instant * 1000 + 1 / 2⌋

/-- The fields that are read from the text. -/
def fields (stamp : IsoStamp) : Stamp :=
  ⟨stamp.year, stamp.month, stamp.day, stamp.hour, stamp.minute,
    .finite (decimal stamp.second stamp.digits), stamp.zone.minutes⟩

variable (stamp : IsoStamp)

lemma readStamp_text : readStamp stamp.text = some stamp.fields := by
  have hyear := stamp.year_le
  have hmonth := stamp.isDate.2.1
  have hday : stamp.day ≤ 31 := le_trans stamp.isDate.2.2.2 (monthLength_le _ _)
  have hhour := stamp.hour_le
  have hminute := stamp.minute_le
  exact readStamp_stampText (by omega) (by omega) (by omega) (by omega) (by omega)
    stamp.digits_all stamp.zone_short

lemma fields_clock : asI64 stamp.fields.clock = stamp.hour * 3600 + stamp.minute * 60 := by
  have hhour := stamp.hour_le
  have hminute := stamp.minute_le
  have hclock : stamp.fields.clock = stamp.hour * 3600 + stamp.minute * 60 := rfl
  rw [asI64, hclock, if_pos (by omega)]
  push_cast
  rfl

lemma fields_seconds : stamp.fields.seconds = dayNumber stamp.year stamp.month stamp.day * 86400 +
    (stamp.hour * 3600 + stamp.minute * 60) + stamp.second := by
  have hsecond := stamp.second_le
  rw [Stamp.seconds, fields_clock]
  exact congrArg _ (asI64_decimal stamp.digits_all (by omega))

lemma fields_localMillis : stamp.fields.localMillis =
    stamp.fields.seconds * 1000 + fractionMillis stamp.digits :=
  congrArg _ (fractMillis_decimal stamp.digits_all)

lemma fields_utcMillis : stamp.fields.utcMillis = stamp.utcMillis := by
  have hinstant : stamp.instant * 1000 + 1 / 2 =
      ((stamp.fields.seconds * 1000 - stamp.zone.minutes * 60000 : ℤ) : ℚ) +
        ((Nat.ofDigitChars 10 stamp.digits 0 : ℚ) / 10 ^ stamp.digits.length * 1000 + 1 / 2) := by
    rw [instant, fields_seconds]
    push_cast
    ring
  have hzone : stamp.fields.offsetMinutes = stamp.zone.minutes := rfl
  rw [utcMillis, hinstant, Int.floor_intCast_add, Stamp.utcMillis, fields_localMillis, hzone,
    ← fractionMillis]
  ring

/-- Four digits for the year leave all sums small. -/
lemma fields_fits : stamp.fields.Fits := by
  have hparsed := (parsed_of_readStamp stamp.readStamp_text).offset
  have hcount := @dayNumber_march stamp.year stamp.month stamp.day ⟨stamp.isDate.1, stamp.isDate.2.1⟩
  have hday := (marchDay_bounds stamp.isDate).1
  have hyear := stamp.year_le
  have hdays : -720000 ≤ dayNumber stamp.year stamp.month stamp.day ∧
      dayNumber stamp.year stamp.month stamp.day ≤ 4000000 := by
    unfold marchYear at hcount
    split_ifs at hcount <;> omega
  have hhour := stamp.hour_le
  have hminute := stamp.minute_le
  have hsecond := stamp.second_le
  have hfraction := fractionMillis_bounds stamp.digits_all
  have hseconds := stamp.fields_seconds
  have hlocal := stamp.fields_localMillis
  have hclock := stamp.fields_clock
  have hclockNat : stamp.fields.clock = stamp.hour * 3600 + stamp.minute * 60 := rfl
  have hyearEq : stamp.fields.year = stamp.year := rfl
  have hmonthEq : stamp.fields.month = stamp.month := rfl
  have hdayEq : stamp.fields.day = stamp.day := rfl
  constructor
  · rw [hyearEq, hmonthEq, hdayEq]
    exact ⟨by omega, by omega⟩
  · omega
  · rw [hyearEq, hmonthEq, hdayEq, hclock]
    exact ⟨by omega, by omega⟩
  · exact ⟨by omega, by omega⟩
  · exact ⟨by omega, by omega⟩
  · rw [Stamp.utcMillis]
    exact ⟨by omega, by omega⟩

end IsoStamp

/-- A timestamp is read as its instant, from the epoch on. -/
theorem isToMillis_text (stamp : IsoStamp) : isToMillis stamp.text =
    .ok (if 0 ≤ stamp.utcMillis then some stamp.utcMillis.toNat else none) := by
  have hread := stamp.readStamp_text
  have hday : stamp.day ≤ 31 := le_trans stamp.isDate.2.2.2 (monthLength_le _ _)
  have htoMillis := Stamp.toMillis_of_fits (parsed_of_readStamp hread)
    ⟨stamp.isDate.1, stamp.isDate.2.1⟩ ⟨stamp.isDate.2.2.1, hday⟩ stamp.fields_fits
  rw [isToMillis, hread]
  dsimp only
  rw [htoMillis, stamp.fields_utcMillis]

end Instants

/-! ### There and back -/

section Trips

variable {year month day days time milliseconds : ℕ}

/-- Three digits are the milliseconds. -/
lemma fractionMillis_padded {n : ℕ} (h : n < 1000) : fractionMillis (padded 3 n) = n := by
  have hvalue : (n : ℚ) / 10 ^ 3 * 1000 = n := by norm_num
  rw [fractionMillis, ofDigitChars_padded, length_padded (by decide) h, hvalue,
    Int.floor_eq_iff]
  constructor <;> push_cast <;> linarith

/-- The fields of a written timestamp. -/
def writtenFields (year month day time : ℕ) : Stamp :=
  ⟨year, month, day, time / 3600000, time / 60000 % 60,
    .finite (decimal (time / 1000 % 60) (padded 3 (time % 1000))), 0⟩

lemma readStamp_writtenText (hyear : year < 2 ^ 63) (hdate : IsDate year month day)
    (htime : time < dayMs) : readStamp (writtenText year month day time) =
      some (writtenFields year month day time) := by
  have hmonth := hdate.2.1
  have hday : day ≤ 31 := le_trans hdate.2.2.2 (monthLength_le _ _)
  have hlt : time < 86400000 := htime
  have hzone : IsoZone.utc.Short := trivial
  exact readStamp_stampText hyear (by omega) (by omega) (by omega) (by omega) (all_padded _ _) hzone

lemma writtenFields_clock (htime : time < dayMs) :
    (writtenFields year month day time).clock = time / 60000 * 60 := by
  have hlt : time < 86400000 := htime
  have hclock : (writtenFields year month day time).clock =
      time / 3600000 * 3600 + time / 60000 % 60 * 60 := rfl
  omega

lemma writtenFields_seconds (hdays : dayNumber year month day = days) (htime : time < dayMs) :
    (writtenFields year month day time).seconds = (days * 86400 + time / 1000 : ℕ) := by
  have hlt : time < 86400000 := htime
  have hseconds : (writtenFields year month day time).seconds =
      dayNumber year month day * 86400 + asI64 (writtenFields year month day time).clock +
        (ExactF64.finite (decimal (time / 1000 % 60) (padded 3 (time % 1000)))).asI64 := rfl
  rw [hseconds, writtenFields_clock htime, asI64_decimal (all_padded _ _) (by omega), hdays, asI64,
    if_pos (by omega)]
  push_cast
  omega

/-- The fields name the day and the time of day. -/
lemma writtenFields_localMillis (hdays : dayNumber year month day = days) (htime : time < dayMs) :
    (writtenFields year month day time).localMillis = (days * dayMs + time : ℕ) := by
  have hfraction : (writtenFields year month day time).second.fractMillis =
      (time % 1000 : ℕ) := by
    rw [← fractionMillis_padded (Nat.mod_lt time (by decide))]
    exact fractMillis_decimal (all_padded _ _)
  rw [Stamp.localMillis, hfraction, writtenFields_seconds hdays htime, dayMs]
  omega

lemma writtenFields_utcMillis (hdays : dayNumber year month day = days) (htime : time < dayMs) :
    (writtenFields year month day time).utcMillis = (days * dayMs + time : ℕ) := by
  have hzone : (writtenFields year month day time).offsetMinutes = 0 := rfl
  rw [Stamp.utcMillis, writtenFields_localMillis hdays htime, hzone]
  ring

lemma writtenFields_fits (hdays : dayNumber year month day = days) (htime : time < dayMs)
    (hfits : days * dayMs + time < 2 ^ 63) : (writtenFields year month day time).Fits := by
  have hlt : time < 86400000 := htime
  have hsum : days * 86400000 + time < 2 ^ 63 := hfits
  have hclock : (writtenFields year month day time).clock = time / 60000 * 60 :=
    writtenFields_clock htime
  have hasI64 : asI64 (writtenFields year month day time).clock = (time / 60000 * 60 : ℕ) := by
    rw [hclock, asI64, if_pos (by omega)]
  have hnumber : dayNumber (writtenFields year month day time).year
      (writtenFields year month day time).month (writtenFields year month day time).day = days :=
    hdays
  have hlocal : InI64 (days * 86400000 + time : ℕ) := ⟨by omega, by omega⟩
  constructor
  · rw [hnumber]
    exact ⟨by omega, by omega⟩
  · omega
  · rw [hnumber, hasI64]
    exact ⟨by omega, by omega⟩
  · rw [writtenFields_seconds hdays htime]
    exact ⟨by omega, by omega⟩
  · rw [writtenFields_localMillis hdays htime]
    exact hlocal
  · rw [writtenFields_utcMillis hdays htime]
    exact hlocal

/-- A written day reads back as itself; it reads as nothing else, also when the sums overflow. -/
lemma isToMillis_writtenText (hyear : year < 2 ^ 63) (hdate : IsDate year month day)
    (hdays : dayNumber year month day = days) (htime : time < dayMs) :
    isToMillis (writtenText year month day time) =
      if (writtenFields year month day time).Fits then .ok (some (days * dayMs + time))
      else .error .overflow := by
  have hread := readStamp_writtenText hyear hdate htime
  have hday : day ≤ 31 := le_trans hdate.2.2.2 (monthLength_le _ _)
  rw [isToMillis, hread]
  dsimp only
  rw [Stamp.toMillis_eq (parsed_of_readStamp hread) ⟨hdate.1, hdate.2.1⟩ ⟨hdate.2.2.1, hday⟩,
    writtenFields_utcMillis hdays htime, if_pos (Int.natCast_nonneg _), Int.toNat_natCast]

/-- A day from the epoch on has a date with a year from year 0 on. -/
lemma exists_writtenDate (days : ℕ) : ∃ year month day : ℕ, IsDate year month day ∧
    dayNumber year month day = days ∧ year ≤ days + 2000 := by
  obtain ⟨⟨year, month, day, hdate⟩, hnumber⟩ := exists_date days
  have hdays : dayNumber year month day = days := hnumber
  have hcount := @dayNumber_march year month day ⟨hdate.1, hdate.2.1⟩
  have hle := (marchDay_bounds hdate).1
  have hbounds : 0 ≤ year ∧ year ≤ days + 2000 := by
    unfold marchYear at hcount
    split_ifs at hcount <;> omega
  obtain ⟨natural, rfl⟩ := Int.eq_ofNat_of_zero_le hbounds.1
  exact ⟨natural, month, day, hdate, hdays, by omega⟩

/-- The day falls on the leap day of a year. -/
def OnLeapDay (milliseconds year : ℕ) : Prop :=
  IsLeap year ∧ dayNumber year 2 29 = (milliseconds / dayMs : ℕ)

/-- What is rendered for an instant reads back as this instant. -/
def ReadsBack (milliseconds : ℕ) : Prop :=
  ∀ text, piTimestamp milliseconds = .ok text → isToMillis text = .ok (some milliseconds)

/-- A text is read without an overflow, and not as a date that there is not. -/
def ReadsSafely (text : List Char) : Prop :=
  ∃ result, isToMillis text = .ok result ∧ ∀ stamp, readStamp text = some stamp → result ≠ none →
    IsDate stamp.year stamp.month stamp.day

lemma isDate_leapDay {year : ℕ} (h : IsLeap year) : IsDate year 2 29 := by
  simp [IsDate, monthLength, h]

lemma isLeap_of_isDate {year : ℕ} (h : IsDate year 2 29) : IsLeap year := by
  have hlength : 29 ≤ monthLength year 2 := h.2.2.2
  simp only [monthLength] at hlength
  by_contra hnot
  rw [if_neg hnot] at hlength
  omega

lemma time_lt : milliseconds % dayMs < dayMs := Nat.mod_lt _ (by decide)

lemma days_add_time : milliseconds / dayMs * dayMs + milliseconds % dayMs = milliseconds :=
  Nat.div_add_mod' _ _

/-- The years of all days that there are fit the type of a year. -/
lemma year_lt {year : ℕ} (hbound : milliseconds < 2 ^ 63)
    (hyear : year ≤ milliseconds / dayMs + 2000) : year < 2 ^ 63 := by
  have hdays : milliseconds / dayMs < 2 ^ 40 :=
    Nat.div_lt_of_lt_mul (lt_of_lt_of_le hbound (by decide))
  exact lt_of_le_of_lt hyear (lt_of_lt_of_le (Nat.add_lt_add_right hdays 2000) (by decide))

lemma dayNumber_march_first {year : ℕ} (h : IsLeap year) :
    dayNumber year 3 1 = dayNumber year 2 29 + 1 := by
  have hlast : Date.next ⟨year, 2, 29, isDate_leapDay h⟩ =
      ⟨year, 3, 1, by simp [IsDate, monthLength]⟩ := by simp [Date.next, monthLength, h]
  have hnext := Date.dayNumber_next ⟨year, 2, 29, isDate_leapDay h⟩
  rw [hlast] at hnext
  exact hnext

/-- The leap day that ends an era reads back as the day behind it. -/
lemma not_readsBack {year : ℕ} (hbound : milliseconds < 2 ^ 63) (hera : 400 ∣ year)
    (hday : OnLeapDay milliseconds year) : ¬ ReadsBack milliseconds := by
  intro hback
  obtain ⟨hleap, hdays⟩ := hday
  have htext := piTimestamp_of_date (isDate_leapDay hleap) hdays
  rw [if_pos ⟨rfl, rfl⟩, if_pos hera] at htext
  have hread := hback _ htext
  have hyear : year < 2 ^ 63 := by
    have hcount := @dayNumber_march year 2 29 ⟨by decide, by decide⟩
    rw [hdays] at hcount
    have hmarch : marchYear year 2 = year - 1 := rfl
    rw [hmarch] at hcount
    have hle : year ≤ milliseconds / dayMs + 2000 := by
      clear hdays htext hread
      generalize milliseconds / dayMs = days at hcount ⊢
      omega
    exact year_lt hbound hle
  have hdate : IsDate year 3 1 := by simp [IsDate, monthLength]
  have hnext : dayNumber year 3 1 = (milliseconds / dayMs + 1 : ℕ) := by
    rw [dayNumber_march_first hleap, hdays]
    push_cast
    rfl
  rw [isToMillis_writtenText hyear hdate hnext time_lt, Nat.add_mul, Nat.add_right_comm,
    days_add_time] at hread
  split_ifs at hread
  simp [dayMs] at hread

/-- An instant that is not on such a day reads back. -/
lemma readsBack (hbound : milliseconds < 2 ^ 63)
    (hdays : ¬ ∃ year : ℕ, 400 ∣ year ∧ OnLeapDay milliseconds year) : ReadsBack milliseconds := by
  intro text htext
  obtain ⟨year, month, day, hdate, hnumber, hyear⟩ := exists_writtenDate (milliseconds / dayMs)
  rw [piTimestamp_of_date hdate hnumber] at htext
  split_ifs at htext with hleapDay hera
  · obtain ⟨rfl, rfl⟩ := hleapDay
    exact absurd ⟨year, hera, isLeap_of_isDate hdate, hnumber⟩ hdays
  · obtain rfl := Except.ok.inj htext
    have hfits := writtenFields_fits hnumber time_lt (by rwa [days_add_time])
    rw [isToMillis_writtenText (year_lt hbound hyear) hdate hnumber time_lt, if_pos hfits,
      days_add_time]

lemma readsBack_iff (hbound : milliseconds < 2 ^ 63) : ReadsBack milliseconds ↔
    ¬ ∃ year : ℕ, 400 ∣ year ∧ OnLeapDay milliseconds year :=
  ⟨fun hback ⟨_, hera, hday⟩ => not_readsBack hbound hera hday hback, readsBack hbound⟩

/-- The leap days that are not rendered. -/
lemma piTimestamp_error_iff : piTimestamp milliseconds = .error .overflow ↔
    ∃ year : ℕ, ¬ 400 ∣ year ∧ OnLeapDay milliseconds year := by
  constructor
  · intro herror
    obtain ⟨year, month, day, hdate, hnumber, -⟩ := exists_writtenDate (milliseconds / dayMs)
    rw [piTimestamp_of_date hdate hnumber] at herror
    split_ifs at herror with hleapDay hera
    obtain ⟨rfl, rfl⟩ := hleapDay
    exact ⟨year, hera, isLeap_of_isDate hdate, hnumber⟩
  · rintro ⟨year, hera, hleap, hdays⟩
    rw [piTimestamp_of_date (isDate_leapDay hleap) hdays, if_pos ⟨rfl, rfl⟩, if_neg hera]

/-- The fields of a text fit the sums that the reader takes, and the date is one of the calendar
wherever the instant is not before the epoch. -/
def Stamp.Harmless (stamp : Stamp) : Prop :=
  stamp.Fits ∧ (0 ≤ stamp.utcMillis → IsDate stamp.year stamp.month stamp.day)

/-- Texts whose month or day is out of every calendar are refused before any sum. -/
lemma Stamp.toMillis_refused {stamp : Stamp}
    (h : ¬ ((1 ≤ stamp.month ∧ stamp.month ≤ 12) ∧ 1 ≤ stamp.day ∧ stamp.day ≤ 31)) :
    stamp.toMillis = .ok none := by
  have hdays : daysFromEpoch stamp.year stamp.month stamp.day = .ok none := if_pos (by omega)
  rw [Stamp.toMillis, hdays]
  rfl

lemma readsSafely_iff {text : List Char} : ReadsSafely text ↔
    ∀ stamp, readStamp text = some stamp → 1 ≤ stamp.month ∧ stamp.month ≤ 12 →
      1 ≤ stamp.day ∧ stamp.day ≤ 31 → stamp.Harmless := by
  constructor
  · rintro ⟨result, hread, hsound⟩ stamp hstamp hmonth hday
    rw [isToMillis, hstamp] at hread
    dsimp only at hread
    rw [Stamp.toMillis_eq (parsed_of_readStamp hstamp) hmonth hday] at hread
    by_cases hfits : stamp.Fits
    · rw [if_pos hfits] at hread
      obtain rfl := Except.ok.inj hread
      exact ⟨hfits, fun hpos => hsound stamp hstamp (by simp [hpos])⟩
    · rw [if_neg hfits] at hread
      cases hread
  · intro hharmless
    cases hstamp : readStamp text with
    | none => exact ⟨none, by rw [isToMillis, hstamp]; rfl, fun _ _ hne => absurd rfl hne⟩
    | some stamp =>
      by_cases hfields : (1 ≤ stamp.month ∧ stamp.month ≤ 12) ∧ 1 ≤ stamp.day ∧ stamp.day ≤ 31
      · obtain ⟨hfits, hdate⟩ := hharmless stamp hstamp hfields.1 hfields.2
        refine ⟨if 0 ≤ stamp.utcMillis then some stamp.utcMillis.toNat else none, ?_, ?_⟩
        · rw [isToMillis, hstamp]
          exact Stamp.toMillis_of_fits (parsed_of_readStamp hstamp) hfields.1 hfields.2 hfits
        · rintro other hother hsome
          obtain rfl := Option.some.inj (hstamp.symm.trans hother)
          refine hdate (not_lt.1 fun hneg => hsome ?_)
          rw [if_neg (not_le.2 hneg)]
      · refine ⟨none, ?_, fun _ _ hne => absurd rfl hne⟩
        rw [isToMillis, hstamp]
        exact Stamp.toMillis_refused hfields

/-- What survives. An instant reads back from what is rendered for it unless it is on the leap day
that ends an era, and the other leap days are not rendered. A timestamp of the accepted shape is read
as its instant. A text is read without an overflow and without an impossible date exactly where its
fields do no harm. -/
theorem timestamps_survive_iff (milliseconds : ℕ) :
    (milliseconds < 2 ^ 63 →
      (ReadsBack milliseconds ↔ ¬ ∃ year : ℕ, 400 ∣ year ∧ OnLeapDay milliseconds year) ∧
      (piTimestamp milliseconds = .error .overflow ↔
        ∃ year : ℕ, ¬ 400 ∣ year ∧ OnLeapDay milliseconds year)) ∧
    (∀ stamp : IsoStamp, isToMillis stamp.text =
      .ok (if 0 ≤ stamp.utcMillis then some stamp.utcMillis.toNat else none)) ∧
    ∀ text, ReadsSafely text ↔
      ∀ stamp, readStamp text = some stamp → 1 ≤ stamp.month ∧ stamp.month ≤ 12 →
        1 ≤ stamp.day ∧ stamp.day ≤ 31 → stamp.Harmless :=
  ⟨fun hbound => ⟨readsBack_iff hbound, piTimestamp_error_iff⟩, isToMillis_text,
    fun _ => readsSafely_iff⟩

/-- 2000-02-29 is rendered as the day behind it, the 31st of February is read as the 2nd of March,
and a year can take the sums out of their range. -/
theorem timestamps_lost :
    piTimestamp 951782400000 = .ok "2000-03-01T00:00:00.000Z".toList ∧
    ¬ ReadsBack 951782400000 ∧
    isToMillis "2024-02-31T00:00:00Z".toList = isToMillis "2024-03-02T00:00:00Z".toList ∧
    ¬ ReadsSafely "2024-02-31T00:00:00Z".toList ∧
    ¬ ReadsSafely "9223372036854775807-01-01T00:00:00Z".toList := by
  have htext : piTimestamp 951782400000 = .ok "2000-03-01T00:00:00.000Z".toList := by
    decide +kernel
  refine ⟨htext, fun hback => ?_, by decide +kernel, ?_, ?_⟩
  · exact absurd (hback _ htext) (by decide +kernel)
  · rintro ⟨result, hread, hsound⟩
    have hvalue : isToMillis "2024-02-31T00:00:00Z".toList = .ok (some 1709337600000) := by
      decide +kernel
    have hstamp : readStamp "2024-02-31T00:00:00Z".toList =
        some ⟨2024, 2, 31, 0, 0, .finite 0, 0⟩ := by decide +kernel
    obtain rfl := Except.ok.inj (hvalue.symm.trans hread)
    exact absurd (hsound _ hstamp (by simp)) (by decide)
  · rintro ⟨result, hread, -⟩
    have hvalue : isToMillis "9223372036854775807-01-01T00:00:00Z".toList = .error .overflow := by
      decide +kernel
    cases hvalue.symm.trans hread

end Trips

end Rupi.PiTime
