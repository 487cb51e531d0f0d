import Doorito.Common.Models
import Doorito.Foundation.Decimal
import Mathlib.Tactic.Linarith

/-! The text of a point in time and what is read of it. Each day has a date of its own, and a
text holds the date and the time of day to the microsecond, so nothing of the time is lost. -/

set_option autoImplicit false

namespace Doorito.Common

open Foundation

/-! ## Dates -/

/-- The day, counted from the beginning of 1970, of a date of the Gregorian calendar. -/
def dayOf (year month day : Int) : Int :=
  let marchYear := if month ≤ 2 then year - 1 else year
  let marchMonth := if month ≤ 2 then month + 9 else month - 3
  let yearOfEra := marchYear % 400
  146097 * (marchYear / 400) + (365 * yearOfEra + yearOfEra / 4 - yearOfEra / 100) +
    (153 * marchMonth + 2) / 5 + day - 1 - 719468

/-- A day of an era of four hundred years, which has centuries, cycles of four years and years.
Only the last of each may be longer than the others. -/
structure DayOfEra (day century cycle year rest : Int) : Prop where
  centuryRange : 0 ≤ century ∧ century ≤ 3
  cycleRange : 0 ≤ cycle ∧ cycle ≤ 24
  yearRange : 0 ≤ year ∧ year ≤ 3
  restRange : 0 ≤ rest ∧ rest ≤ 365
  leapYear : rest = 365 → year = 3 ∧ (cycle = 24 → century = 3)
  split : day = 36524 * century + 1461 * cycle + 365 * year + rest

section DayOfEra

variable {day century cycle year rest : Int}

theorem exists_dayOfEra (begins : 0 ≤ day) (ends : day < 146097) :
    ∃ century cycle year rest, DayOfEra day century cycle year rest := by
  have bounds : ∀ left : Int, 0 ≤ left → left ≤ 36524 → 0 ≤ left / 1461 ∧ left / 1461 ≤ 24 := by
    omega
  let century := min (day / 36524) 3
  let cycle := (day - 36524 * century) / 1461
  let year := min ((day - 36524 * century) % 1461 / 365) 3
  refine ⟨century, cycle, year, (day - 36524 * century) % 1461 - 365 * year, ?_⟩
  constructor <;> simp only [century, cycle, year] <;> omega

/-- The century of a day; the last day of the era would count as a fifth one. -/
theorem century_eq (few : 0 ≤ century ∧ century ≤ 3) (begins : 0 ≤ rest)
    (ends : rest < 36524 ∨ rest = 36524 ∧ century = 3) (split : day = 36524 * century + rest) :
    day / 36524 - day / 146096 = century := by
  omega

theorem DayOfEra.yearOfEra (shape : DayOfEra day century cycle year rest) :
    (day - day / 1460 + day / 36524 - day / 146096) / 365 =
      100 * century + 4 * cycle + year := by
  obtain ⟨centuryRange, cycleRange, yearRange, restRange, leapYear, split⟩ := shape
  have centuries : day / 36524 - day / 146096 = century := by
    have inCentury : day = 36524 * century + (1461 * cycle + 365 * year + rest) := by omega
    exact century_eq centuryRange (by omega) (by omega) inCentury
  -- A day is late if the leap days before it add up to one more quotient by 1460.
  obtain ⟨late, isLate, quarters⟩ : ∃ late : Int,
      (late = 0 ∧ rest < 365 ∨ late = 1 ∧ 0 < rest) ∧ day / 1460 = 25 * century + cycle + late := by
    by_cases early : 24 * century + cycle + 365 * year + rest < 1460
    · exact ⟨0, by omega, by omega⟩
    · exact ⟨1, by omega, by omega⟩
  have whole : day - day / 1460 + day / 36524 - day / 146096 =
      365 * (100 * century + 4 * cycle + year) + (rest - late) := by
    rw [quarters]
    omega
  rw [whole]
  omega

theorem DayOfEra.leapDays (shape : DayOfEra day century cycle year rest) :
    (100 * century + 4 * cycle + year) / 4 = 25 * century + cycle ∧
      (100 * century + 4 * cycle + year) / 100 = century ∧
      0 ≤ 100 * century + 4 * cycle + year ∧ 100 * century + 4 * cycle + year < 400 := by
  obtain ⟨centuryRange, cycleRange, yearRange, _, _, _⟩ := shape
  omega

/-- The year of a day, and how far the day is in it. -/
theorem exists_yearOfEra (begins : 0 ≤ day) (ends : day < 146097) :
    ∃ yearOfEra rest : Int,
      (day - day / 1460 + day / 36524 - day / 146096) / 365 = yearOfEra ∧
      (0 ≤ yearOfEra ∧ yearOfEra < 400) ∧ (0 ≤ rest ∧ rest ≤ 365) ∧
      day = 365 * yearOfEra + yearOfEra / 4 - yearOfEra / 100 + rest := by
  obtain ⟨century, cycle, year, rest, shape⟩ := exists_dayOfEra begins ends
  obtain ⟨cycles, centuries, range⟩ := shape.leapDays
  refine ⟨_, rest, shape.yearOfEra, range, shape.restRange, ?_⟩
  rw [cycles, centuries, shape.split]
  linarith

end DayOfEra

/-- A date from the year and the month that begin in March. -/
theorem dayOf_eq (era : Int) {yearOfEra month : Int} (year : 0 ≤ yearOfEra ∧ yearOfEra < 400)
    (months : 0 ≤ month ∧ month ≤ 11) (day : Int) :
    dayOf (if month < 10 then yearOfEra + 400 * era else yearOfEra + 400 * era + 1)
        (if month < 10 then month + 3 else month - 9) day =
      146097 * era + (365 * yearOfEra + yearOfEra / 4 - yearOfEra / 100) +
        (153 * month + 2) / 5 + day - 1 - 719468 := by
  have inEra : (yearOfEra + 400 * era) % 400 = yearOfEra := by omega
  have eras : (yearOfEra + 400 * era) / 400 = era := by omega
  by_cases spring : month < 10
  · have late : ¬ month + 3 ≤ 2 := by omega
    simp only [dayOf, if_pos spring, if_neg late, inEra, eras, Int.add_sub_cancel]
  · have early : month - 9 ≤ 2 := by omega
    simp only [dayOf, if_neg spring, if_pos early, Int.add_sub_cancel, inEra, eras,
      Int.sub_add_cancel]

/-- The months from March on begin on these days, so that none is longer than 31 days. -/
theorem marchMonth_range {rest : Int} (range : 0 ≤ rest ∧ rest ≤ 365) :
    (0 ≤ (5 * rest + 2) / 153 ∧ (5 * rest + 2) / 153 ≤ 11) ∧
      1 ≤ rest - (153 * ((5 * rest + 2) / 153) + 2) / 5 + 1 ∧
      rest - (153 * ((5 * rest + 2) / 153) + 2) / 5 + 1 ≤ 31 := by
  omega

/-- The date of a day is that of no other day. -/
theorem civilDate_spec (day : Int) :
    ∃ year month dayOfMonth, civilDate day = (year, month, dayOfMonth) ∧
      (1 ≤ month ∧ month ≤ 12) ∧ (1 ≤ dayOfMonth ∧ dayOfMonth ≤ 31) ∧
      dayOf year month dayOfMonth = day := by
  obtain ⟨yearOfEra, rest, isYear, year, restRange, inYear⟩ :=
    exists_yearOfEra (Int.emod_nonneg (day + 719468) (by decide : (146097 : Int) ≠ 0))
      (Int.emod_lt_of_pos _ (by decide))
  have dayOfYear : (day + 719468) % 146097 -
      (365 * yearOfEra + yearOfEra / 4 - yearOfEra / 100) = rest := by
    rw [inYear, add_sub_cancel_left]
  obtain ⟨months, days⟩ := marchMonth_range restRange
  refine ⟨_, _, _, rfl, ?_, ?_, ?_⟩
  · clear inYear
    simp only [isYear, dayOfYear]
    split_ifs <;> omega
  · simp only [isYear, dayOfYear]
    exact days
  · have whole := Int.mul_ediv_add_emod (day + 719468) 146097
    simp only [isYear, dayOfYear]
    rw [dayOf_eq _ year months]
    linarith only [whole, inYear]

/-! ## Texts -/

/-- Two digits after a mark. -/
def readField (mark : Char) : Text → Option (Nat × Text)
  | [] => none
  | first :: rest => if first = mark then Decimal.readPadded 2 rest else none

/-- The microseconds, if there are some. -/
def readFraction : Text → Option (Nat × Text)
  | '.' :: rest => Decimal.readPadded 6 rest
  | text => some (0, text)

/-- The point in time that the text of an aware UTC datetime stands for. -/
def readTime (text : Text) : Option Time := do
  let (year, text) ← Decimal.readNat text
  let (month, text) ← readField '-' text
  let (day, text) ← readField '-' text
  let (hour, text) ← readField ' ' text
  let (minute, text) ← readField ':' text
  let (second, text) ← readField ':' text
  let (microsecond, text) ← readFraction text
  if text = "+00:00".toList then
    some (seconds (86400 * dayOf year month day + 3600 * hour + 60 * minute + second) +
      microsecond)
  else none

/-- The year that a time falls in. -/
def yearOf (time : Time) : Int := (civilDate (time / 1000000 / 86400)).1

section Texts

variable {value : Nat} {rest : Text}

theorem readField_padded (mark : Char) (fits : value < 100) :
    readField mark (mark :: (Decimal.padded 2 value ++ rest)) = some (value, rest) := by
  rw [readField, if_pos rfl, Decimal.readPadded_padded (by decide) fits]

theorem readFraction_padded (fits : value < 1000000) :
    readFraction ((if value = 0 then [] else '.' :: Decimal.padded 6 value) ++ '+' :: rest) =
      some (value, '+' :: rest) := by
  split_ifs with whole
  · rw [whole]
    rfl
  · exact Decimal.readPadded_padded (by decide) fits

/-- A time is the day, the time of day and the microseconds that its text holds. -/
theorem time_eq_fields (time : Int) :
    seconds (86400 * (time / 1000000 / 86400) + 3600 * (time / 1000000 / 3600 % 24) +
      60 * (time / 1000000 / 60 % 60) + time / 1000000 % 60) + time % 1000000 = time := by
  have hours : time / 1000000 / 60 / 60 = time / 1000000 / 3600 := by omega
  have days : time / 1000000 / 3600 / 24 = time / 1000000 / 86400 := by omega
  change ((_ : Int) * 1000000 + time % 1000000 : Int) = time
  omega

/-- The text of a time is read as that time, to the microsecond, unless its year has a sign. -/
theorem readTime_timeStr {time : Time} (unsigned : 0 ≤ yearOf time) :
    readTime (timeStr time).toList = some time := by
  have whole := time_eq_fields time
  obtain ⟨year, month, day, date, months, days, back⟩ := civilDate_spec (time / 1000000 / 86400)
  rw [yearOf, date] at unsigned
  lift year to Nat using unsigned
  lift month to Nat using by omega
  lift day to Nat using by omega
  obtain ⟨hour, isHour⟩ := Int.eq_ofNat_of_zero_le
    (Int.emod_nonneg (time / 1000000 / 3600) (by decide : (24 : Int) ≠ 0))
  obtain ⟨minute, isMinute⟩ := Int.eq_ofNat_of_zero_le
    (Int.emod_nonneg (time / 1000000 / 60) (by decide : (60 : Int) ≠ 0))
  obtain ⟨second, isSecond⟩ := Int.eq_ofNat_of_zero_le
    (Int.emod_nonneg (time / 1000000) (by decide : (60 : Int) ≠ 0))
  obtain ⟨microsecond, fraction⟩ := Int.eq_ofNat_of_zero_le
    (Int.emod_nonneg time (by decide : (1000000 : Int) ≠ 0))
  rw [← back, isHour, isMinute, isSecond, fraction] at whole
  rw [toList_timeStr date isHour isMinute isSecond fraction, readTime,
    Decimal.readNat_padded (fun _ same => by cases same; rfl)]
  have fits : month < 100 ∧ day < 100 ∧ hour < 100 ∧ minute < 100 ∧ second < 100 ∧
      microsecond < 1000000 := by omega
  obtain ⟨monthFits, dayFits, hourFits, minuteFits, secondFits, microsecondFits⟩ := fits
  simp only [Option.bind_eq_bind, Option.bind_some, readField_padded _ monthFits,
    readField_padded _ dayFits, readField_padded _ hourFits, readField_padded _ minuteFits,
    readField_padded _ secondFits]
  have zone : "+00:00".toList = '+' :: "00:00".toList := rfl
  rw [zone, readFraction_padded microsecondFits, Option.bind_some, if_pos rfl, whole]

end Texts

end Doorito.Common
