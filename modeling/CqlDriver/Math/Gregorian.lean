import Mathlib.Algebra.Order.Ring.Int

/-!
# The Gregorian calendar

Days are counted from 1970-01-01 in both directions. Years are counted from March on here, so
the leap day is the last one of its year; 400 years have 146097 days.

## Main definitions

* `civilOfDays` — the date of a day
* `daysOfCivil` — the day of a date

## Main results

* `daysOfCivil_civilOfDays` — the date names its day
-/

namespace CqlDriver.Math

/-- A date, with the months from 1 to 12. -/
structure CivilDate where
  year : Int
  month : Int
  day : Int
  deriving DecidableEq, Repr

/-- A year of an era of 400 years, and a day of that year. -/
def yearOfEra (dayOfEra : Int) : Int × Int :=
  let century := min 3 (dayOfEra / 36524)
  let dayOfCentury := dayOfEra - 36524 * century
  let leapCycle := dayOfCentury / 1461
  let dayOfCycle := dayOfCentury - 1461 * leapCycle
  let yearOfCycle := min 3 (dayOfCycle / 365)
  (100 * century + 4 * leapCycle + yearOfCycle, dayOfCycle - 365 * yearOfCycle)

def civilOfDays (days : Int) : CivilDate :=
  let sinceMarch := days + 719468
  let year := yearOfEra (sinceMarch % 146097)
  let monthFromMarch := (5 * year.2 + 2) / 153
  let month := if monthFromMarch < 10 then monthFromMarch + 3 else monthFromMarch - 9
  { year := 400 * (sinceMarch / 146097) + year.1 + if month ≤ 2 then 1 else 0
    month := month
    day := year.2 - (153 * monthFromMarch + 2) / 5 + 1 }

def daysOfCivil (date : CivilDate) : Int :=
  let year := if date.month ≤ 2 then date.year - 1 else date.year
  let monthFromMarch := if date.month ≤ 2 then date.month + 9 else date.month - 3
  let dayOfYear := (153 * monthFromMarch + 2) / 5 + date.day - 1
  let dayOfEra := 365 * (year % 400) + year % 400 / 4 - year % 400 / 100 + dayOfYear
  146097 * (year / 400) + dayOfEra - 719468

/-- The days of the years before, and the ranges. -/
theorem yearOfEra_spec {dayOfEra : Int} (hnonneg : 0 ≤ dayOfEra) (hlt : dayOfEra < 146097) :
    let year := yearOfEra dayOfEra
    365 * year.1 + year.1 / 4 - year.1 / 100 + year.2 = dayOfEra ∧ 0 ≤ year.1 ∧ year.1 < 400 ∧
      0 ≤ year.2 ∧ year.2 ≤ 365 := by
  dsimp only [yearOfEra]
  -- of the four years of a cycle only the last one has the leap day, of the centuries the last
  have hcentury : 0 ≤ min 3 (dayOfEra / 36524) ∧
      0 ≤ dayOfEra - 36524 * min 3 (dayOfEra / 36524) ∧
      dayOfEra - 36524 * min 3 (dayOfEra / 36524) ≤ 36524 := by omega
  have hsmall : min 3 (dayOfEra / 36524) ≤ 3 := min_le_left _ _
  generalize min 3 (dayOfEra / 36524) = century at *
  generalize hday : dayOfEra - 36524 * century = dayOfCentury at *
  have hcycle : 0 ≤ dayOfCentury / 1461 ∧ dayOfCentury / 1461 ≤ 24 ∧
      0 ≤ dayOfCentury - 1461 * (dayOfCentury / 1461) ∧
      dayOfCentury - 1461 * (dayOfCentury / 1461) ≤ 1460 := by omega
  generalize dayOfCentury / 1461 = leapCycle at *
  generalize hrest : dayOfCentury - 1461 * leapCycle = dayOfCycle at *
  have hyear : 0 ≤ min 3 (dayOfCycle / 365) ∧ min 3 (dayOfCycle / 365) ≤ 3 ∧
      0 ≤ dayOfCycle - 365 * min 3 (dayOfCycle / 365) ∧
      dayOfCycle - 365 * min 3 (dayOfCycle / 365) ≤ 365 := by omega
  generalize min 3 (dayOfCycle / 365) = yearOfCycle at *
  have hcycles : (100 * century + 4 * leapCycle + yearOfCycle) / 4 = 25 * century + leapCycle := by
    omega
  have hcenturies : (100 * century + 4 * leapCycle + yearOfCycle) / 100 = century := by omega
  rw [hcycles, hcenturies]
  omega

theorem month_civilOfDays (days : Int) :
    1 ≤ (civilOfDays days).month ∧ (civilOfDays days).month ≤ 12 := by
  have hera : 0 ≤ (days + 719468) % 146097 := Int.emod_nonneg _ (by decide)
  have hbound : (days + 719468) % 146097 < 146097 := Int.emod_lt_of_pos _ (by decide)
  obtain ⟨-, -, -, hday, hday'⟩ := yearOfEra_spec hera hbound
  simp only [civilOfDays]
  omega

/-- The days of a month are consecutive. -/
theorem daysOfCivil_day (date : CivilDate) :
    daysOfCivil date = daysOfCivil ⟨date.year, date.month, 1⟩ + (date.day - 1) := by
  simp only [daysOfCivil]
  omega

/-- The date of a day names that day. -/
theorem daysOfCivil_civilOfDays (days : Int) : daysOfCivil (civilOfDays days) = days := by
  have hera : 0 ≤ (days + 719468) % 146097 := Int.emod_nonneg _ (by decide)
  have hbound : (days + 719468) % 146097 < 146097 := Int.emod_lt_of_pos _ (by decide)
  obtain ⟨hdays, hnonneg, hlt, hday, hday'⟩ := yearOfEra_spec hera hbound
  rw [daysOfCivil, civilOfDays]
  dsimp only
  generalize yearOfEra ((days + 719468) % 146097) = year at *
  generalize hmonth : (5 * year.2 + 2) / 153 = monthFromMarch
  have hrange : 0 ≤ monthFromMarch ∧ monthFromMarch ≤ 11 := by omega
  have hquotient : (400 * ((days + 719468) / 146097) + year.1) / 400 = (days + 719468) / 146097 := by
    omega
  have hremainder : (400 * ((days + 719468) / 146097) + year.1) % 400 = year.1 := by omega
  by_cases hspring : monthFromMarch < 10
  · have hlate : ¬ monthFromMarch + 3 ≤ 2 := by omega
    simp only [if_pos hspring, hlate, if_false, add_zero, hquotient, hremainder,
      add_sub_cancel_right]
    omega
  · -- January and February belong to the next year
    have hearly : monthFromMarch - 9 ≤ 2 := by omega
    simp only [if_neg hspring, if_pos hearly, add_sub_cancel_right, hquotient, hremainder,
      sub_add_cancel]
    omega

end CqlDriver.Math
