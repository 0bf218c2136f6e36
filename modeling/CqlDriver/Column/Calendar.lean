import CqlDriver.Column.PointerScalars
import CqlDriver.Common.OStream
import CqlDriver.Math.Gregorian
import CqlDriver.Math.Numeral
import CqlDriver.Math.Register
import CqlDriver.Math.Truncate

/-!
# Points in time and broken-down time

Dates, times and timestamps hold a point of the system clock: nanoseconds since the epoch,
in 64 bits. The C library converts the seconds since the epoch to broken-down time and back;
what is relied on is that its functions are inverse to each other and that local clocks
are ahead of utc by a fixed number of seconds, of 32 bits as in the files of the timezones.

The days of the week and of the year and daylight saving are left out of broken-down time.

## Main definitions

* `CalendarFunctions.FixedOffset` — what is relied on
* `gregorian` — calendar functions for any offset
* `DateTimeBase.setTm`, `DateTimeBase.toTm` — the conversions
* `DateTimeBase.localDay` — the day on local clocks

## Main results

* `gregorian_fixedOffset` — these functions are as they should be
* `DateTimeBase.timegm_toTm` — the seconds on local clocks
* `DateTimeBase.forall_decodeFixed_iff` — what holds after decoding
* `DateTimeBase.roundsDown_iff` — when two divisions that truncate round down
-/

namespace CqlDriver

open Math (Decode Fits fits_toInt CivilDate civilOfDays daysOfCivil)

/-- `std::tm`. The months are counted from zero, the years from 1900. -/
structure Tm where
  sec : Int
  min : Int
  hour : Int
  mday : Int
  mon : Int
  year : Int
  deriving DecidableEq, Repr

/-- The functions of the C library. -/
structure CalendarFunctions where
  gmtime : Int → Tm
  timegm : Tm → Int
  localtime : Int → Tm
  mktime : Tm → Int

namespace CalendarFunctions

/-- The functions are inverse to each other, with a fixed offset from utc. -/
structure FixedOffset (c : CalendarFunctions) (offset : Int) : Prop where
  offset_fits : Fits 32 offset
  timegm_gmtime : ∀ t, c.timegm (c.gmtime t) = t
  localtime_eq : ∀ t, c.localtime t = c.gmtime (t + offset)
  mktime_eq : ∀ tm, c.mktime tm = c.timegm tm - offset
  -- the date is that of the day
  gmtime_date : ∀ t u, t / 86400 = u / 86400 → (c.gmtime t).year = (c.gmtime u).year ∧
    (c.gmtime t).mon = (c.gmtime u).mon ∧ (c.gmtime t).mday = (c.gmtime u).mday
  -- hours, minutes and seconds add up, also out of their ranges
  timegm_clock : ∀ tm, c.timegm tm =
    c.timegm { tm with sec := 0, min := 0, hour := 0 } + 3600 * tm.hour + 60 * tm.min + tm.sec
  timegm_february : c.timegm { sec := 0, min := 0, hour := 0, mday := 1, mon := 1, year := 70 } =
    31 * 86400

/-- The conversion that decoding uses. -/
def calendar (c : CalendarFunctions) : Pointer.Calendar := ⟨fun t => c.mktime (c.gmtime t)⟩

end CalendarFunctions

/-! ## The Gregorian calendar -/

/-- A month beyond the year belongs to another year, a day beyond the month to another month. -/
def gregorianTimegm (tm : Tm) : Int :=
  let days := daysOfCivil ⟨tm.year + 1900 + tm.mon / 12, tm.mon % 12 + 1, 1⟩ + (tm.mday - 1)
  86400 * days + 3600 * tm.hour + 60 * tm.min + tm.sec

def gregorianGmtime (t : Int) : Tm :=
  let date := civilOfDays (t / 86400)
  { sec := t % 60
    min := t / 60 % 60
    hour := t / 3600 % 24
    mday := date.day
    mon := date.month - 1
    year := date.year - 1900 }

/-- The calendar functions for a timezone. -/
def gregorian (offset : Int) : CalendarFunctions where
  gmtime := gregorianGmtime
  timegm := gregorianTimegm
  localtime t := gregorianGmtime (t + offset)
  mktime tm := gregorianTimegm tm - offset

theorem gregorianTimegm_gregorianGmtime (t : Int) : gregorianTimegm (gregorianGmtime t) = t := by
  have hdays := Math.daysOfCivil_civilOfDays (t / 86400)
  obtain ⟨hmonth, hmonth'⟩ := Math.month_civilOfDays (t / 86400)
  rw [gregorianTimegm, gregorianGmtime]
  dsimp only
  generalize civilOfDays (t / 86400) = date at *
  have hyear : date.year - 1900 + 1900 + (date.month - 1) / 12 = date.year := by omega
  have hmon : (date.month - 1) % 12 + 1 = date.month := by omega
  rw [hyear, hmon, ← Math.daysOfCivil_day, hdays]
  omega

theorem gregorian_fixedOffset {offset : Int} (h : Fits 32 offset) :
    (gregorian offset).FixedOffset offset where
  offset_fits := h
  timegm_gmtime := gregorianTimegm_gregorianGmtime
  localtime_eq _ := rfl
  mktime_eq _ := rfl
  gmtime_date t u hday := by
    simp only [gregorian, gregorianGmtime, hday]
    exact ⟨trivial, trivial, trivial⟩
  timegm_clock tm := by
    simp only [gregorian, gregorianTimegm]
    omega
  timegm_february := by
    change gregorianTimegm _ = _
    decide

/-! ## Conversions -/

namespace DateTimeBase

/-- A `system_clock::time_point`. -/
abbrev Value := BitVec 64

/-- `system_clock::from_time_t`. -/
def fromTimeT (t : Int) : Value := ((t * 1000000000 : Int) : BitVec 64)

/-- `system_clock::to_time_t`. -/
def toTimeT (value : Value) : Int := value.toInt.tdiv 1000000000

/-- Set from broken-down time expressed in the local timezone. -/
def setTm (c : CalendarFunctions) (localTm : Tm) : Value := fromTimeT (c.mktime localTm)

def reset : Value := fromTimeT 0

/-- Broken-down time expressed in the local timezone. -/
def toTm (c : CalendarFunctions) (value : Value) : Tm := c.localtime (toTimeT value)

section FixedOffset

variable {c : CalendarFunctions} {offset : Int} (h : c.FixedOffset offset)

include h

/-- The seconds on local clocks. -/
theorem timegm_toTm (value : Value) : c.timegm (toTm c value) = toTimeT value + offset := by
  rw [toTm, h.localtime_eq, h.timegm_gmtime]

theorem mktime_gmtime (t : Int) : c.mktime (c.gmtime t) = t - offset := by
  rw [h.mktime_eq, h.timegm_gmtime]

theorem calendar_mktime (t : Int) : c.calendar.mktime t = t - offset := mktime_gmtime h t

end FixedOffset

theorem toInt_fromTimeT {t : Int} (h : Fits 64 (t * 1000000000)) :
    (fromTimeT t).toInt = t * 1000000000 := Math.toInt_intCast_of_fits (by decide) h

/-- Whole seconds that fit come back. -/
theorem toTimeT_fromTimeT {t : Int} (h : Fits 64 (t * 1000000000)) : toTimeT (fromTimeT t) = t := by
  rw [toTimeT, toInt_fromTimeT h]
  exact Int.mul_tdiv_cancel t (by decide)

/-! ## Decoding -/

section Decoding

variable {size : Nat} {lengthNotMatched : Failure} {initial : Value} {ofBytes : Bytes → Value}
  {body left : Bytes} {old value : Value}

/-- What holds after decoding holds of the value of the bytes, whatever the object held. -/
theorem forall_decodeFixed_iff (hpos : 0 < size) (h : body.length = size) {P : Value → Prop} :
    (∀ old, ∃ value left, decodeFixed size lengthNotMatched initial ofBytes ⟨old, body⟩ =
      .ok () ⟨value, left⟩ ∧ P value) ↔ P (ofBytes body) := by
  constructor
  · intro hall
    obtain ⟨value, left, hdecode, hvalue⟩ := hall initial
    rw [decodeFixed_of_length hpos h] at hdecode
    injection hdecode with _ hcursor
    injection hcursor with hbytes _
    rwa [hbytes]
  · intro hvalue old
    exact ⟨_, _, decodeFixed_of_length hpos h, hvalue⟩

/-- Bodies of other lengths are refused. -/
theorem eq_of_decodeFixed (hdecode : decodeFixed size lengthNotMatched initial ofBytes ⟨old, body⟩ =
    .ok () ⟨value, left⟩) :
    (body.length = 0 ∧ value = initial) ∨ (body.length = size ∧ value = ofBytes body) := by
  rw [decodeFixed, Decode.bind_ok Decode.remaining_apply] at hdecode
  by_cases hempty : body.length = 0
  · rw [if_pos hempty, Decode.update_apply] at hdecode
    injection hdecode with _ hcursor
    injection hcursor with hvalue _
    exact Or.inl ⟨hempty, hvalue.symm⟩
  · rw [if_neg hempty] at hdecode
    by_cases hlength : body.length = size
    · rw [if_neg (not_not.mpr hlength), Decode.update_apply] at hdecode
      injection hdecode with _ hcursor
      injection hcursor with hvalue _
      exact Or.inr ⟨hlength, hvalue.symm⟩
    · rw [if_pos hlength] at hdecode
      cases hdecode

end Decoding

/-! ## Rounding

Seconds and days are quotients that truncate toward zero. -/

variable {offset v : Int}

/-- The nanoseconds on local clocks. -/
def localTime (offset v : Int) : Int := v + offset * 1000000000

/-- The seconds on local clocks. -/
def localSeconds (offset v : Int) : Int := localTime offset v / 1000000000

/-- The day on local clocks. -/
def localDay (offset v : Int) : Int := localTime offset v / 86400000000000

/-- The points in time that two truncations round down: local clocks are not before the epoch,
or at midnight. Before the epoch in utc, and within a second, they are not in the last
second of a day either, since the seconds are rounded up. -/
def RoundsDown (offset v : Int) : Prop :=
  if 0 ≤ v ∨ 1000000000 ∣ v then 0 ≤ localSeconds offset v ∨ 86400 ∣ localSeconds offset v
  else 0 ≤ localSeconds offset v ∧ ¬ 86400 ∣ localSeconds offset v + 1

/-- The seconds as they are truncated. -/
theorem tdiv_add_offset : v.tdiv 1000000000 + offset =
    localSeconds offset v + if 0 ≤ v ∨ 1000000000 ∣ v then 0 else 1 := by
  have hlocal : localSeconds offset v = v / 1000000000 + offset :=
    Int.add_mul_ediv_right v offset (by decide)
  rw [hlocal, Math.tdiv_of_pos v (by decide)]
  omega

theorem localDay_eq : localDay offset v = localSeconds offset v / 86400 := by
  rw [localDay, localSeconds, Int.ediv_ediv_of_nonneg (by decide)]
  rfl

/-- The two truncations give the local day exactly then. -/
theorem roundsDown_iff :
    (v.tdiv 1000000000 + offset).tdiv 86400 = localDay offset v ↔ RoundsDown offset v := by
  rw [tdiv_add_offset, localDay_eq, RoundsDown, Math.tdiv_of_pos _ (by decide)]
  generalize localSeconds offset v = seconds
  by_cases hwhole : 0 ≤ v ∨ 1000000000 ∣ v
  · simp only [if_pos hwhole, add_zero]
    omega
  · -- the seconds were rounded up
    simp only [if_neg hwhole]
    omega

end DateTimeBase

end CqlDriver
