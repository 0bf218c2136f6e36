import CqlDriver.Column.DateTime

/-!
# Times of day

A time is stored as the nanoseconds since local midnight, but held as a point in time, with a
date. A duration and a stored time are put on 1970-01-01, the fields given to `create` on
1970-02-01, and a point in time keeps its date. Comparisons are those of the points in time.

Remainders of negative numbers are negative or zero, and the sum is unsigned.

## Main definitions

* `Time.encodeBody`, `Time.decodeBody`, `Time.create`
* `Time.Load` — the ways in which a time is loaded
* `Time.ComparesAsStored` — times that are stored, compared and read back as times of day
* `Time.Load.Safe` — the inputs that are

## Main results

* `Time.encodes_iff` — when the nanoseconds since midnight are stored
* `Time.loads_compareAsStored_iff` — what may be loaded
-/

namespace CqlDriver.Time

open Math (Fits fits_toInt bigEndian ofBigEndian)
open DateTimeBase (fromTimeT toTimeT setTm toTm localTime localSeconds localDay RoundsDown)

abbrev Value := DateTimeBase.Value

def lengthNotMatched : Failure :=
  .exception (decodeException "time length not matched, expected to be")

/-- Set duration since midnight of this day, in local timezone. -/
def setNanoseconds (c : CalendarFunctions) (nanoSeconds : BitVec 64) : Value :=
  let localTime := nanoSeconds.toInt.tdiv 1000000000
  let localTm := c.gmtime localTime
  setTm c localTm + ((nanoSeconds.toInt.tmod 1000000000 : Int) : BitVec 64)

def reset (c : CalendarFunctions) : Value := setNanoseconds c 0

/-- Total nanoseconds since midnight of this day, in local timezone. -/
def nanoseconds (c : CalendarFunctions) (value : Value) : BitVec 64 :=
  let localTm := toTm c value
  let localTime := c.timegm localTm
  ((localTime.tmod 86400 * 1000000000 : Int) : BitVec 64) +
    ((value.toInt.tmod 1000000000 : Int) : BitVec 64)

/-- Store local time in database, not utc time. -/
def encodeBody (c : CalendarFunctions) (value : Value) (data : Bytes) : Bytes :=
  data ++ @IntegerBase.toBytes 8 (nanoseconds c value)

/-- Load local time from database. -/
def decodeBody (c : CalendarFunctions) : Decoder Value Unit :=
  decodeFixed 8 lengthNotMatched (reset c) fun body =>
    setNanoseconds c (IntegerBase.ofBytes 8 body)

/-- Create a time with hour, minute and second. -/
def create (c : CalendarFunctions) (hour minute second : UInt8) : Value :=
  setTm c
    { sec := second.toNat, min := minute.toNat, hour := hour.toNat, mday := 1, mon := 1, year := 70 }

/-- `operator==` of the points in time. -/
def eq (a b : Value) : Bool := a == b

/-! ## What is loaded -/

/-- The ways to load a time. The time of now is a point in time. -/
inductive Load
  | timePoint (utcTimePoint : BitVec 64)
  | timeT (utcTime : Int)
  | tm (localTm : Tm)
  | duration (nanoSeconds : BitVec 64)
  | create (hour minute second : UInt8)
  | body (stored : BitVec 64)
  | reset

/-- The point in time that is held. -/
def Load.value (c : CalendarFunctions) : Load → Value
  | timePoint utcTimePoint => utcTimePoint
  | timeT utcTime => fromTimeT utcTime
  | tm localTm => setTm c localTm
  | duration nanoSeconds => setNanoseconds c nanoSeconds
  | create hour minute second => Time.create c hour minute second
  | body stored => setNanoseconds c stored
  | reset => Time.reset c

/-- The nanoseconds since local midnight. -/
def sinceMidnight (offset v : Int) : Int := localTime offset v % 86400000000000

theorem sinceMidnight_range (offset v : Int) :
    0 ≤ sinceMidnight offset v ∧ sinceMidnight offset v ≤ 86399999999999 := by
  rw [sinceMidnight]
  omega

/-- The nanoseconds since midnight are stored. -/
def Encodes (c : CalendarFunctions) (offset : Int) (value : Value) : Prop :=
  encodeBody c value [] = bigEndian 8 (sinceMidnight offset value.toInt).toNat

/-- What was encoded is decoded as an equal time. -/
def ComesBack (c : CalendarFunctions) (value : Value) : Prop :=
  ∀ old, ∃ decoded left, decodeBody c ⟨old, encodeBody c value []⟩ = .ok () ⟨decoded, left⟩ ∧
    eq decoded value = true

/-- Two times that are stored as times of day, are equal when their bodies are, and come back. -/
structure ComparesAsStored (c : CalendarFunctions) (offset : Int) (a b : Value) : Prop where
  encodes_left : Encodes c offset a
  encodes_right : Encodes c offset b
  eq_iff : eq a b = true ↔ encodeBody c a [] = encodeBody c b []
  comesBack_left : ComesBack c a
  comesBack_right : ComesBack c b

/-- A point in time on the local day 1970-01-01. Before the epoch in utc, and within a second,
it is not in the last second of that day either. -/
def HeldSafely (offset v : Int) : Prop :=
  0 ≤ localTime offset v ∧ localTime offset v < 86400000000000 ∧
    (0 ≤ v ∨ 1000000000 ∣ v ∨ localTime offset v < 86399000000000)

/-- The inputs that are held so. A duration and a stored time are counted on local clocks. -/
def Load.Safe (c : CalendarFunctions) (offset : Int) : Load → Prop
  | timePoint utcTimePoint => HeldSafely offset utcTimePoint.toInt
  | timeT utcTime => HeldSafely offset ((utcTime * 1000000000).bmod (2 ^ 64))
  | tm localTm => HeldSafely offset ((c.mktime localTm * 1000000000).bmod (2 ^ 64))
  | duration nanoSeconds | body nanoSeconds =>
    HeldSafely offset (nanoSeconds.toInt - offset * 1000000000)
  | create _ _ _ => False
  | reset => True

variable {c : CalendarFunctions} {offset v : Int} {a b value : Value}

/-! ## Encoding -/

/-- The sum of the two remainders, which is the local time less the days that were truncated. -/
theorem nanoseconds_eq (h : c.FixedOffset offset) (value : Value) :
    nanoseconds c value = ((localTime offset value.toInt -
      86400000000000 * (value.toInt.tdiv 1000000000 + offset).tdiv 86400 : Int) : BitVec 64) := by
  have hseconds : toTimeT value = value.toInt.tdiv 1000000000 := rfl
  rw [nanoseconds]
  simp only [DateTimeBase.timegm_toTm h, hseconds]
  rw [← Int.cast_add, Int.tmod_def, Int.tmod_def, localTime]
  congr 1
  omega

theorem toBytes_of_nonneg {n : Int} (hge : 0 ≤ n) (hlt : n < 2 ^ 64) :
    @IntegerBase.toBytes 8 ((n : Int) : BitVec 64) = bigEndian 8 n.toNat := by
  have hcast : ((n : Int) : BitVec 64).toNat = (n % 2 ^ 64).toNat := BitVec.toNat_ofInt n
  rw [IntegerBase.toBytes, hcast, Int.emod_eq_of_lt hge hlt]

/-- The nanoseconds since midnight are stored when both truncations round down. -/
theorem encodes_iff (h : c.FixedOffset offset) (value : Value) :
    Encodes c offset value ↔ RoundsDown offset value.toInt := by
  obtain ⟨hrange, hrange'⟩ := sinceMidnight_range offset value.toInt
  obtain ⟨hge, hlt⟩ := fits_toInt value
  have hday := @DateTimeBase.tdiv_add_offset offset value.toInt
  have htruncated := @Math.tdiv_of_pos (value.toInt.tdiv 1000000000 + offset) 86400 (by decide)
  have hseconds : localSeconds offset value.toInt = localTime offset value.toInt / 1000000000 := rfl
  have hlocal : localDay offset value.toInt = localTime offset value.toInt / 86400000000000 := rfl
  have hsince : sinceMidnight offset value.toInt = localTime offset value.toInt % 86400000000000 :=
    rfl
  have hstored : Fits 64 (localTime offset value.toInt -
      86400000000000 * (value.toInt.tdiv 1000000000 + offset).tdiv 86400) := by
    constructor <;> omega
  rw [Encodes, encodeBody, List.nil_append, nanoseconds_eq h,
    ← toBytes_of_nonneg hrange (by omega), IntegerBase.toBytes_inj, ← BitVec.toInt_inj,
    Math.toInt_intCast_of_fits (by decide) hstored,
    Math.toInt_intCast_of_fits (by decide) ⟨by omega, by omega⟩, ← DateTimeBase.roundsDown_iff]
  omega

/-! ## Decoding -/

theorem setNanoseconds_eq (h : c.FixedOffset offset) (nanoSeconds : BitVec 64) :
    setNanoseconds c nanoSeconds =
      ((nanoSeconds.toInt - offset * 1000000000 : Int) : BitVec 64) := by
  rw [setNanoseconds]
  simp only [setTm, fromTimeT, DateTimeBase.mktime_gmtime h]
  rw [← Int.cast_add, Int.tmod_def]
  congr 1
  omega

/-- The decoder behind a pointer computes the same point in time, before it wraps. -/
theorem setNanoseconds_eq_ofDuration (c : CalendarFunctions) (nanoSeconds : BitVec 64) :
    setNanoseconds c nanoSeconds =
      ((Pointer.Time.ofDuration c.calendar nanoSeconds.toInt : Int) : BitVec 64) := by
  rw [Pointer.Time.ofDuration, Pointer.fromTime, Int.cast_add]
  rfl

/-- Whatever is decoded was loaded from eight bytes, or from none. -/
theorem loaded_of_decodeBody {body left : Bytes} {old : Value}
    (hdecode : decodeBody c ⟨old, body⟩ = .ok () ⟨value, left⟩) :
    value = Load.value c .reset ∨
      ∃ stored, body = @IntegerBase.toBytes 8 stored ∧ value = Load.value c (.body stored) := by
  rcases DateTimeBase.eq_of_decodeFixed hdecode with ⟨-, hvalue⟩ | ⟨hlength, hvalue⟩
  · exact Or.inl hvalue
  · exact Or.inr ⟨_, (IntegerBase.toBytes_ofBytes hlength).symm, hvalue⟩

/-- The point in time that is decoded decides. -/
theorem comesBack_iff_eq {stored : BitVec 64}
    (hencode : encodeBody c value [] = @IntegerBase.toBytes 8 stored) :
    ComesBack c value ↔ setNanoseconds c stored = value := by
  have hlength : (@IntegerBase.toBytes 8 stored).length = 8 := IntegerBase.length_toBytes _
  have hvalue : IntegerBase.ofBytes 8 (@IntegerBase.toBytes 8 stored) = stored :=
    IntegerBase.ofBytes_toBytes _
  rw [ComesBack, hencode, decodeBody, DateTimeBase.forall_decodeFixed_iff (by decide) hlength, hvalue]
  exact beq_iff_eq

/-- A time that is stored right comes back on 1970-01-01. -/
theorem comesBack_iff (h : c.FixedOffset offset) (hencodes : Encodes c offset value) :
    ComesBack c value ↔
      0 ≤ localTime offset value.toInt ∧ localTime offset value.toInt < 86400000000000 := by
  obtain ⟨hrange, hrange'⟩ := sinceMidnight_range offset value.toInt
  obtain ⟨hoffset, hoffset'⟩ := h.offset_fits
  rw [Encodes, ← toBytes_of_nonneg hrange (by omega)] at hencodes
  rw [comesBack_iff_eq hencodes, setNanoseconds_eq h,
    Math.toInt_intCast_of_fits (by decide) ⟨by omega, by omega⟩, ← BitVec.toInt_inj,
    Math.toInt_intCast_of_fits (by decide) ⟨by omega, by omega⟩, sinceMidnight, localTime]
  omega

/-- The bodies of times that are stored right tell their nanoseconds. -/
theorem sinceMidnight_of_encodeBody (ha : Encodes c offset a) (hb : Encodes c offset b)
    (hbodies : encodeBody c a [] = encodeBody c b []) :
    sinceMidnight offset a.toInt = sinceMidnight offset b.toInt := by
  obtain ⟨hge, hle⟩ := sinceMidnight_range offset a.toInt
  obtain ⟨hge', hle'⟩ := sinceMidnight_range offset b.toInt
  rw [ha, hb] at hbodies
  have hnumbers := congrArg ofBigEndian hbodies
  rw [Math.ofBigEndian_bigEndian (by omega), Math.ofBigEndian_bigEndian (by omega)] at hnumbers
  omega

/-! ## Times that are held safely -/

theorem heldSafely_iff : HeldSafely offset v ↔
    RoundsDown offset v ∧ 0 ≤ localTime offset v ∧ localTime offset v < 86400000000000 := by
  have hseconds : localSeconds offset v = localTime offset v / 1000000000 := rfl
  rw [HeldSafely, RoundsDown, hseconds]
  by_cases hwhole : 0 ≤ v ∨ 1000000000 ∣ v
  · rw [if_pos hwhole]
    omega
  · rw [if_neg hwhole]
    omega

theorem comparesAsStored_iff (h : c.FixedOffset offset) (a b : Value) :
    ComparesAsStored c offset a b ↔ HeldSafely offset a.toInt ∧ HeldSafely offset b.toInt := by
  rw [heldSafely_iff, heldSafely_iff, ← encodes_iff h, ← encodes_iff h]
  constructor
  · intro hcompares
    exact ⟨⟨hcompares.encodes_left, (comesBack_iff h hcompares.encodes_left).mp hcompares.comesBack_left⟩,
      ⟨hcompares.encodes_right,
        (comesBack_iff h hcompares.encodes_right).mp hcompares.comesBack_right⟩⟩
  · rintro ⟨⟨hleft, hday⟩, hright, hday'⟩
    refine ⟨hleft, hright, ?_, (comesBack_iff h hleft).mpr hday, (comesBack_iff h hright).mpr hday'⟩
    rw [eq, beq_iff_eq]
    constructor
    · rintro rfl
      rfl
    · -- on one day the nanoseconds since midnight tell points in time apart
      intro hbodies
      have hsame := sinceMidnight_of_encodeBody hleft hright hbodies
      rw [sinceMidnight, sinceMidnight, localTime, localTime] at hsame
      rw [localTime] at hday hday'
      rw [← BitVec.toInt_inj]
      omega

/-! ## What may be loaded -/

/-- A duration that wraps is on no day that is near. -/
theorem heldSafely_setNanoseconds (h : c.FixedOffset offset) (nanoSeconds : BitVec 64) :
    HeldSafely offset (setNanoseconds c nanoSeconds).toInt ↔
      HeldSafely offset (nanoSeconds.toInt - offset * 1000000000) := by
  obtain ⟨hge, hlt⟩ := fits_toInt nanoSeconds
  obtain ⟨hoffset, hoffset'⟩ := h.offset_fits
  rw [setNanoseconds_eq h]
  by_cases hfits : Fits 64 (nanoSeconds.toInt - offset * 1000000000)
  · rw [Math.toInt_intCast_of_fits (by decide) hfits]
  · rw [Math.toInt_intCast, HeldSafely, HeldSafely, localTime, localTime, Int.bmod_def]
    rw [Fits] at hfits
    constructor <;> omega

theorem heldSafely_reset (h : c.FixedOffset offset) : HeldSafely offset (Time.reset c).toInt := by
  have hzero : (0 : BitVec 64).toInt = 0 := rfl
  rw [Time.reset, heldSafely_setNanoseconds h, hzero, HeldSafely, localTime]
  omega

/-- The first of February. -/
theorem not_heldSafely_create (h : c.FixedOffset offset) (hour minute second : UInt8) :
    ¬ HeldSafely offset (Time.create c hour minute second).toInt := by
  obtain ⟨hoffset, hoffset'⟩ := h.offset_fits
  have hhour := hour.toNat_lt
  have hminute := minute.toNat_lt
  have hsecond := second.toNat_lt
  rw [Time.create, setTm, h.mktime_eq, h.timegm_clock, h.timegm_february,
    DateTimeBase.toInt_fromTimeT ⟨by dsimp only; omega, by dsimp only; omega⟩, HeldSafely, localTime]
  dsimp only
  omega

/-- The inputs that are safe are those whose points in time are held safely. -/
theorem Load.safe_iff (h : c.FixedOffset offset) (load : Load) :
    load.Safe c offset ↔ HeldSafely offset (load.value c).toInt := by
  cases load with
  | timePoint utcTimePoint => exact Iff.rfl
  | timeT utcTime => rw [Safe, value, fromTimeT, Math.toInt_intCast]
  | tm localTm => rw [Safe, value, setTm, fromTimeT, Math.toInt_intCast]
  | duration nanoSeconds | body nanoSeconds =>
    rw [Safe, value, heldSafely_setNanoseconds h]
  | create hour minute second => exact iff_of_false id (not_heldSafely_create h hour minute second)
  | reset => exact iff_of_true trivial (heldSafely_reset h)

/-- Two times are stored, compared and read back as times of day exactly when they were
loaded from safe inputs. -/
theorem loads_compareAsStored_iff (h : c.FixedOffset offset) (x y : Load) :
    ComparesAsStored c offset (x.value c) (y.value c) ↔ x.Safe c offset ∧ y.Safe c offset := by
  rw [Load.safe_iff h, Load.safe_iff h]
  exact comparesAsStored_iff h _ _

/-- A duration and a stored time, nine hours ahead of utc. -/
theorem loads_compareAsStored_morning : ComparesAsStored (gregorian 32400) 32400
    ((Load.duration 3723000000001).value (gregorian 32400))
    ((Load.body 86399999999999).value (gregorian 32400)) := by
  refine (loads_compareAsStored_iff (gregorian_fixedOffset (by decide)) _ _).mpr ⟨?_, ?_⟩
  · rw [Load.Safe, HeldSafely]
    decide
  · rw [Load.Safe, HeldSafely]
    decide

/-- 01:02:03 as it is created is not equal to what is read back. -/
theorem not_comparesAsStored_create :
    encodeBody (gregorian 0) (create (gregorian 0) 1 2 3) [] =
        [0x00, 0x00, 0x03, 0x62, 0xd4, 0x17, 0xae, 0x00] ∧
      eq (setNanoseconds (gregorian 0) 3723000000000) (create (gregorian 0) 1 2 3) = false ∧
      ¬ ComparesAsStored (gregorian 0) 0 (create (gregorian 0) 1 2 3)
        (create (gregorian 0) 1 2 3) := by
  have hutc := @gregorian_fixedOffset 0 (by decide)
  refine ⟨by decide, by decide, fun hcompares => ?_⟩
  exact not_heldSafely_create hutc 1 2 3 ((comparesAsStored_iff hutc _ _).mp hcompares).1

end CqlDriver.Time
