import CqlDriver.Column.Calendar

/-!
# Dates and timestamps

A date is stored as the number of its local day, counted from 2^31 on; a timestamp as the
milliseconds since the epoch. Decoding a date multiplies the day by the seconds of a day in
32 bits, encoding divides the local seconds and truncates; decoding a timestamp multiplies
by a million in 64 bits.

## Main definitions

* `Date.encodeBody`, `Date.decodeBody`, `Date.write`
* `Timestamp.encodeBody`, `Timestamp.decodeBody`

## Main results

* `Date.day_roundTrips_iff` — the days that come back
* `Date.encodesLocalDay_iff` — the points in time that are stored under their local day
* `Timestamp.milliseconds_roundTrip_iff` — the milliseconds that come back
-/

namespace CqlDriver

open Math (Fits fits_toInt bigEndian ofBigEndian writeInteger)
open DateTimeBase (fromTimeT toTimeT setTm toTm localDay RoundsDown)

/-! ## Dates -/

namespace Date

abbrev Value := DateTimeBase.Value

def EpochBoundary : BitVec 32 := 0x80000000

def SecondsPerDay : BitVec 32 := 86400

def lengthNotMatched : Failure :=
  .exception (decodeException "date length not matched, expected to be")

/-- Store local date in database, not utc date. -/
def encodeBody (c : CalendarFunctions) (value : Value) (data : Bytes) : Bytes :=
  let localTm := toTm c value
  let localTime := c.timegm localTm
  let dbValue := EpochBoundary + ((localTime.tdiv SecondsPerDay.toInt : Int) : BitVec 32)
  data ++ @IntegerBase.toBytes 4 dbValue

/-- Load local date from database. -/
def ofStored (c : CalendarFunctions) (dbValue : BitVec 32) : Value :=
  let localTime := ((dbValue - EpochBoundary) * SecondsPerDay).toInt
  let localTm := c.gmtime localTime
  setTm c localTm

def decodeBody (c : CalendarFunctions) : Decoder Value Unit :=
  decodeFixed 4 lengthNotMatched DateTimeBase.reset fun body =>
    ofStored c (IntegerBase.ofBytes 4 body)

/-- The date part of broken-down time. -/
def writeTm (stream : OStream) (localTm : Tm) : OStream :=
  let stream := ((stream.setfill '0').setw 4).insert (writeInteger (localTm.year + 1900))
  let stream := ((stream.insert ['-']).setw 2).insert (writeInteger (localTm.mon + 1))
  ((stream.insert ['-']).setw 2).insert (writeInteger localTm.mday)

/-- `operator<<`. -/
def write (c : CalendarFunctions) (stream : OStream) (date : Value) : OStream :=
  writeTm stream (toTm c date)

/-- Whatever the object held, the bytes are written that were read. -/
def RoundTrips (c : CalendarFunctions) (body : Bytes) : Prop :=
  ∀ old, ∃ value left, decodeBody c ⟨old, body⟩ = .ok () ⟨value, left⟩ ∧
    encodeBody c value [] = body

/-- The stored day is the local day, which is also the one that is written as text. -/
structure EncodesLocalDay (c : CalendarFunctions) (offset : Int) (value : Value) : Prop where
  stored : encodeBody c value [] = bigEndian 4 (2 ^ 31 + localDay offset value.toInt).toNat
  printed : ∀ stream, write c stream value =
    writeTm stream (c.gmtime (86400 * localDay offset value.toInt))

variable {c : CalendarFunctions} {offset d : Int} {value : Value}

/-! ### Stored days -/

theorem toBytes_day (h : Fits 32 d) :
    @IntegerBase.toBytes 4 (EpochBoundary + (d : BitVec 32)) = bigEndian 4 (2 ^ 31 + d).toNat := by
  obtain ⟨hge, hlt⟩ := h
  have hcast : (d : BitVec 32).toNat = (d % 2 ^ 32).toNat := BitVec.toNat_ofInt d
  have hepoch : EpochBoundary.toNat = 2 ^ 31 := rfl
  have hday : (EpochBoundary + (d : BitVec 32)).toNat = (2 ^ 31 + d).toNat := by
    rw [BitVec.toNat_add, hcast, hepoch]
    omega
  rw [IntegerBase.toBytes, hday]

/-- Different days are stored differently. -/
theorem stored_eq_iff {day : Int} (hday : Fits 32 day) (hd : Fits 32 d) :
    @IntegerBase.toBytes 4 (EpochBoundary + (day : BitVec 32)) = bigEndian 4 (2 ^ 31 + d).toNat ↔
      day = d := by
  rw [← toBytes_day hd]
  constructor
  · intro hbytes
    have hcast : (day : BitVec 32) = (d : BitVec 32) :=
      (BitVec.add_right_inj _).mp (IntegerBase.toBytes_inj.mp hbytes)
    rw [← Math.toInt_intCast_of_fits (by decide) hday, hcast,
      Math.toInt_intCast_of_fits (by decide) hd]
  · rintro rfl
    rfl

/-- The day of the seconds on local clocks. -/
theorem encodeBody_eq (h : c.FixedOffset offset) : encodeBody c value [] =
    @IntegerBase.toBytes 4
      (EpochBoundary + (((toTimeT value + offset).tdiv 86400 : Int) : BitVec 32)) := by
  have hseconds : SecondsPerDay.toInt = 86400 := rfl
  simp only [encodeBody, DateTimeBase.timegm_toTm h, hseconds, List.nil_append]

/-! ### The round trip -/

/-- The seconds of a day, in 32 bits. -/
theorem ofStored_of_day (h : Fits 32 d) :
    ofStored c (IntegerBase.ofBytes 4 (bigEndian 4 (2 ^ 31 + d).toNat)) =
      setTm c (c.gmtime ((d * 86400).bmod (2 ^ 32))) := by
  have hday : (EpochBoundary + (d : BitVec 32)) - EpochBoundary = (d : BitVec 32) := by
    rw [BitVec.add_comm, BitVec.add_sub_cancel]
  have hproduct : (d : BitVec 32) * SecondsPerDay = ((d * 86400 : Int) : BitVec 32) := by
    push_cast
    rfl
  rw [← toBytes_day h, IntegerBase.ofBytes_toBytes, ofStored]
  simp only [hday, hproduct, Math.toInt_intCast]

/-- The decoder behind a pointer computes the same point in time. -/
theorem toInt_ofStored (h : c.FixedOffset offset) (dbValue : BitVec 32) :
    (ofStored c dbValue).toInt = Pointer.Date.ofStored c.calendar dbValue.toNat := by
  obtain ⟨hge, hlt⟩ := fits_toInt ((dbValue - EpochBoundary) * SecondsPerDay)
  obtain ⟨hoffset, hoffset'⟩ := h.offset_fits
  have hepoch : EpochBoundary = ((0x80000000 : Int) : BitVec 32) := rfl
  have hseconds : SecondsPerDay = ((86400 : Int) : BitVec 32) := rfl
  have hdays : ((dbValue.toNat - 0x80000000 : Int) : BitVec 32) = dbValue - EpochBoundary := by
    rw [hepoch]
    push_cast
    rw [BitVec.natCast_eq_ofNat, BitVec.ofNat_toNat, BitVec.setWidth_eq]
  have hproduct : (((dbValue - EpochBoundary).toInt * 86400 : Int) : BitVec 32) =
      (dbValue - EpochBoundary) * SecondsPerDay := by
    rw [hseconds]
    push_cast
    rw [Math.intCast_toInt]
  rw [Pointer.Date.ofStored]
  simp only [Math.ofSigned_eq_toNat, Math.toSigned_toNat (show 0 < 32 by decide), hdays, hproduct]
  simp only [ofStored]
  rw [setTm, DateTimeBase.calendar_mktime h, Pointer.fromTime, DateTimeBase.mktime_gmtime h,
    DateTimeBase.toInt_fromTimeT ⟨by omega, by omega⟩]

/-- A point in time that was decoded comes back as the seconds on local clocks. -/
theorem toTimeT_setTm (h : c.FixedOffset offset) {t : Int} (ht : Fits 32 t) :
    toTimeT (setTm c (c.gmtime t)) + offset = t := by
  obtain ⟨hge, hlt⟩ := ht
  obtain ⟨hoffset, hoffset'⟩ := h.offset_fits
  rw [setTm, DateTimeBase.mktime_gmtime h, DateTimeBase.toTimeT_fromTimeT ⟨by omega, by omega⟩]
  omega

theorem roundTrips_iff_tdiv (h : c.FixedOffset offset) (hd : Fits 32 d) :
    RoundTrips c (bigEndian 4 (2 ^ 31 + d).toNat) ↔
      ((d * 86400).bmod (2 ^ 32)).tdiv 86400 = d := by
  have hlength : (bigEndian 4 (2 ^ 31 + d).toNat).length = 4 := Math.length_bigEndian 4 _
  have hfits : Fits 32 ((d * 86400).bmod (2 ^ 32)) := Math.fits_bmod _
  have hquotient : Fits 32 (((d * 86400).bmod (2 ^ 32)).tdiv 86400) :=
    Math.fits_tdiv (by decide) hfits
  rw [RoundTrips, decodeBody, DateTimeBase.forall_decodeFixed_iff (by decide) hlength,
    ofStored_of_day hd, encodeBody_eq h, toTimeT_setTm h hfits, stored_eq_iff hquotient hd]

/-- The days whose seconds fit into 32 bits come back. -/
theorem day_roundTrips_iff (h : c.FixedOffset offset) (hd : Fits 32 d) :
    RoundTrips c (bigEndian 4 (2 ^ 31 + d).toNat) ↔ -24855 ≤ d ∧ d ≤ 24855 := by
  rw [roundTrips_iff_tdiv h hd, Math.bmod_tdiv_eq_iff (by decide) (by decide), Fits]
  omega

/-- The first of January 2021, nine hours ahead of utc. -/
theorem day_roundTrips_2021 :
    RoundTrips (gregorian 32400) (bigEndian 4 ((2 ^ 31 + 18628 : Int)).toNat) :=
  (day_roundTrips_iff (gregorian_fixedOffset (by decide)) (by decide)).mpr (by decide)

/-- The 20th of January 2038 is decoded as a day of 1901. -/
theorem not_roundTrips_2038 : Fits 64 (24856 * 86400 * 1000000000) ∧
    ¬ RoundTrips (gregorian 0) (bigEndian 4 ((2 ^ 31 + 24856 : Int)).toNat) := by
  refine ⟨by decide, ?_⟩
  rw [roundTrips_iff_tdiv (gregorian_fixedOffset (by decide)) (by decide)]
  decide

/-! ### The local day -/

theorem stored_iff (h : c.FixedOffset offset) (value : Value) :
    encodeBody c value [] = bigEndian 4 (2 ^ 31 + localDay offset value.toInt).toNat ↔
      RoundsDown offset value.toInt := by
  obtain ⟨hge, hlt⟩ := fits_toInt value
  obtain ⟨hoffset, hoffset'⟩ := h.offset_fits
  have hseconds : toTimeT value + offset = value.toInt.tdiv 1000000000 + offset := rfl
  have hday : Fits 32 (localDay offset value.toInt) := by
    rw [localDay, DateTimeBase.localTime]
    constructor <;> omega
  have htruncated : Fits 32 ((value.toInt.tdiv 1000000000 + offset).tdiv 86400) := by
    rw [Math.tdiv_of_pos _ (by decide), DateTimeBase.tdiv_add_offset, DateTimeBase.localSeconds,
      DateTimeBase.localTime]
    constructor <;> omega
  rw [encodeBody_eq h, hseconds, stored_eq_iff htruncated hday, DateTimeBase.roundsDown_iff]

/-- The text is that of any second of the day. -/
theorem write_eq (h : c.FixedOffset offset) {t : Int}
    (hday : (toTimeT value + offset) / 86400 = t / 86400) (stream : OStream) :
    write c stream value = writeTm stream (c.gmtime t) := by
  obtain ⟨hyear, hmon, hmday⟩ := h.gmtime_date _ _ hday
  rw [write, toTm, h.localtime_eq, writeTm, writeTm, hyear, hmon, hmday]

/-- A point in time is stored under its local day exactly when both truncations round down. -/
theorem encodesLocalDay_iff (h : c.FixedOffset offset) (value : Value) :
    EncodesLocalDay c offset value ↔ RoundsDown offset value.toInt := by
  rw [← stored_iff h]
  refine ⟨EncodesLocalDay.stored, fun hstored => ⟨hstored, write_eq h ?_⟩⟩
  have hrounds := (stored_iff h value).mp hstored
  have hseconds : toTimeT value + offset = value.toInt.tdiv 1000000000 + offset := rfl
  rw [hseconds, DateTimeBase.tdiv_add_offset, DateTimeBase.localDay_eq]
  rw [RoundsDown] at hrounds
  split at hrounds
  · next hwhole =>
    rw [if_pos hwhole]
    omega
  · next hwhole =>
    rw [if_neg hwhole]
    omega

/-- A nanosecond after midnight in 2021, nine hours ahead of utc. -/
theorem encodesLocalDay_2021 :
    EncodesLocalDay (gregorian 32400) 32400 (BitVec.ofInt 64 1609426800000000001) :=
  (encodesLocalDay_iff (gregorian_fixedOffset (by decide)) _).mpr (by rw [RoundsDown]; decide)

/-- The last second of 1969 is stored as the first day of 1970. -/
theorem not_encodesLocalDay_1969 :
    encodeBody (gregorian 0) (BitVec.ofInt 64 (-1000000000)) [] = [0x80, 0x00, 0x00, 0x00] ∧
      localDay 0 (-1000000000) = -1 ∧
      ¬ EncodesLocalDay (gregorian 0) 0 (BitVec.ofInt 64 (-1000000000)) := by
  refine ⟨by decide, by decide, fun hencodes => ?_⟩
  have hstored := (stored_iff (gregorian_fixedOffset (by decide)) _).mp hencodes.stored
  rw [RoundsDown] at hstored
  exact absurd hstored (by decide)

end Date

/-! ## Timestamps -/

namespace Timestamp

abbrev Value := DateTimeBase.Value

def lengthNotMatched : Failure :=
  .exception (decodeException "timestamp length not matched, expected to be")

/-- Set the duration since the epoch; the milliseconds are converted to nanoseconds. -/
def setMilliseconds (duration : BitVec 64) : Value := fromTimeT 0 + duration * 1000000

/-- The total milliseconds since the epoch. -/
def milliseconds (value : Value) : BitVec 64 := ((value.toInt.tdiv 1000000 : Int) : BitVec 64)

def encodeBody (value : Value) (data : Bytes) : Bytes :=
  data ++ @IntegerBase.toBytes 8 (milliseconds value)

def decodeBody : Decoder Value Unit :=
  decodeFixed 8 lengthNotMatched DateTimeBase.reset fun body =>
    setMilliseconds (IntegerBase.ofBytes 8 body)

/-- An exception, or the bytes are written that were read. -/
def RoundTripsOrThrows (body : Bytes) : Prop :=
  ∀ old, (∃ failure left, decodeBody ⟨old, body⟩ = .error failure left) ∨
    ∃ value left, decodeBody ⟨old, body⟩ = .ok () ⟨value, left⟩ ∧ encodeBody value [] = body

/-- The product wraps, here and in the decoder behind a pointer. -/
theorem setMilliseconds_eq (dbValue : BitVec 64) :
    setMilliseconds dbValue = ((dbValue.toInt * 1000000 : Int) : BitVec 64) := by
  push_cast
  rw [Math.intCast_toInt, setMilliseconds, fromTimeT, Int.zero_mul, Int.cast_zero]
  exact BitVec.zero_add _

theorem toInt_setMilliseconds (dbValue : BitVec 64) :
    (setMilliseconds dbValue).toInt = Pointer.Timestamp.ofStored dbValue.toNat := by
  rw [Pointer.Timestamp.ofStored, Math.toSigned_toNat (by decide), Math.ofSigned_eq_toNat,
    Math.toSigned_toNat (by decide), setMilliseconds_eq]

theorem milliseconds_setMilliseconds (dbValue : BitVec 64) :
    milliseconds (setMilliseconds dbValue) = dbValue ↔
      ((dbValue.toInt * 1000000).bmod (2 ^ 64)).tdiv 1000000 = dbValue.toInt := by
  have hquotient : Fits 64 (((dbValue.toInt * 1000000).bmod (2 ^ 64)).tdiv 1000000) :=
    Math.fits_tdiv (by decide) (Math.fits_bmod _)
  rw [milliseconds, setMilliseconds_eq, Math.toInt_intCast, ← BitVec.toInt_inj,
    Math.toInt_intCast_of_fits (by decide) hquotient]

/-- Eight bytes are never refused. -/
theorem roundTripsOrThrows_iff {body : Bytes} (h : body.length = 8) : RoundTripsOrThrows body ↔
    encodeBody (setMilliseconds (IntegerBase.ofBytes 8 body)) [] = body := by
  rw [← @DateTimeBase.forall_decodeFixed_iff 8 lengthNotMatched DateTimeBase.reset
    (fun body => setMilliseconds (IntegerBase.ofBytes 8 body)) body (by decide) h
    (fun value => encodeBody value [] = body)]
  constructor
  · intro hround old
    rcases hround old with ⟨failure, left, hthrow⟩ | hdecodes
    · rw [decodeBody, decodeFixed_of_length (by decide) h] at hthrow
      cases hthrow
    · exact hdecodes
  · exact fun hround old => Or.inr (hround old)

theorem roundTripsOrThrows_iff_tdiv (dbValue : BitVec 64) :
    RoundTripsOrThrows (@IntegerBase.toBytes 8 dbValue) ↔
      ((dbValue.toInt * 1000000).bmod (2 ^ 64)).tdiv 1000000 = dbValue.toInt := by
  rw [roundTripsOrThrows_iff (IntegerBase.length_toBytes _), encodeBody, List.nil_append,
    IntegerBase.toBytes_inj, IntegerBase.ofBytes_toBytes, milliseconds_setMilliseconds]

/-- The milliseconds whose nanoseconds fit into 64 bits come back. -/
theorem milliseconds_roundTrip_iff (dbValue : BitVec 64) :
    RoundTripsOrThrows (@IntegerBase.toBytes 8 dbValue) ↔
      -9223372036854 ≤ dbValue.toInt ∧ dbValue.toInt ≤ 9223372036854 := by
  rw [roundTripsOrThrows_iff_tdiv, Math.bmod_tdiv_eq_iff (by decide) (by decide), Fits]
  omega

/-- The end of the year 9999, a date that stands for the far future. -/
theorem not_roundTripsOrThrows_9999 :
    ¬ RoundTripsOrThrows (@IntegerBase.toBytes 8 253402300799999) := by
  rw [roundTripsOrThrows_iff_tdiv]
  decide

end Timestamp

end CqlDriver
