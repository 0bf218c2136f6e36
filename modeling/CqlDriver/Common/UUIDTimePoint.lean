import Mathlib.Tactic.Linarith
import CqlDriver.Common.TimeUUID

/-!
# The time point of a time UUID

A timestamp is put together from milliseconds, which are counted towards zero, and from a rest
of the count of nanoseconds, which is divided as an unsigned number. From 1970 on both parts
belong together. Before 1970 the milliseconds are rounded up, and 2^64 is no multiple of
a millisecond, so the rest is off as well. On the way back a timestamp before 1970
is divided as an unsigned number too.

## Main definitions

* `getVersionFromUUID`, `getTimeFromUUID` — what is read off a UUID
* `makeMinTimeUUID`, `makeMaxTimeUUID` — the bounds for a search
* `TimePointAgrees` — a time point and the UUIDs with its timestamp belong together

## Main results

* `timePointAgrees_iff` — exactly the time points that are not before 1970
-/

namespace CqlDriver

def TimeUUIDVersion : UInt8 := 1

/-- Convert a time stamp of UUID 1 to a time point. -/
def fromTimeUUIDTimestamp (timeStamp : UInt64) : Int64 :=
  -- the counts of both durations are signed, the quotients before are not
  ((timeStamp - EpochSinceUUID1TimestampBase) / 10000).toInt64 * 1000000 +
    (timeStamp % 10000 * 100).toInt64

/-- Make a minimum version 1 UUID of the specific time point, useful for search query. -/
def makeMinTimeUUID (timePoint : Int64) : UUIDDataType :=
  makeTimeUUID (toTimeUUIDTimestamp timePoint) 0 0

/-- Make a maximum version 1 UUID of the specific time point, useful for search query. -/
def makeMaxTimeUUID (timePoint : Int64) : UUIDDataType :=
  makeTimeUUID (toTimeUUIDTimestamp timePoint) MaxClockId 0xffffffffffffffff

def getVersionFromUUID (uuid : UUIDDataType) : UInt8 :=
  ((uuid.1 &&& 0x000000000000f000) >>> 12).toUInt8

/-- Extract the time stamp from a version 1 UUID. -/
def getTimeFromUUID (uuid : UUIDDataType) : Except Exception Int64 :=
  if getVersionFromUUID uuid ≠ TimeUUIDVersion then
    -- version 2 is unsupported yet
    .error ⟨.format, "get time from uuid failed: version should be 1, uuid is"⟩
  else
    .ok (fromTimeUUIDTimestamp ((uuid.1 &&& 0xffffffff00000000) >>> 32 |||
      (uuid.1 &&& 0x00000000ffff0000) <<< 16 ||| (uuid.1 &&& 0x0000000000000fff) <<< 48))

/-- `operator<` of the pairs. -/
def uuidLess (a b : UUIDDataType) : Prop := a.1 < b.1 ∨ ¬ b.1 < a.1 ∧ a.2 < b.2

/-- What holds of a time point and a UUID with its timestamp. -/
structure TimePointAgrees (timePoint : Int64) (clockId : UInt32) (nodeId : UInt64) : Prop where
  version : getVersionFromUUID (makeTimeUUID (toTimeUUIDTimestamp timePoint) clockId nodeId) =
    TimeUUIDVersion
  /-- The time point is rounded down to 100 nanoseconds. -/
  time : ∃ time, getTimeFromUUID (makeTimeUUID (toTimeUUIDTimestamp timePoint) clockId nodeId) =
    .ok time ∧ time.toInt = timePoint.toInt / 100 * 100
  min : ¬ uuidLess (makeTimeUUID (toTimeUUIDTimestamp timePoint) clockId nodeId)
    (makeMinTimeUUID timePoint)
  max : ¬ uuidLess (makeMaxTimeUUID timePoint)
    (makeTimeUUID (toTimeUUIDTimestamp timePoint) clockId nodeId)
  monotone : ∀ later : Int64, timePoint.toInt / 100 ≤ later.toInt / 100 →
    toTimeUUIDTimestamp timePoint ≤ toTimeUUIDTimestamp later

/-! ## The layout -/

section Layout

variable (timeStamp : UInt64) (clockId : UInt32) (nodeId : UInt64)

theorem getVersionFromUUID_makeTimeUUID :
    getVersionFromUUID (makeTimeUUID timeStamp clockId nodeId) = TimeUUIDVersion := by
  have hmask : (0xf000 : Nat) = (2 ^ 4 - 1) <<< 12 := by decide
  have hfield : ((makeTimeUUID timeStamp clockId nodeId).1.toNat &&& 0xf000) >>> 12 = 2 ^ 0 := by
    refine Nat.eq_of_testBit_eq fun i => ?_
    rw [hmask]
    simp only [Nat.testBit_shiftRight, Nat.testBit_and, Nat.testBit_shiftLeft,
      Nat.testBit_two_pow_sub_one, testBit_makeTimeUUID_fst, Nat.testBit_two_pow]
    grind
  rw [← UInt8.toNat_inj, getVersionFromUUID, UInt64.toNat_toUInt8, UInt64.toNat_shiftRight,
    UInt64.toNat_and]
  exact congrArg (· % 2 ^ 8) hfield

/-- The fields are gathered again. -/
theorem getTimeFromUUID_makeTimeUUID (h : timeStamp.toNat < 2 ^ 60) :
    getTimeFromUUID (makeTimeUUID timeStamp clockId nodeId) =
      .ok (fromTimeUUIDTimestamp timeStamp) := by
  have hlow : (0xffffffff00000000 : Nat) = (2 ^ 32 - 1) <<< 32 := by decide
  have hmiddle : (0xffff0000 : Nat) = (2 ^ 16 - 1) <<< 16 := by decide
  have hhigh : (0xfff : Nat) = 2 ^ 12 - 1 := by decide
  rw [getTimeFromUUID, if_neg (not_not.mpr (getVersionFromUUID_makeTimeUUID ..))]
  refine congrArg (fun gathered => Except.ok (fromTimeUUIDTimestamp gathered)) ?_
  refine UInt64.toNat_inj.mp (Nat.eq_of_testBit_eq fun i => ?_)
  simp only [UInt64.toNat_or, UInt64.toNat_and, UInt64.toNat_shiftLeft,
    UInt64.toNat_shiftRight, UInt64.reduceToNat, Nat.testBit_or, Nat.testBit_mod_two_pow,
    Nat.testBit_shiftLeft, Nat.testBit_shiftRight, Nat.testBit_and, Nat.reduceMod]
  simp only [hlow, hmiddle, hhigh, Nat.testBit_shiftLeft, Nat.testBit_two_pow_sub_one,
    Nat.add_comm 32 i]
  -- one field for each range of bits, and nothing above them
  rcases Nat.lt_or_ge i 32 with hin | hge
  · have hnot : ¬ 48 ≤ i := by omega
    have hnot' : ¬ 16 ≤ i - 16 := by omega
    simp [testBit_low timeStamp clockId nodeId hin, hin, hnot, hnot']
  rcases Nat.lt_or_ge i 48 with hin | hge'
  · have hnot : ¬ i < 32 := by omega
    have hsecond : 16 ≤ i - 16 ∧ i - 16 - 16 < 16 ∧ 16 ≤ i ∧ i < 64 := by omega
    simp [testBit_middle timeStamp clockId nodeId hge hin, hin, hnot, hsecond]
  rcases Nat.lt_or_ge i 60 with hin | hbeyond
  · have hnot : ¬ i < 32 := by omega
    have hnot' : ¬ i - 16 - 16 < 16 := by omega
    have hthird : i - 48 < 12 ∧ i < 64 := by omega
    simp [testBit_high timeStamp clockId nodeId hge' hin, hge', hnot, hnot', hthird]
  · have hpow : 2 ^ 60 ≤ 2 ^ i := Nat.pow_le_pow_right (by decide) hbeyond
    have hnone := Nat.testBit_lt_two_pow (h.trans_le hpow)
    have hnot : ¬ i < 32 := by omega
    have hnot' : ¬ i - 16 - 16 < 16 := by omega
    have hnot'' : ¬ i - 48 < 12 := by omega
    simp [hnone, hnot, hnot', hnot'']

/-- The second halves lie between those of the bounds. -/
theorem makeTimeUUID_snd_bounds :
    (0x8000000000000000 : UInt64) ≤ (makeTimeUUID timeStamp clockId nodeId).2 ∧
      (makeTimeUUID timeStamp clockId nodeId).2 ≤ 0xbfffffffffffffff := by
  have hclock : (clockId.toNat &&& 0x3fff) <<< 48 < 2 ^ 62 := by
    have hle : clockId.toNat &&& 0x3fff ≤ 0x3fff := Nat.and_le_right
    rw [Nat.shiftLeft_eq]
    omega
  have hnode : nodeId.toNat &&& 0xffffffffffff < 2 ^ 62 :=
    Nat.lt_of_le_of_lt Nat.and_le_right (by decide)
  have hfields := Nat.or_lt_two_pow hclock hnode
  have hsum : (makeTimeUUID timeStamp clockId nodeId).2.toNat =
      2 ^ 63 + ((clockId.toNat &&& 0x3fff) <<< 48 ||| nodeId.toNat &&& 0xffffffffffff) := by
    have hwhole : (clockId.toNat &&& 0x3fff) <<< 48 % 2 ^ 64 = (clockId.toNat &&& 0x3fff) <<< 48 :=
      Nat.mod_eq_of_lt (hclock.trans (by decide))
    simp only [makeTimeUUID, UInt64.toNat_or, UInt64.toNat_and, UInt64.toNat_shiftLeft,
      UInt32.toNat_toUInt64, UInt64.reduceToNat, Nat.reduceMod, hwhole, Nat.or_assoc]
    have hvariant := Nat.two_pow_add_eq_or_of_lt (hfields.trans (by decide : 2 ^ 62 < 2 ^ 63)) 1
    rw [Nat.mul_one] at hvariant
    exact hvariant.symm
  rw [UInt64.le_iff_toNat_le, UInt64.le_iff_toNat_le, hsum]
  simp only [UInt64.reduceToNat]
  omega

end Layout

theorem makeMinTimeUUID_snd (timePoint : Int64) :
    (makeMinTimeUUID timePoint).2 = 0x8000000000000000 := by
  simp only [makeMinTimeUUID, makeTimeUUID]
  decide

theorem makeMaxTimeUUID_snd (timePoint : Int64) :
    (makeMaxTimeUUID timePoint).2 = 0xbfffffffffffffff := by
  simp only [makeMaxTimeUUID, makeTimeUUID]
  decide

/-- The first half is the timestamp. -/
theorem makeTimeUUID_fst (timeStamp : UInt64) (clockId clockId' : UInt32) (nodeId nodeId' : UInt64) :
    (makeTimeUUID timeStamp clockId nodeId).1 = (makeTimeUUID timeStamp clockId' nodeId').1 := by
  simp only [makeTimeUUID]

/-- UUIDs of one timestamp are compared by their second halves. -/
theorem not_uuidLess_of_fst_eq {a b : UUIDDataType} (hfirst : a.1 = b.1) (hsecond : b.2 ≤ a.2) :
    ¬ uuidLess a b := by
  rintro (hlt | ⟨-, hlt⟩)
  · exact UInt64.lt_irrefl _ (hfirst ▸ hlt)
  · exact UInt64.not_lt.mpr hsecond hlt

/-! ## The way back -/

theorem toInt_toInt64 {count : UInt64} (h : count.toNat < 2 ^ 63) :
    count.toInt64.toInt = count.toNat := by
  have hcast := toInt_toUInt64 count.toInt64
  rw [UInt64.toUInt64_toInt64] at hcast
  rw [hcast, if_pos (by omega)]

/-- The sum of both durations, held in 64 bits. -/
theorem toInt_fromTimeUUIDTimestamp (timeStamp : UInt64) :
    (fromTimeUUIDTimestamp timeStamp).toInt =
      (((timeStamp - EpochSinceUUID1TimestampBase).toNat / 10000 : Nat) * 1000000 +
        (timeStamp.toNat % 10000 * 100 : Nat) : Int).bmod (2 ^ 64) := by
  have hmilliseconds : ((timeStamp - EpochSinceUUID1TimestampBase) / 10000).toNat =
      (timeStamp - EpochSinceUUID1TimestampBase).toNat / 10000 := by
    rw [UInt64.toNat_div]
    rfl
  have hrest : (timeStamp % 10000 * 100).toNat = timeStamp.toNat % 10000 * 100 := by
    rw [UInt64.toNat_mul, UInt64.toNat_mod]
    simp only [UInt64.reduceToNat]
    omega
  have hlt := (timeStamp - EpochSinceUUID1TimestampBase).toNat_lt
  rw [fromTimeUUIDTimestamp, Int64.toInt_add, Int64.toInt_mul, Int.bmod_add_bmod,
    toInt_toInt64 (by omega), toInt_toInt64 (by omega), hmilliseconds, hrest]
  rfl

section Epoch

variable {timePoint : Int64}

/-- What is divided on the way back. -/
theorem toNat_sub_base (timePoint : Int64) :
    ((toTimeUUIDTimestamp timePoint - EpochSinceUUID1TimestampBase).toNat : Int) =
      ((toTimeUUIDTimestamp timePoint).toNat - 122192928000000000) % 2 ^ 64 := by
  have hbase : EpochSinceUUID1TimestampBase.toNat = 122192928000000000 := by decide
  have hlt := (toTimeUUIDTimestamp timePoint).toNat_lt
  rw [UInt64.toNat_sub, hbase]
  omega

/-- A count that is not negative is the unsigned one. -/
theorem toNat_toUInt64_of_nonneg (h : 0 ≤ timePoint.toInt) :
    (timePoint.toUInt64.toNat : Int) = timePoint.toInt := by
  have hcast := toInt_toUInt64 timePoint
  have hlt := timePoint.toUInt64.toNat_lt
  split at hcast
  · exact hcast.symm
  · omega

theorem toNat_toUInt64_of_neg (h : timePoint.toInt < 0) :
    (timePoint.toUInt64.toNat : Int) = timePoint.toInt + 2 ^ 64 := by
  have hcast := toInt_toUInt64 timePoint
  split at hcast
  · omega
  · omega

/-- From 1970 on the timestamp counts the whole intervals. -/
theorem toTimeUUIDTimestamp_of_nonneg (h : 0 ≤ timePoint.toInt) :
    ((toTimeUUIDTimestamp timePoint).toNat : Int) =
      timePoint.toInt / 100 + 122192928000000000 := by
  have hcount := toNat_toUInt64_of_nonneg h
  rw [toNat_toTimeUUIDTimestamp, Int.tdiv_eq_ediv_of_nonneg h]
  omega

/-- What a timestamp counts from 1970 on is read back. -/
theorem fromTimeUUIDTimestamp_of_nonneg (h : 0 ≤ timePoint.toInt) :
    (fromTimeUUIDTimestamp (toTimeUUIDTimestamp timePoint)).toInt = timePoint.toInt / 100 * 100 := by
  have hcount := toTimeUUIDTimestamp_of_nonneg h
  have hback := toNat_sub_base timePoint
  have hlt := timePoint.toInt_lt
  rw [hcount, Int.add_sub_cancel, Int.emod_eq_of_lt (by omega) (by omega)] at hback
  rw [toInt_fromTimeUUIDTimestamp, Int.bmod_eq_of_le (by omega) (by omega)]
  omega

end Epoch

/-! ## Before 1970

A negative count is written as whole milliseconds and a part of one, both before 1970. -/

section Before

variable {rest lost whole part : Int}

theorem rest_bounds (part : Int) :
    0 ≤ (551616 - part) % 1000000 / 100 ∧ (551616 - part) % 1000000 / 100 < 10000 := by
  omega

/-- 2^64 nanoseconds are no whole number of milliseconds. -/
theorem rest_of_unsigned {unsigned : Nat}
    (h : (unsigned : Int) = -(whole * 1000000 + part) + 2 ^ 64) :
    ((unsigned / 100 % 10000 : Nat) : Int) = (551616 - part) % 1000000 / 100 := by
  omega

theorem floor_of_parts {count : Int} (h : count = -(whole * 1000000 + part)) :
    count / 100 = -whole * 10000 - (part + 99) / 100 := by
  omega

theorem tdiv_of_parts {count : Int} (h : count = -(whole * 1000000 + part)) (hneg : count < 0)
    (hpart : 0 ≤ part ∧ part < 1000000) : count.tdiv 1000000 = -whole := by
  have hquotient : -count / 1000000 = whole := by omega
  rw [← hquotient, ← Int.tdiv_eq_ediv_of_nonneg (by omega), Int.neg_tdiv, Int.neg_neg]

theorem mod_of_parts {timeStamp : Nat} (hrest : 0 ≤ rest ∧ rest < 10000)
    (h : (timeStamp : Int) = -whole * 10000 + rest + 122192928000000000) :
    ((timeStamp % 10000 * 100 : Nat) : Int) = rest * 100 := by
  omega

/-- The products with 2^64 are no help: what is added to the intervals has to vanish. -/
theorem rest_of_kept {quotient remainder : Int} (hrest : 0 ≤ rest ∧ rest < 10000)
    (hpart : 0 ≤ part ∧ part ≤ 10000) (hremainder : 0 ≤ remainder ∧ remainder < 10000)
    (hback : 10000 * quotient + remainder = 2 ^ 64 - whole * 10000 + rest)
    (hlost : (-whole * 10000 - part) * 100 + 2 ^ 64 * lost = quotient * 1000000 + rest * 100) :
    2 * rest + part = remainder := by
  have hturn : 2 ^ 64 * (lost - 100) = (2 * rest + part - remainder) * 100 := by linarith
  rcases lt_trichotomy lost 100 with hless | heq | hmore
  · linarith
  · subst heq
    linarith
  · linarith

theorem ceil_bounds (hpart : 0 ≤ part ∧ part < 1000000) :
    0 ≤ (part + 99) / 100 ∧ (part + 99) / 100 ≤ 10000 := by
  omega

/-- The part and its rest do not add up to what is left of the unsigned division. -/
theorem rest_misses (hrest : rest = (551616 - part) % 1000000 / 100) :
    2 * rest + (part + 99) / 100 ≠ (1616 + rest) % 10000 := by
  omega

/-- The unsigned quotient misses a time point that is at least a millisecond before 1970. -/
theorem quotient_misses (hpart : 0 ≤ part ∧ part < 1000000)
    (hrest : rest = (551616 - part) % 1000000 / 100) (quotient remainder : Int)
    (hremainder : remainder = (1616 + rest) % 10000)
    (hback : 10000 * quotient + remainder = 2 ^ 64 - whole * 10000 + rest) :
    (-whole * 10000 - (part + 99) / 100) * 100 + 2 ^ 64 * lost ≠
      quotient * 1000000 + rest * 100 := by
  intro hlost
  have hbounds := rest_bounds part
  rw [← hrest] at hbounds
  have hbound : 0 ≤ remainder ∧ remainder < 10000 := by
    rw [hremainder]
    exact ⟨Int.emod_nonneg _ (by decide), Int.emod_lt_of_pos _ (by decide)⟩
  have hturn := rest_of_kept hbounds (ceil_bounds hpart) hbound hback hlost
  rw [hremainder] at hturn
  exact rest_misses hrest hturn

/-- A negative count of intervals is divided as an unsigned number. -/
theorem unsigned_of_parts (hwhole : 0 < whole ∧ whole ≤ 9223372036854)
    (hrest : 0 ≤ rest ∧ rest < 10000) :
    (-whole * 10000 + rest) % 2 ^ 64 = 2 ^ 64 - whole * 10000 + rest := by
  omega

theorem remainder_of_parts {back : Int} (hback : back = 2 ^ 64 - whole * 10000 + rest) :
    back % 10000 = (1616 + rest) % 10000 := by
  have hwhole : back = 1616 + rest + 10000 * (1844674407370955 - whole) := by
    rw [hback]
    linarith
  rw [hwhole, Int.add_mul_emod_self_left]

variable {timePoint : Int64}

theorem toTimeUUIDTimestamp_of_parts (h : timePoint.toInt < 0)
    (hsplit : timePoint.toInt = -(whole * 1000000 + part)) (hpart : 0 ≤ part ∧ part < 1000000) :
    ((toTimeUUIDTimestamp timePoint).toNat : Int) =
      -whole * 10000 + (551616 - part) % 1000000 / 100 + 122192928000000000 := by
  have hunsigned := toNat_toUInt64_of_neg h
  rw [hsplit] at hunsigned
  rw [toNat_toTimeUUIDTimestamp, tdiv_of_parts hsplit h hpart, rest_of_unsigned hunsigned]

/-- Before 1970 the time point is lost: it is nearer than a millisecond to 1970 and
comes back behind it, or the unsigned quotient misses it. -/
theorem fromTimeUUIDTimestamp_of_neg (h : timePoint.toInt < 0) :
    (fromTimeUUIDTimestamp (toTimeUUIDTimestamp timePoint)).toInt ≠
      timePoint.toInt / 100 * 100 := by
  obtain ⟨whole, part, hsplit, hpart⟩ : ∃ whole part : Int,
      timePoint.toInt = -(whole * 1000000 + part) ∧ 0 ≤ part ∧ part < 1000000 :=
    ⟨-timePoint.toInt / 1000000, -timePoint.toInt % 1000000, by omega, by omega⟩
  have hcount := toTimeUUIDTimestamp_of_parts h hsplit hpart
  have hback := toNat_sub_base timePoint
  obtain ⟨rest, hrest⟩ : ∃ rest, rest = (551616 - part) % 1000000 / 100 := ⟨_, rfl⟩
  have hbounds := rest_bounds part
  rw [← hrest] at hcount hbounds
  rw [hcount, Int.add_sub_cancel] at hback
  rw [toInt_fromTimeUUIDTimestamp, mod_of_parts hbounds hcount, floor_of_parts hsplit,
    Int.natCast_ediv]
  generalize ((toTimeUUIDTimestamp timePoint - EpochSinceUUID1TimestampBase).toNat : Int) = back at *
  have hle := timePoint.le_toInt
  have hmax : whole ≤ 9223372036854 := by omega
  intro hkept
  rcases Int.lt_or_le 0 whole with hbefore | hnear
  · have hhuge := hback.trans (unsigned_of_parts ⟨hbefore, hmax⟩ hbounds)
    have hlost := Int.bmod_add_bdiv (back / (10000 : Nat) * 1000000 + rest * 100) (2 ^ 64)
    rw [hkept] at hlost
    exact quotient_misses hpart hrest _ _ (remainder_of_parts hhuge)
      ((Int.mul_ediv_add_emod back 10000).trans hhuge) hlost
  · -- the timestamp is not before 1970
    have hnone : whole = 0 := by omega
    have hbehind : back = rest := by
      rw [hback, hnone, Int.neg_zero, Int.zero_mul, Int.zero_add]
      exact Int.emod_eq_of_lt hbounds.1 (hbounds.2.trans (by decide))
    have hsum : (rest * 100).bmod (2 ^ 64) = rest * 100 :=
      Int.bmod_eq_of_le (by omega) (by omega)
    have hquotient : rest / (10000 : Nat) = 0 := Int.ediv_eq_zero_of_lt hbounds.1 hbounds.2
    rw [hbehind, hnone, hquotient, Int.zero_mul, Int.zero_add,
      hsum] at hkept
    omega

end Before

/-! ## Time points -/

/-- A time point belongs together with its UUIDs exactly when it is not before 1970. -/
theorem timePointAgrees_iff (timePoint : Int64) (clockId : UInt32) (nodeId : UInt64) :
    TimePointAgrees timePoint clockId nodeId ↔ 0 ≤ timePoint.toInt := by
  have hbits := (toTimeUUIDTimestamp_bounds timePoint).2
  have hread := getTimeFromUUID_makeTimeUUID (toTimeUUIDTimestamp timePoint) clockId nodeId hbits
  constructor
  · intro hagrees
    by_contra hbefore
    obtain ⟨time, htime, hfloor⟩ := hagrees.time
    rw [hread] at htime
    rw [← Except.ok.inj htime] at hfloor
    exact fromTimeUUIDTimestamp_of_neg (not_le.mp hbefore) hfloor
  · intro hnonneg
    have hsecond := makeTimeUUID_snd_bounds (toTimeUUIDTimestamp timePoint) clockId nodeId
    rw [← makeMinTimeUUID_snd timePoint, ← makeMaxTimeUUID_snd timePoint] at hsecond
    have hmin := makeTimeUUID_fst (toTimeUUIDTimestamp timePoint) clockId 0 nodeId 0
    have hmax := makeTimeUUID_fst (toTimeUUIDTimestamp timePoint) MaxClockId clockId
      0xffffffffffffffff nodeId
    refine ⟨getVersionFromUUID_makeTimeUUID .., ⟨_, hread, fromTimeUUIDTimestamp_of_nonneg hnonneg⟩,
      not_uuidLess_of_fst_eq hmin hsecond.1, not_uuidLess_of_fst_eq hmax hsecond.2, ?_⟩
    intro later hlater
    have hcount := toTimeUUIDTimestamp_of_nonneg hnonneg
    have hcount' := @toTimeUUIDTimestamp_of_nonneg later (by omega)
    rw [UInt64.le_iff_toNat_le]
    omega

/-- Half a millisecond before 1970 comes back behind 1970. -/
theorem not_timePointAgrees_before :
    ¬ ∀ (timePoint : Int64) (clockId : UInt32) (nodeId : UInt64), clockId ≤ MaxClockId →
      TimePointAgrees timePoint clockId nodeId := by
  intro hall
  obtain ⟨time, htime, hfloor⟩ := (hall (-500000) 0 0 (by decide)).time
  have hread : getTimeFromUUID (makeTimeUUID (toTimeUUIDTimestamp (-500000)) 0 0) =
      .ok 51600 := by decide
  rw [hread] at htime
  cases htime
  exact absurd hfloor (by decide)

end CqlDriver
