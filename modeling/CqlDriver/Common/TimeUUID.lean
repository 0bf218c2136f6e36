import Mathlib.Algebra.Order.Ring.Int
import Mathlib.Algebra.Order.Ring.Nat
import Mathlib.Data.List.Nodup
import Mathlib.Data.List.Sublists
import CqlDriver.Common.Exception

/-!
# Time UUIDs

`makeTimeUUID` reads the system clock and puts a clock id beside the timestamp, which counts the
calls within one interval of 100 nanoseconds. The thread remembers the last timestamp only, so
a timestamp that comes back after another one starts again with clock id zero.

A reading of the clock is its distance from the epoch in nanoseconds. The random device is asked
while the thread has no node id, and what it answers comes with every call.

## Main definitions

* `makeTimeUUID`, `toTimeUUIDTimestamp` — the layout of a version 1 UUID
* `TimeUUIDState.makeTimeUUID`, `TimeUUIDState.outcomes` — the calls on a thread
* `TimeUUIDState.Unique` — the UUIDs of a sequence of readings are distinct
* `TimeUUIDState.NeverReturns` — the clock never comes back to a timestamp it has left

## Main results

* `makeTimeUUID_inj` — the layout keeps timestamp and clock id apart
* `TimeUUIDState.unique_iff` — which readings give distinct UUIDs
-/

namespace CqlDriver

/-- The high and the low bits of a UUID. -/
abbrev UUIDDataType := UInt64 × UInt64

def MaxClockId : UInt32 := 0b11111111111111

/-- 1582-10-15. -/
def EpochSinceUUID1TimestampBase : UInt64 := 122192928000000000

/-- The number of intervals of 100 nanoseconds since 1582-10-15. -/
def toTimeUUIDTimestamp (sinceEpoch : Int64) : UInt64 :=
  -- the casts of negative counts wrap, as the unsigned factors make them do
  (sinceEpoch / 1000000).toUInt64 * 10000 + sinceEpoch.toUInt64 / 100 % 10000 +
    EpochSinceUUID1TimestampBase

/-- Make a version 1 (date-time and MAC address) UUID. -/
def makeTimeUUID (timeStamp : UInt64) (clockId : UInt32) (nodeId : UInt64) : UUIDDataType :=
  ((timeStamp &&& 0x00000000ffffffff) <<< 32 ||| (timeStamp &&& 0x0000ffff00000000) >>> 16 |||
      (0x1000 : UInt64) ||| (timeStamp &&& 0x0fff000000000000) >>> 48,
    (0x8000000000000000 : UInt64) ||| (clockId.toUInt64 &&& 0x3fff) <<< 48 |||
      nodeId &&& 0x0000ffffffffffff)

/-! ## The layout -/

theorem toInt_toUInt64 (count : Int64) : count.toInt =
    if 2 * count.toUInt64.toNat < 2 ^ 64 then (count.toUInt64.toNat : Int)
    else count.toUInt64.toNat - (2 ^ 64 : Nat) := by
  rw [← Int64.toNat_toBitVec]
  exact BitVec.toInt_eq_toNat_cond count.toBitVec

/-- The milliseconds are counted towards zero, and the rest is that of the unsigned count. -/
theorem toNat_toTimeUUIDTimestamp (sinceEpoch : Int64) :
    ((toTimeUUIDTimestamp sinceEpoch).toNat : Int) = sinceEpoch.toInt.tdiv 1000000 * 10000 +
      (sinceEpoch.toUInt64.toNat / 100 % 10000 : Nat) + 122192928000000000 := by
  have hmilliseconds : (sinceEpoch / 1000000).toInt = sinceEpoch.toInt.tdiv 1000000 :=
    Int64.toInt_div_of_ne_right sinceEpoch 1000000 (by decide)
  have hcast := toInt_toUInt64 (sinceEpoch / 1000000)
  have hbound : (sinceEpoch / 1000000).toInt.natAbs ≤ 9223372036855 := by
    have hle := sinceEpoch.le_toInt
    have hlt := sinceEpoch.toInt_lt
    have habs : (sinceEpoch.toInt.tdiv 1000000).natAbs = sinceEpoch.toInt.natAbs / 1000000 :=
      Int.natAbs_tdiv _ _
    rw [hmilliseconds, habs]
    omega
  have hrest : sinceEpoch.toUInt64.toNat / 100 % 10000 < 10000 := Nat.mod_lt _ (by decide)
  rw [toTimeUUIDTimestamp, EpochSinceUUID1TimestampBase, ← hmilliseconds]
  simp only [UInt64.toNat_add, UInt64.toNat_mul, UInt64.toNat_div, UInt64.toNat_mod,
    UInt64.reduceToNat, Nat.mod_add_mod]
  generalize sinceEpoch.toUInt64.toNat / 100 % 10000 = rest at *
  generalize (sinceEpoch / 1000000).toInt = milliseconds at *
  generalize (sinceEpoch / 1000000).toUInt64.toNat = cast at *
  split at hcast
  · rw [Nat.mod_eq_of_lt (by omega)]
    omega
  · -- before 1970 the product wraps and the base brings the sum back
    have hwrap : cast * 10000 + rest + 122192928000000000 =
        (milliseconds * 10000 + rest + 122192928000000000).toNat + 10000 * 2 ^ 64 := by
      omega
    rw [hwrap, Nat.add_mul_mod_self_right, Nat.mod_eq_of_lt (by omega)]
    omega

/-- The timestamps of all readings are positive and fit into the 60 bits of the layout. -/
theorem toTimeUUIDTimestamp_bounds (sinceEpoch : Int64) :
    0 < (toTimeUUIDTimestamp sinceEpoch).toNat ∧
      (toTimeUUIDTimestamp sinceEpoch).toNat < 2 ^ 60 := by
  have hcount := toNat_toTimeUUIDTimestamp sinceEpoch
  have hle := sinceEpoch.le_toInt
  have hlt := sinceEpoch.toInt_lt
  have habs : (sinceEpoch.toInt.tdiv 1000000).natAbs = sinceEpoch.toInt.natAbs / 1000000 :=
    Int.natAbs_tdiv _ _
  have hrest : sinceEpoch.toUInt64.toNat / 100 % 10000 < 10000 := Nat.mod_lt _ (by decide)
  omega

/-- Where the bits of the timestamp are. -/
theorem testBit_makeTimeUUID_fst (timeStamp : UInt64) (clockId : UInt32) (nodeId : UInt64)
    (i : Nat) : (makeTimeUUID timeStamp clockId nodeId).1.toNat.testBit i =
      ((decide (32 ≤ i) && decide (i < 64) && timeStamp.toNat.testBit (i - 32)) ||
        (decide (16 ≤ i) && decide (i < 32) && timeStamp.toNat.testBit (i + 16)) ||
        decide (i = 12) || (decide (i < 12) && timeStamp.toNat.testBit (i + 48))) := by
  have hlow : (0xffffffff : Nat) = 2 ^ 32 - 1 := by decide
  have hmiddle : (0x0000ffff00000000 : Nat) = (2 ^ 16 - 1) <<< 32 := by decide
  have hhigh : (0x0fff000000000000 : Nat) = (2 ^ 12 - 1) <<< 48 := by decide
  have hversion : (0x1000 : Nat) = 2 ^ 12 := by decide
  simp only [makeTimeUUID, UInt64.toNat_or, UInt64.toNat_and, UInt64.toNat_shiftLeft,
    UInt64.toNat_shiftRight, UInt64.reduceToNat, Nat.testBit_or, Nat.testBit_mod_two_pow,
    Nat.testBit_shiftLeft, Nat.testBit_shiftRight, Nat.testBit_and, Nat.reduceMod]
  simp only [hlow, hmiddle, hhigh, hversion, Nat.testBit_shiftLeft, Nat.testBit_two_pow_sub_one,
    Nat.testBit_two_pow, Nat.add_comm _ i]
  grind

section Positions

variable (timeStamp : UInt64) (clockId : UInt32) (nodeId : UInt64) {i : Nat}

theorem testBit_low (hi : i < 32) :
    (makeTimeUUID timeStamp clockId nodeId).1.toNat.testBit (i + 32) =
      timeStamp.toNat.testBit i := by
  have hversion : i + 32 ≠ 12 := by omega
  have hnot : ¬ i + 32 < 12 := by omega
  have hlt : i + 32 < 64 := by omega
  have hmiddle : ¬ i + 32 < 32 := by omega
  rw [testBit_makeTimeUUID_fst]
  simp [hversion, hnot, hlt, hmiddle]

theorem testBit_middle (hge : 32 ≤ i) (hi : i < 48) :
    (makeTimeUUID timeStamp clockId nodeId).1.toNat.testBit (i - 16) =
      timeStamp.toNat.testBit i := by
  obtain ⟨k, rfl⟩ := Nat.exists_eq_add_of_le' hge
  have hplace : k + 32 - 16 = k + 16 := by omega
  have hnot : ¬ 32 ≤ k + 16 := by omega
  have hlt : k + 16 < 32 := by omega
  have hversion : k + 16 ≠ 12 := by omega
  have hhigh : ¬ k + 16 < 12 := by omega
  rw [hplace, testBit_makeTimeUUID_fst]
  simp [hnot, hlt, hversion, hhigh]

theorem testBit_high (hge : 48 ≤ i) (hi : i < 60) :
    (makeTimeUUID timeStamp clockId nodeId).1.toNat.testBit (i - 48) =
      timeStamp.toNat.testBit i := by
  obtain ⟨k, rfl⟩ := Nat.exists_eq_add_of_le' hge
  have hk : k < 12 := by omega
  have hlow : ¬ 32 ≤ k := by omega
  have hmiddle : ¬ 16 ≤ k := by omega
  rw [Nat.add_sub_cancel, testBit_makeTimeUUID_fst]
  simp [hk, hk.ne, hlow, hmiddle]

end Positions

/-- Where the bits of the clock id are. -/
theorem testBit_makeTimeUUID_snd (timeStamp : UInt64) (clockId : UInt32) (nodeId : UInt64)
    {i : Nat} (hi : i < 14) :
    (makeTimeUUID timeStamp clockId nodeId).2.toNat.testBit (i + 48) = clockId.toNat.testBit i := by
  have hvariant : (0x8000000000000000 : Nat) = 2 ^ 63 := by decide
  have hclock : (0x3fff : Nat) = 2 ^ 14 - 1 := by decide
  have hnode : (0x0000ffffffffffff : Nat) = 2 ^ 48 - 1 := by decide
  simp only [makeTimeUUID, UInt64.toNat_or, UInt64.toNat_and, UInt64.toNat_shiftLeft,
    UInt32.toNat_toUInt64, UInt64.reduceToNat, Nat.testBit_or, Nat.testBit_mod_two_pow,
    Nat.testBit_shiftLeft, Nat.testBit_and, Nat.reduceMod]
  simp only [hvariant, hclock, hnode, Nat.testBit_two_pow_sub_one, Nat.testBit_two_pow]
  grind

/-- Timestamp and clock id can be read off a UUID. -/
theorem makeTimeUUID_inj {timeStamp timeStamp' : UInt64} {clockId clockId' : UInt32}
    {nodeId nodeId' : UInt64} (htimeStamp : timeStamp.toNat < 2 ^ 60)
    (htimeStamp' : timeStamp'.toNat < 2 ^ 60) (hclockId : clockId ≤ MaxClockId)
    (hclockId' : clockId' ≤ MaxClockId)
    (h : makeTimeUUID timeStamp clockId nodeId = makeTimeUUID timeStamp' clockId' nodeId') :
    timeStamp = timeStamp' ∧ clockId = clockId' := by
  constructor
  · refine UInt64.toNat_inj.mp (Nat.eq_of_testBit_eq fun i => ?_)
    rcases Nat.lt_or_ge i 32 with hlow | hge
    · rw [← testBit_low timeStamp clockId nodeId hlow, h, testBit_low _ _ _ hlow]
    rcases Nat.lt_or_ge i 48 with hmiddle | hge'
    · rw [← testBit_middle timeStamp clockId nodeId hge hmiddle, h, testBit_middle _ _ _ hge hmiddle]
    rcases Nat.lt_or_ge i 60 with hhigh | hbeyond
    · rw [← testBit_high timeStamp clockId nodeId hge' hhigh, h, testBit_high _ _ _ hge' hhigh]
    · have hpow : 2 ^ 60 ≤ 2 ^ i := Nat.pow_le_pow_right (by decide) hbeyond
      rw [Nat.testBit_lt_two_pow (htimeStamp.trans_le hpow),
        Nat.testBit_lt_two_pow (htimeStamp'.trans_le hpow)]
  · refine UInt32.toNat_inj.mp (Nat.eq_of_testBit_eq fun i => ?_)
    rcases Nat.lt_or_ge i 14 with hin | hbeyond
    · rw [← testBit_makeTimeUUID_snd timeStamp clockId nodeId hin, h,
        testBit_makeTimeUUID_snd timeStamp' clockId' nodeId' hin]
    · have hpow : 2 ^ 14 ≤ 2 ^ i := Nat.pow_le_pow_right (by decide) hbeyond
      have hlt : clockId.toNat < 2 ^ 14 := Nat.lt_succ_of_le (UInt32.le_iff_toNat_le.mp hclockId)
      have hlt' : clockId'.toNat < 2 ^ 14 :=
        Nat.lt_succ_of_le (UInt32.le_iff_toNat_le.mp hclockId')
      rw [Nat.testBit_lt_two_pow (hlt.trans_le hpow), Nat.testBit_lt_two_pow (hlt'.trans_le hpow)]

/-! ## The calls on a thread -/

/-- The `thread_local` variables of `makeTimeUUID`. -/
structure TimeUUIDState where
  staticNodeId : UInt64
  staticLastTimestamp : UInt64
  staticClockId : UInt32
  deriving DecidableEq, Repr

namespace TimeUUIDState

/-- A thread that has made no UUID. -/
def create : TimeUUIDState := ⟨0, 0, 0⟩

/-- `throw UUIDConflictException(...)`. -/
def conflict : Exception :=
  ⟨.uuidConflict, "generate time uuid failed, clock id is exhausted in this 100 nanoseconds"⟩

/-- The node id of a call. A random value is used as mac address because each core won't share
clock id. -/
def nodeIdWith (s : TimeUUIDState) (random : UInt64) : UInt64 :=
  if s.staticNodeId = 0 then random else s.staticNodeId

/-- Make a UUID of the present time. -/
def makeTimeUUID (s : TimeUUIDState) (now : Int64) (random : UInt64) :
    Except Exception UUIDDataType × TimeUUIDState :=
  let staticNodeId := s.nodeIdWith random
  let timeStamp := toTimeUUIDTimestamp now
  if timeStamp ≠ s.staticLastTimestamp then
    (.ok (CqlDriver.makeTimeUUID timeStamp 0 staticNodeId), ⟨staticNodeId, timeStamp, 1⟩)
  else if MaxClockId < s.staticClockId then
    (.error conflict, { s with staticNodeId })
  else
    (.ok (CqlDriver.makeTimeUUID timeStamp s.staticClockId staticNodeId),
      ⟨staticNodeId, timeStamp, s.staticClockId + 1⟩)

/-- What a sequence of calls returns. -/
def outcomes : TimeUUIDState → List (Int64 × UInt64) → List (Except Exception UUIDDataType)
  | _, [] => []
  | s, (now, random) :: calls =>
    (s.makeTimeUUID now random).1 :: outcomes (s.makeTimeUUID now random).2 calls

/-- The UUIDs among what a sequence of calls returns. -/
def uuids (s : TimeUUIDState) (calls : List (Int64 × UInt64)) : List UUIDDataType :=
  (s.outcomes calls).filterMap Except.toOption

/-- Whatever the random device answers, the UUIDs of a new thread are distinct, and the other calls
throw for a conflict. -/
structure Unique (readings : List Int64) : Prop where
  distinct : ∀ calls : List (Int64 × UInt64), calls.map Prod.fst = readings →
    (create.uuids calls).Nodup
  throws : ∀ calls : List (Int64 × UInt64), calls.map Prod.fst = readings →
    ∀ ex, .error ex ∈ create.outcomes calls → ex = conflict

/-- The clock does not come back to a timestamp that it has left. -/
def NeverReturns (timeStamps : List UInt64) : Prop :=
  ∀ a b, [a, b, a].Sublist timeStamps → a = b

variable {s : TimeUUIDState} {now : Int64} {random nodeId timeStamp : UInt64}
  {calls : List (Int64 × UInt64)} {readings : List Int64} {timeStamps : List UInt64}

/-- The timestamps that the calls read. -/
def timeStampsOf (calls : List (Int64 × UInt64)) : List UInt64 :=
  calls.map fun call => toTimeUUIDTimestamp call.1

theorem NeverReturns.tail (h : NeverReturns (timeStamp :: timeStamps)) : NeverReturns timeStamps :=
  fun a b hsub => h a b (hsub.cons _)

/-- A timestamp that is read again may be left out. -/
theorem NeverReturns.of_again {again : UInt64} (h : NeverReturns (timeStamp :: again :: timeStamps)) :
    NeverReturns (timeStamp :: timeStamps) :=
  fun a b hsub => h a b (hsub.trans ((List.sublist_cons_self again timeStamps).cons_cons _))

/-- A timestamp that was left does not come again. -/
theorem NeverReturns.notMem {left : UInt64} (h : NeverReturns (left :: timeStamp :: timeStamps))
    (hne : timeStamp ≠ left) : left ∉ timeStamp :: timeStamps := by
  intro hmem
  rcases List.mem_cons.mp hmem with rfl | hlater
  · exact hne rfl
  · have hsub := (List.singleton_sublist.mpr hlater).cons_cons timeStamp
    exact hne (h left timeStamp (hsub.cons_cons left)).symm

/-- What a call does. -/
inductive CallTo (s : TimeUUIDState) (now : Int64) (random : UInt64) :
    Except Exception UUIDDataType × TimeUUIDState → Prop
  | fresh (left : toTimeUUIDTimestamp now ≠ s.staticLastTimestamp) :
      CallTo s now random
        (.ok (CqlDriver.makeTimeUUID (toTimeUUIDTimestamp now) 0 (s.nodeIdWith random)),
          ⟨s.nodeIdWith random, toTimeUUIDTimestamp now, 1⟩)
  | again (same : toTimeUUIDTimestamp now = s.staticLastTimestamp)
      (free : s.staticClockId ≤ MaxClockId) :
      CallTo s now random
        (.ok (CqlDriver.makeTimeUUID s.staticLastTimestamp s.staticClockId (s.nodeIdWith random)),
          ⟨s.nodeIdWith random, s.staticLastTimestamp, s.staticClockId + 1⟩)
  | exhausted (same : toTimeUUIDTimestamp now = s.staticLastTimestamp)
      (full : MaxClockId < s.staticClockId) :
      CallTo s now random (.error conflict, { s with staticNodeId := s.nodeIdWith random })

theorem callTo (s : TimeUUIDState) (now : Int64) (random : UInt64) :
    s.CallTo now random (s.makeTimeUUID now random) := by
  rw [makeTimeUUID]
  split
  next hleft => exact .fresh hleft
  next hsame =>
    have hsame := not_not.mp hsame
    split
    next hfull => exact .exhausted hsame hfull
    next hfree =>
      rw [hsame]
      exact .again hsame (UInt32.not_lt.mp hfree)

theorem uuids_cons : s.uuids ((now, random) :: calls) =
    (s.makeTimeUUID now random).1.toOption.toList ++ (s.makeTimeUUID now random).2.uuids calls := by
  rw [uuids, outcomes]
  cases (s.makeTimeUUID now random).1 with
  | error ex => rfl
  | ok uuid => rfl

/-- The other calls throw for a conflict. -/
theorem eq_conflict_of_mem_outcomes {ex : Exception} (h : .error ex ∈ s.outcomes calls) :
    ex = conflict := by
  induction calls generalizing s with
  | nil => cases h
  | cons call calls ih =>
    rw [outcomes] at h
    rcases List.mem_cons.mp h with hhere | hlater
    · have hcall := callTo s call.1 call.2
      generalize s.makeTimeUUID call.1 call.2 = result at hcall hhere
      cases hcall with
      | fresh => cases hhere
      | again => cases hhere
      | exhausted => cases hhere; rfl
    · exact ih hlater

/-! ## A clock that never returns -/

/-- A UUID that is made later: its timestamp is one of those that are read or the last one, and
with the last one it has a clock id that was not used. -/
def Later (s : TimeUUIDState) (calls : List (Int64 × UInt64)) (uuid : UUIDDataType) : Prop :=
  ∃ timeStamp clockId nodeId, uuid = CqlDriver.makeTimeUUID timeStamp clockId nodeId ∧
    timeStamp.toNat < 2 ^ 60 ∧ clockId ≤ MaxClockId ∧ timeStamp ∈ timeStampsOf calls ∧
    (timeStamp = s.staticLastTimestamp → s.staticClockId ≤ clockId)

/-- The UUIDs of a clock that never returns are later ones, each once. -/
theorem later_and_nodup
    (h : NeverReturns (s.staticLastTimestamp :: timeStampsOf calls)) :
    (∀ uuid ∈ s.uuids calls, s.Later calls uuid) ∧ (s.uuids calls).Nodup := by
  induction calls generalizing s with
  | nil => exact ⟨fun _ hmem => absurd hmem List.not_mem_nil, List.nodup_nil⟩
  | cons call calls ih =>
    obtain ⟨now, random⟩ := call
    rw [uuids_cons]
    have hcall := callTo s now random
    have hlt := (toTimeUUIDTimestamp_bounds now).2
    have hhead : toTimeUUIDTimestamp now ∈ timeStampsOf ((now, random) :: calls) :=
      List.mem_cons_self
    generalize s.makeTimeUUID now random = result at hcall
    cases hcall with
    | fresh left =>
      obtain ⟨hlater, hnodup⟩ := @ih ⟨s.nodeIdWith random, toTimeUUIDTimestamp now, 1⟩ h.tail
      have hgone := h.notMem left
      constructor
      · intro uuid huuid
        rcases List.mem_cons.mp huuid with rfl | htail
        · exact ⟨_, 0, _, rfl, hlt, by decide, hhead, fun hsame => absurd hsame left⟩
        · obtain ⟨timeStamp, clockId, node, rfl, hbits, hmax, hmem, -⟩ := hlater uuid htail
          have hread := List.mem_cons_of_mem (toTimeUUIDTimestamp now) hmem
          exact ⟨timeStamp, clockId, node, rfl, hbits, hmax, hread,
            fun hsame => absurd (hsame ▸ hread) hgone⟩
      · refine List.nodup_cons.mpr ⟨fun hmem => ?_, hnodup⟩
        obtain ⟨timeStamp, clockId, node, heq, hbits, hmax, -, hclock⟩ := hlater _ hmem
        obtain ⟨rfl, rfl⟩ := makeTimeUUID_inj hlt hbits (by decide) hmax heq
        have hused : (1 : UInt32) ≤ 0 := hclock rfl
        exact absurd hused (by decide)
    | again same free =>
      have hkept : NeverReturns (s.staticLastTimestamp :: timeStampsOf calls) := h.of_again
      obtain ⟨hlater, hnodup⟩ :=
        @ih ⟨s.nodeIdWith random, s.staticLastTimestamp, s.staticClockId + 1⟩ hkept
      have hsucc : s.staticClockId < s.staticClockId + 1 := by
        have hle := UInt32.le_iff_toNat_le.mp free
        rw [MaxClockId] at hle
        rw [UInt32.lt_iff_toNat_lt, UInt32.toNat_add]
        simp only [UInt32.reduceToNat] at hle ⊢
        omega
      constructor
      · intro uuid huuid
        rcases List.mem_cons.mp huuid with rfl | htail
        · exact ⟨_, _, _, rfl, same ▸ hlt, free, same ▸ hhead, fun _ => UInt32.le_refl _⟩
        · obtain ⟨timeStamp, clockId, node, rfl, hbits, hmax, hmem, hclock⟩ := hlater uuid htail
          exact ⟨timeStamp, clockId, node, rfl, hbits, hmax, List.mem_cons_of_mem _ hmem,
            fun hsame => UInt32.le_of_lt (UInt32.lt_of_lt_of_le hsucc (hclock hsame))⟩
      · refine List.nodup_cons.mpr ⟨fun hmem => ?_, hnodup⟩
        obtain ⟨timeStamp, clockId, node, heq, hbits, hmax, -, hclock⟩ := hlater _ hmem
        obtain ⟨rfl, rfl⟩ := makeTimeUUID_inj (same ▸ hlt) hbits free hmax heq
        exact absurd (UInt32.lt_of_lt_of_le hsucc (hclock rfl)) (UInt32.lt_irrefl _)
    | exhausted same full =>
      have hkept : NeverReturns (s.staticLastTimestamp :: timeStampsOf calls) := h.of_again
      obtain ⟨hlater, hnodup⟩ := @ih { s with staticNodeId := s.nodeIdWith random } hkept
      refine ⟨fun uuid huuid => ?_, hnodup⟩
      obtain ⟨timeStamp, clockId, node, rfl, hbits, hmax, hmem, hclock⟩ := hlater uuid huuid
      exact ⟨timeStamp, clockId, node, rfl, hbits, hmax, List.mem_cons_of_mem _ hmem, hclock⟩

/-! ## A clock that returns -/

/-- The node id is one, or will be when the random device answers one. -/
def Settled (s : TimeUUIDState) : Prop := s.nodeIdWith 1 = 1

/-- Calls with these readings while the random device answers one. -/
def callsOf (readings : List Int64) : List (Int64 × UInt64) := readings.map fun now => (now, 1)

theorem callsOf_cons : callsOf (now :: readings) = (now, 1) :: callsOf readings := rfl

theorem staticLastTimestamp_makeTimeUUID :
    (s.makeTimeUUID now random).2.staticLastTimestamp = toTimeUUIDTimestamp now := by
  have hcall := callTo s now random
  generalize s.makeTimeUUID now random = result at hcall
  cases hcall with
  | fresh => rfl
  | again same => exact same.symm
  | exhausted same => exact same.symm

theorem Settled.makeTimeUUID (h : s.Settled) : (s.makeTimeUUID now 1).2.Settled := by
  have hcall := callTo s now 1
  have hone : (if s.nodeIdWith 1 = 0 then 1 else s.nodeIdWith 1) = (1 : UInt64) := by
    rw [show s.nodeIdWith 1 = 1 from h]
    decide
  generalize s.makeTimeUUID now 1 = result at hcall
  cases hcall with
  | fresh => exact hone
  | again => exact hone
  | exhausted => exact hone

/-- A timestamp that is not the last one gets clock id zero. -/
theorem mem_uuids_of_left (h : s.Settled) (hne : s.staticLastTimestamp ≠ timeStamp)
    (hmem : timeStamp ∈ readings.map toTimeUUIDTimestamp) :
    CqlDriver.makeTimeUUID timeStamp 0 1 ∈ s.uuids (callsOf readings) := by
  induction readings generalizing s with
  | nil => cases hmem
  | cons now readings ih =>
    rw [callsOf_cons, uuids_cons]
    by_cases hnow : toTimeUUIDTimestamp now = timeStamp
    · have hleft : toTimeUUIDTimestamp now ≠ s.staticLastTimestamp := fun heq =>
        hne (heq.symm.trans hnow)
      rw [TimeUUIDState.makeTimeUUID, if_pos hleft, hnow, show s.nodeIdWith 1 = 1 from h]
      exact List.mem_cons_self
    · rw [List.map_cons] at hmem
      have hlater := (List.mem_cons.mp hmem).resolve_left fun heq => hnow heq.symm
      refine List.mem_append_right _ (@ih (s.makeTimeUUID now 1).2 h.makeTimeUUID ?_ hlater)
      rwa [staticLastTimestamp_makeTimeUUID]

/-- A timestamp that comes behind another one gets clock id zero. -/
theorem mem_uuids_of_sublist {other : UInt64} (h : s.Settled) (hne : other ≠ timeStamp)
    (hsub : [other, timeStamp].Sublist (readings.map toTimeUUIDTimestamp)) :
    CqlDriver.makeTimeUUID timeStamp 0 1 ∈ s.uuids (callsOf readings) := by
  induction readings generalizing s with
  | nil => cases hsub
  | cons now readings ih =>
    rw [callsOf_cons, uuids_cons]
    refine List.mem_append_right _ ?_
    rw [List.map_cons] at hsub
    by_cases hnow : toTimeUUIDTimestamp now = timeStamp
    · -- the other one is still to come
      rcases List.cons_sublist_cons'.mp hsub with hrest | ⟨hother, -⟩
      · exact @ih (s.makeTimeUUID now 1).2 h.makeTimeUUID hrest
      · exact absurd (hother.trans hnow) hne
    · have hrest : timeStamp ∈ readings.map toTimeUUIDTimestamp := by
        rcases List.cons_sublist_cons'.mp hsub with hrest | ⟨-, hrest⟩
        · exact hrest.subset (List.mem_cons_of_mem _ List.mem_cons_self)
        · exact hrest.subset List.mem_cons_self
      refine @mem_uuids_of_left (s.makeTimeUUID now 1).2 _ _ h.makeTimeUUID ?_ hrest
      rwa [staticLastTimestamp_makeTimeUUID]

/-- A timestamp that comes back gives a UUID twice. -/
theorem not_nodup_of_sublist {other : UInt64} (h : s.Settled) (hne : timeStamp ≠ other)
    (hclock : s.staticLastTimestamp = timeStamp → s.staticClockId = 0)
    (hsub : [timeStamp, other, timeStamp].Sublist (readings.map toTimeUUIDTimestamp)) :
    ¬ (s.uuids (callsOf readings)).Nodup := by
  induction readings generalizing s with
  | nil => cases hsub
  | cons now readings ih =>
    rw [callsOf_cons, uuids_cons]
    rw [List.map_cons] at hsub
    by_cases hnow : toTimeUUIDTimestamp now = timeStamp
    · have hrest : [other, timeStamp].Sublist (readings.map toTimeUUIDTimestamp) := by
        rcases List.cons_sublist_cons'.mp hsub with hrest | ⟨-, hrest⟩
        · exact (List.sublist_cons_self _ _).trans hrest
        · exact hrest
      have hagain := @mem_uuids_of_sublist (s.makeTimeUUID now 1).2 _ _ _ h.makeTimeUUID hne.symm hrest
      have hfirst : (s.makeTimeUUID now 1).1 = .ok (CqlDriver.makeTimeUUID timeStamp 0 1) := by
        have hone : s.nodeIdWith 1 = 1 := h
        by_cases hlast : s.staticLastTimestamp = timeStamp
        · rw [TimeUUIDState.makeTimeUUID, if_neg (not_not.mpr (hnow.trans hlast.symm)), hclock hlast,
            if_neg (by decide), hnow, hone]
        · have hleft : toTimeUUIDTimestamp now ≠ s.staticLastTimestamp := fun heq =>
            hlast (heq.symm.trans hnow)
          rw [TimeUUIDState.makeTimeUUID, if_pos hleft, hnow, hone]
      rw [hfirst]
      exact fun hnodup => (List.nodup_cons.mp hnodup).1 hagain
    · have hrest : [timeStamp, other, timeStamp].Sublist (readings.map toTimeUUIDTimestamp) := by
        rcases List.cons_sublist_cons'.mp hsub with hrest | ⟨heq, -⟩
        · exact hrest
        · exact absurd heq.symm hnow
      have hlater := @ih (s.makeTimeUUID now 1).2 h.makeTimeUUID
        (fun heq => absurd (staticLastTimestamp_makeTimeUUID.symm.trans heq) hnow) hrest
      exact fun hnodup => hlater hnodup.of_append_right

/-- The UUIDs of a thread are distinct exactly when the clock never comes back to a timestamp
that it has left. -/
theorem unique_iff (readings : List Int64) :
    Unique readings ↔ NeverReturns (readings.map toTimeUUIDTimestamp) := by
  constructor
  · intro hunique a b hsub
    by_contra hne
    have hreadings : (callsOf readings).map Prod.fst = readings := by
      rw [callsOf, List.map_map]
      exact List.map_id readings
    exact @not_nodup_of_sublist create _ _ _ rfl hne (fun _ => rfl) hsub
      (hunique.distinct _ hreadings)
  · intro hnever
    refine ⟨?_, fun calls _ ex hex => eq_conflict_of_mem_outcomes hex⟩
    rintro calls rfl
    have hstamps : timeStampsOf calls = (calls.map Prod.fst).map toTimeUUIDTimestamp := by
      rw [List.map_map]
      rfl
    refine (later_and_nodup fun a b hsub => ?_).2
    rw [hstamps] at hsub
    rcases List.cons_sublist_cons'.mp hsub with hrest | ⟨rfl, hrest⟩
    · exact hnever a b hrest
    · -- the initial zero is no timestamp of a reading
      have hmem := hrest.subset (List.mem_cons_of_mem b List.mem_cons_self)
      obtain ⟨now, -, hzero⟩ := List.mem_map.mp hmem
      have hpositive := (toTimeUUIDTimestamp_bounds now).1
      rw [hzero] at hpositive
      exact absurd hpositive (by decide)

/-- The clock steps back by 100 nanoseconds. -/
theorem not_unique_back : ¬ ∀ readings, Unique readings := by
  intro hall
  have hdistinct := (hall [1600000000000000000, 1600000000000000100, 1600000000000000000]).distinct
    [(1600000000000000000, 5), (1600000000000000100, 0), (1600000000000000000, 0)] rfl
  exact absurd hdistinct (by decide)

end TimeUUIDState

end CqlDriver
