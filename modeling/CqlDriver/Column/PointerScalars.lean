import CqlDriver.Column.Pointer
import CqlDriver.Common.TimeUUID

/-!
# Scalar columns behind pointers

The classes whose bodies hold no other columns. A date or a time is converted to a point in time by
the calendar functions of the C library, with the local timezone; a reference to memory keeps the
pointer and the size and inspects nothing.

## Main definitions

* `Pointer.Calendar` — the local timezone
* `Pointer.ScalarType` — the types, with `ScalarType.column`

## Main results

* `Pointer.ScalarType.staysInside` — every scalar type stays inside
-/

namespace CqlDriver

open Math (Memory Extent Scan slice ofBigEndian toSigned ofSigned)

namespace Pointer

variable {extent : Extent} {ptr : Nat} {size : Int}

/-- An empty body, or a number of bytes that is fixed. -/
def decodeFixed {α : Type} (width : Nat) (lengthNotMatched : Failure) (empty : α)
    (ofBytes : Bytes → α) (ptr : Nat) (size : Int) : Scan Failure α Unit :=
  if size = 0 then
    Scan.update fun _ => empty
  else if size ≠ width then
    Scan.throw lengthNotMatched
  else do
    let bytes ← Scan.load ptr width
    Scan.update fun _ => ofBytes bytes.1

theorem bounded_decodeFixed {α : Type} {width : Nat} {lengthNotMatched : Failure} {empty : α}
    {ofBytes : Bytes → α} (hthrown : lengthNotMatched.IsDecode) (hstart : extent.start ≤ ptr)
    (hstop : ptr + size.toNat ≤ extent.start + extent.size) :
    (decodeFixed width lengthNotMatched empty ofBytes ptr size).Bounded extent 0
      Failure.IsDecode := by
  rw [decodeFixed]
  split
  · exact .update _
  · split
    · exact .throw hthrown
    · exact (Scan.Bounded.load hstart (by omega)).bind_quiet fun _ => .update _

namespace IntegerBase

def decodeBody (width : Nat) : Nat → Int → Scan Failure (IntegerBase.Value width) Unit :=
  decodeFixed width IntegerBase.lengthNotMatched 0 (IntegerBase.ofBytes width)

def column (width : Nat) : Class (IntegerBase.Value width) :=
  Pointer.column 0 (fun _ => 0) (decodeBody width)

end IntegerBase

namespace FloatingPointBase

/-- The bytes of the number, as they are in memory. -/
abbrev Value (width : Nat) := BitVec (8 * width)

def lengthNotMatched : Failure :=
  .exception (decodeException "floating point length not matched, expected to be")

/-- The bytes are not swapped. -/
def decodeBody (width : Nat) : Nat → Int → Scan Failure (Value width) Unit :=
  decodeFixed width lengthNotMatched 0 fun bytes => BitVec.ofNat _ (ofBigEndian bytes.reverse)

def column (width : Nat) : Class (Value width) := Pointer.column 0 (fun _ => 0) (decodeBody width)

end FloatingPointBase

namespace StringBase

def decodeBody (ptr : Nat) (size : Int) : Scan Failure Bytes Unit :=
  if 0 ≤ size then do
    let bytes ← Scan.load ptr size.toNat
    Scan.update fun _ => bytes.1
  else
    pure ()

def column : Class Bytes := Pointer.column [] (fun _ => []) decodeBody

end StringBase

namespace VarInt

def decodeBody (str : Nat) (size : Int) : Scan Failure VarInt.Value Unit :=
  if size = 0 then
    Scan.update fun _ => 0 -- empty
  else if 8 < ofSigned 64 size then
    Scan.throw VarInt.tooLarge
  else do
    let first ← Scan.load str 1
    let paddingChar := if first.1.any VarInt.isNegative then 0xff else 0
    let bytes ← Scan.load str size.toNat
    Scan.update fun _ =>
      IntegerBase.ofBytes 8 (List.replicate (8 - size.toNat) paddingChar ++ bytes.1)

def column : Class VarInt.Value := Pointer.column 0 (fun _ => 0) decodeBody

theorem bounded (hstart : extent.start ≤ ptr)
    (hstop : ptr + size.toNat ≤ extent.start + extent.size) (hnonneg : 0 ≤ size) :
    (decodeBody ptr size).Bounded extent 0 Failure.IsDecode := by
  rw [decodeBody]
  split
  · exact .update _
  · split
    · exact .throw ⟨_, rfl⟩
    · -- the sign is looked at before the bytes are copied, and there is a byte
      refine (Scan.Bounded.load hstart (by omega)).bind_quiet fun _ => ?_
      exact (Scan.Bounded.load hstart hstop).bind_quiet fun _ => .update _

end VarInt

namespace Decimal

def decodeBody (ptr : Nat) (size : Int) : Scan Failure Decimal.Value Unit :=
  if size = 0 then
    Scan.update fun _ => (0, 0) -- empty
  else if size < 4 + 1 then
    Scan.throw Decimal.lengthNotEnough
  else do
    Scan.on Prod.fst (fun scale value => (scale, value.2)) (IntegerBase.decodeBody 4 ptr 4)
    Scan.on Prod.snd (fun unscaled value => (value.1, unscaled))
      (VarInt.decodeBody (ptr + 4) (size - 4))

def column : Class Decimal.Value := Pointer.column (0, 0) (fun _ => (0, 0)) decodeBody

end Decimal

namespace Inet

def decodeBody (ptr : Nat) (size : Int) : Scan Failure Inet.Value Unit :=
  if size = 0 then
    Scan.update fun _ => Inet.zero -- empty
  else if size = 4 then do
    let addr_v4 ← Scan.load ptr 4
    Scan.update fun _ => ⟨addr_v4.1, .inl addr_v4.2⟩
  else if size = 16 then do
    let addr_v6 ← Scan.load ptr 16
    Scan.update fun _ => ⟨addr_v6.1, .inr addr_v6.2⟩
  else
    Scan.throw Inet.unsupportedLength

def column : Class Inet.Value := Pointer.column Inet.zero (fun _ => Inet.zero) decodeBody

end Inet

namespace UUIDBase

def lengthNotMatched : Failure :=
  .exception (decodeException "uuid length not matched, expected to be")

def decodeBody (ptr : Nat) (size : Int) : Scan Failure UUIDDataType Unit :=
  if size = 0 then
    Scan.update fun _ => (0, 0) -- empty
  else if size ≠ 16 then
    Scan.throw lengthNotMatched
  else do
    let first ← Scan.load ptr 8
    let second ← Scan.load (ptr + 8) 8
    Scan.update fun _ => (.ofNat (ofBigEndian first.1), .ofNat (ofBigEndian second.1))

def column : Class UUIDDataType := Pointer.column (0, 0) (fun _ => (0, 0)) decodeBody

end UUIDBase

/-! ## Dates and times -/

/-- Nanoseconds since the epoch, in utc. -/
abbrev TimePoint := Int

/-- `gmtime_r` and then `std::mktime`: from the seconds on local clocks to those since the epoch. -/
structure Calendar where
  mktime : Int → Int

/-- `system_clock::from_time_t`. -/
def fromTime (seconds : Int) : TimePoint := seconds * 1000000000

namespace Date

def lengthNotMatched : Failure :=
  .exception (decodeException "date length not matched, expected to be")

/-- The day is counted from 2^31 on, and its seconds are a 32-bit integer. -/
def ofStored (calendar : Calendar) (dbValue : Nat) : TimePoint :=
  let days := toSigned 32 (ofSigned 32 (dbValue - 0x80000000))
  fromTime (calendar.mktime (toSigned 32 (ofSigned 32 (days * 86400))))

def decodeBody (calendar : Calendar) : Nat → Int → Scan Failure TimePoint Unit :=
  decodeFixed 4 lengthNotMatched (fromTime 0) fun bytes => ofStored calendar (ofBigEndian bytes)

def column (calendar : Calendar) : Class TimePoint :=
  Pointer.column (fromTime 0) (fun _ => fromTime 0) (decodeBody calendar)

end Date

namespace Time

def lengthNotMatched : Failure :=
  .exception (decodeException "time length not matched, expected to be")

/-- The nanoseconds since midnight. -/
def ofDuration (calendar : Calendar) (nanoSeconds : Int) : TimePoint :=
  fromTime (calendar.mktime (nanoSeconds.tdiv 1000000000)) + nanoSeconds.tmod 1000000000

def decodeBody (calendar : Calendar) : Nat → Int → Scan Failure TimePoint Unit :=
  decodeFixed 8 lengthNotMatched (ofDuration calendar 0) fun bytes =>
    ofDuration calendar (toSigned 64 (ofBigEndian bytes))

def column (calendar : Calendar) : Class TimePoint :=
  Pointer.column (ofDuration calendar 0) (fun _ => ofDuration calendar 0) (decodeBody calendar)

end Time

namespace Timestamp

def lengthNotMatched : Failure :=
  .exception (decodeException "timestamp length not matched, expected to be")

/-- The milliseconds since the epoch, as 64-bit nanoseconds. -/
def ofStored (dbValue : Nat) : TimePoint :=
  toSigned 64 (ofSigned 64 (toSigned 64 dbValue * 1000000))

def decodeBody : Nat → Int → Scan Failure TimePoint Unit :=
  decodeFixed 8 lengthNotMatched (fromTime 0) fun bytes => ofStored (ofBigEndian bytes)

def column : Class TimePoint :=
  Pointer.column (fromTime 0) (fun _ => fromTime 0) decodeBody

end Timestamp

namespace MemRef

/-- The pointer, which may be null, and the size. -/
abbrev Value := Option Nat × Nat

/-- Keep the pointer and the size. -/
def decodeBody (ptr : Nat) (size : Int) : Scan Failure Value Unit :=
  if 0 ≤ size then Scan.update fun _ => (some ptr, size.toNat) else pure ()

def column : Class Value := Pointer.column (none, 0) (fun _ => (none, 0)) decodeBody

end MemRef

/-! ## The scalar types -/

/-- The types whose values hold no other column values. -/
inductive ScalarType
  | scalar (scalar : Scalar)
  | float
  | double
  | uuid
  | timeUUID
  | date
  | time
  | timestamp
  | memRef
  deriving DecidableEq, Repr

/-- The class of a type that is stored as it is. -/
def scalarColumn : (s : Scalar) → Class s.Value
  | .boolean | .tinyInt => IntegerBase.column 1
  | .smallInt => IntegerBase.column 2
  | .int => IntegerBase.column 4
  | .bigInt | .counter => IntegerBase.column 8
  | .ascii | .text | .blob => StringBase.column
  | .varInt => VarInt.column
  | .decimal => Decimal.column
  | .inet => Inet.column

namespace ScalarType

/-- The values of the objects of a type. -/
abbrev Value : ScalarType → Type
  | scalar s => s.Value
  | float => FloatingPointBase.Value 4
  | double => FloatingPointBase.Value 8
  | uuid | timeUUID => UUIDDataType
  | date | time | timestamp => TimePoint
  | memRef => MemRef.Value

/-- The class of a scalar type. -/
def column (calendar : Calendar) : (type : ScalarType) → Class type.Value
  | scalar s => scalarColumn s
  | float => FloatingPointBase.column 4
  | double => FloatingPointBase.column 8
  | uuid | timeUUID => UUIDBase.column
  | date => Date.column calendar
  | time => Time.column calendar
  | timestamp => Timestamp.column
  | memRef => MemRef.column

end ScalarType

/-! ## Staying inside -/

namespace Decimal

theorem bounded : (decodeBody ptr size).Bounded ⟨ptr, size.toNat⟩ 0 Failure.IsDecode := by
  rw [decodeBody]
  split
  · exact .update _
  · split
    · exact .throw ⟨_, rfl⟩
    · have hscale : (IntegerBase.decodeBody 4 ptr 4).Bounded ⟨ptr, size.toNat⟩ 0
          Failure.IsDecode :=
        bounded_decodeFixed ⟨_, rfl⟩ le_rfl (by dsimp only; omega)
      have hunscaled : (VarInt.decodeBody (ptr + 4) (size - 4)).Bounded ⟨ptr, size.toNat⟩ 0
          Failure.IsDecode :=
        VarInt.bounded (by dsimp only; omega) (by dsimp only; omega) (by omega)
      exact hscale.on.bind_quiet fun _ => hunscaled.on

end Decimal

namespace Inet

theorem bounded : (decodeBody ptr size).Bounded ⟨ptr, size.toNat⟩ 0 Failure.IsDecode := by
  rw [decodeBody]
  split
  · exact .update _
  · split
    next hv4 =>
      subst hv4
      exact (Scan.Bounded.load le_rfl le_rfl).bind_quiet fun _ => .update _
    · split
      next hv6 =>
        subst hv6
        exact (Scan.Bounded.load le_rfl le_rfl).bind_quiet fun _ => .update _
      · exact .throw ⟨_, rfl⟩

end Inet

namespace UUIDBase

theorem bounded : (decodeBody ptr size).Bounded ⟨ptr, size.toNat⟩ 0 Failure.IsDecode := by
  rw [decodeBody]
  split
  · exact .update _
  · split
    · exact .throw ⟨_, rfl⟩
    next hlength =>
      obtain rfl : size = 16 := not_not.mp hlength
      have hfirst : (Scan.load ptr 8 : Scan Failure UUIDDataType _).Bounded ⟨ptr, 16⟩ 0
          Failure.IsDecode :=
        .load le_rfl (by dsimp only; omega)
      have hsecond : (Scan.load (ptr + 8) 8 : Scan Failure UUIDDataType _).Bounded ⟨ptr, 16⟩ 0
          Failure.IsDecode :=
        .load (Nat.le_add_right ptr 8) le_rfl
      exact hfirst.bind_quiet fun _ => hsecond.bind_quiet fun _ => .update _

end UUIDBase

namespace StringBase

theorem bounded (hnonneg : 0 ≤ size) :
    (decodeBody ptr size).Bounded ⟨ptr, size.toNat⟩ 0 Failure.IsDecode := by
  rw [decodeBody, if_pos hnonneg]
  exact (Scan.Bounded.load le_rfl le_rfl).bind_quiet fun _ => .update _

end StringBase

namespace MemRef

theorem bounded (hnonneg : 0 ≤ size) :
    (decodeBody ptr size).Bounded ⟨ptr, size.toNat⟩ 0 Failure.IsDecode := by
  rw [decodeBody, if_pos hnonneg]
  exact .update _

end MemRef

/-- A class whose bodies complete no rounds. -/
theorem staysInside_of_quiet {α : Type} {init : α} {reset : α → α}
    {decodeBody : Nat → Int → Scan Failure α Unit}
    (h : ∀ ptr size, 0 ≤ size →
      (decodeBody ptr size).Bounded ⟨ptr, size.toNat⟩ 0 Failure.IsDecode) :
    (Pointer.column init reset decodeBody).StaysInside :=
  column_staysInside fun ptr size hnonneg => (h ptr size hnonneg).mono (Nat.zero_le _)

theorem scalarColumn_staysInside (s : Scalar) : (scalarColumn s).StaysInside := by
  cases s with
  | boolean | tinyInt | smallInt | int | bigInt | counter =>
    exact staysInside_of_quiet fun _ _ _ => bounded_decodeFixed ⟨_, rfl⟩ le_rfl le_rfl
  | ascii | text | blob => exact staysInside_of_quiet fun _ _ => StringBase.bounded
  | varInt => exact staysInside_of_quiet fun _ _ => VarInt.bounded le_rfl le_rfl
  | decimal => exact staysInside_of_quiet fun _ _ _ => Decimal.bounded
  | inet => exact staysInside_of_quiet fun _ _ _ => Inet.bounded

/-- Every scalar type stays inside. -/
theorem ScalarType.staysInside (calendar : Calendar) (type : ScalarType) :
    (type.column calendar).StaysInside := by
  cases type with
  | scalar s => exact scalarColumn_staysInside s
  | float | double | date | time | timestamp =>
    exact staysInside_of_quiet fun _ _ _ => bounded_decodeFixed ⟨_, rfl⟩ le_rfl le_rfl
  | uuid | timeUUID => exact staysInside_of_quiet fun _ _ _ => UUIDBase.bounded
  | memRef => exact staysInside_of_quiet fun _ _ => MemRef.bounded

end Pointer

end CqlDriver
