import CqlDriver.Common.Exception
import CqlDriver.Math.Decode

/-!
# Integers, strings and bytes of the protocol

The types of `ProtocolTypes` that stand alone. Integers and the length before a
string are in network byte order. A decode function throws before it writes, so its
result is the new value of the object and nothing else has to be kept.

## Main definitions

* `Failure` — why a decode function did not return
* `ProtocolShort.decode`, `ProtocolInt.decode`, `ProtocolUUID.decode` — integers
* `ProtocolString`, `ProtocolLongString`, `ProtocolBytes`, `ProtocolValue` — bytes with their
  length in front

## Main results

* `ProtocolString.decode_append`, `ProtocolBytes.decode_append`,
  `ProtocolUUID.decode_append` — what was encoded is decoded
-/

namespace CqlDriver

open Math (Decode Cursor bigEndian ofBigEndian toSigned ofSigned)

/-- Bytes of a frame or a string. -/
abbrev Bytes := List UInt8

/-- Why a decode function did not return. -/
inductive Failure
  | exception (exception : Exception)
  /-- An object was used after the end of its life. -/
  | undefined
  /-- A nesting deeper than the bound the model recurses to. -/
  | tooDeep
  deriving DecidableEq, Repr

/-- A decode function of the driver. -/
abbrev Decoder (σ α : Type) := Decode Failure σ α

/-- `throw DecodeException(CQL_CODEINFO, "length not enough")`. -/
def lengthNotEnough : Failure := .exception (decodeException "length not enough")

/-- `throw EncodeException(CQL_CODEINFO, "length too long")`. -/
def lengthTooLong : Failure := .exception (encodeException "length too long")

variable {σ : Type} {x : σ} {value rest : Bytes}

/-- Bytes that are appended, or an exception. -/
abbrev Encoded := Except Failure Bytes

theorem ok_bind {α β : Type} (a : α) (f : α → Except Failure β) : (Except.ok a >>= f) = f a := rfl

theorem exists_of_bind_eq_ok {α β : Type} {m : Except Failure α} {f : α → Except Failure β} {b : β}
    (h : m >>= f = .ok b) : ∃ a, m = .ok a ∧ f a = .ok b := by
  cases m with
  | error failure => cases h
  | ok a => exact ⟨a, rfl, h⟩

/-- Run an encode function while decoding. -/
def ofEncoded (encoded : Encoded) : Decoder σ Bytes :=
  match encoded with
  | .ok bytes => pure bytes
  | .error failure => throw failure

/-! ## Integers -/

/-- A 1 byte unsigned integer. -/
def ProtocolByte.decode : Decoder σ Nat := Math.number lengthNotEnough 1

def ProtocolByte.encode (value : Nat) : Bytes := bigEndian 1 value

/-- A 2 bytes unsigned integer. -/
def ProtocolShort.decode : Decoder σ Nat := Math.number lengthNotEnough 2

def ProtocolShort.encode (value : Nat) : Bytes := bigEndian 2 value

/-- A 4 bytes signed integer. -/
def ProtocolInt.decode : Decoder σ Int := do
  return toSigned 32 (← Math.number lengthNotEnough 4)

def ProtocolInt.encode (value : Int) : Bytes := bigEndian 4 (ofSigned 32 value)

/-- A 8 bytes signed integer. -/
def ProtocolLong.decode : Decoder σ Int := do
  return toSigned 64 (← Math.number lengthNotEnough 8)

def ProtocolLong.encode (value : Int) : Bytes := bigEndian 8 (ofSigned 64 value)

/-- A `std::size_t` as an `int`. -/
def intOfSize (n : Nat) : Int := toSigned 32 (n % 2 ^ 32)

theorem intOfSize_eq {n : Nat} (h : n < 2 ^ 31) : intOfSize n = n := by
  have hmod : n % 2 ^ 32 = n := Nat.mod_eq_of_lt (by omega)
  rw [intOfSize, hmod, toSigned, if_pos h]

theorem ProtocolByte.decode_append {n : Nat} (h : n < 2 ^ 8) :
    ProtocolByte.decode (⟨x, ProtocolByte.encode n ++ rest⟩ : Cursor σ) = .ok n ⟨x, rest⟩ :=
  Math.number_append h

theorem ProtocolLong.decode_append {i : Int} (hge : -2 ^ 63 ≤ i) (hlt : i < 2 ^ 63) :
    ProtocolLong.decode (⟨x, ProtocolLong.encode i ++ rest⟩ : Cursor σ) = .ok i ⟨x, rest⟩ := by
  have hfits : ofSigned 64 i < 256 ^ 8 := by
    rw [ofSigned]
    omega
  have hsigned : toSigned 64 (ofSigned 64 i) = i := by
    rw [toSigned, ofSigned]
    split <;> omega
  rw [ProtocolLong.encode, ProtocolLong.decode, Decode.bind_ok (Math.number_append hfits), hsigned]
  rfl

theorem ProtocolShort.decode_append {n : Nat} (h : n < 2 ^ 16) :
    ProtocolShort.decode (⟨x, ProtocolShort.encode n ++ rest⟩ : Cursor σ) = .ok n ⟨x, rest⟩ :=
  Math.number_append h

theorem ProtocolInt.decode_append {n : Nat} (h : n < 2 ^ 31) :
    ProtocolInt.decode (⟨x, ProtocolInt.encode n ++ rest⟩ : Cursor σ) = .ok (n : Int) ⟨x, rest⟩ := by
  have hfits : ofSigned 32 (n : Int) = n := by
    rw [ofSigned]
    omega
  have hsigned : toSigned 32 n = n := by
    rw [toSigned, if_pos h]
  rw [ProtocolInt.encode, ProtocolInt.decode, hfits,
    Decode.bind_ok (Math.number_append (show n < 256 ^ 4 by omega)), hsigned]
  rfl

/-- A length is written modulo 2^32. -/
theorem ProtocolInt.encode_natCast (n : Nat) : ProtocolInt.encode (n : Int) = bigEndian 4 n := by
  have hmod : ofSigned 32 (n : Int) = n % 256 ^ 4 := by
    rw [ofSigned]
    omega
  have hsplit : n / 256 ^ 4 * 256 ^ 4 + n % 256 ^ 4 = n := Nat.div_add_mod' n _
  rw [ProtocolInt.encode, hmod]
  conv_rhs => rw [← hsplit, Math.bigEndian_add_mul]

theorem ProtocolInt.decode_encode {i : Int} (hnonneg : 0 ≤ i) (hlt : i.toNat < 2 ^ 31) :
    ProtocolInt.decode (⟨x, ProtocolInt.encode i ++ rest⟩ : Cursor σ) = .ok i ⟨x, rest⟩ := by
  obtain ⟨n, rfl⟩ := Int.eq_ofNat_of_zero_le hnonneg
  exact ProtocolInt.decode_append (by omega)

/-- A negative length, as `ProtocolBytes` writes it for null. -/
theorem ProtocolInt.decode_minus_one :
    ProtocolInt.decode (⟨x, ProtocolInt.encode (-1) ++ rest⟩ : Cursor σ) =
      .ok (-1 : Int) ⟨x, rest⟩ := by
  have hfits : ofSigned 32 (-1) = 2 ^ 32 - 1 := by decide
  rw [ProtocolInt.encode, ProtocolInt.decode, hfits,
    Decode.bind_ok (Math.number_append (show 2 ^ 32 - 1 < 256 ^ 4 by decide))]
  rfl

/-! ## Strings and bytes -/

/-- A [short] n, followed by n bytes. -/
def ProtocolString.decode : Decoder σ Bytes := do
  let size ← ProtocolShort.decode
  Math.take lengthNotEnough size

def ProtocolString.encode (value : Bytes) : Encoded :=
  if 2 ^ 16 - 1 < value.length then .error lengthTooLong
  else .ok (ProtocolShort.encode value.length ++ value)

/-- A [int] n, followed by n bytes if n is not negative; `none` is null. -/
def ProtocolBytes.decode : Decoder σ (Option Bytes) := do
  let size ← ProtocolInt.decode
  if 0 ≤ size then
    return some (← Math.take lengthNotEnough size.toNat)
  else
    -- the specification didn't said negative value other than -1 is invalid
    return none

def ProtocolBytes.encode : Option Bytes → Encoded
  | none => .ok (ProtocolInt.encode (-1))
  | some value =>
    if 2 ^ 31 - 1 < value.length then .error lengthTooLong
    else .ok (ProtocolInt.encode value.length ++ value)

theorem ProtocolString.encode_eq (h : value.length < 2 ^ 16) :
    ProtocolString.encode value = .ok (ProtocolShort.encode value.length ++ value) :=
  if_neg (by omega)

/-- A string that fits is read back. -/
theorem ProtocolString.decode_append (h : value.length < 2 ^ 16) :
    ProtocolString.decode
        (⟨x, ProtocolShort.encode value.length ++ value ++ rest⟩ : Cursor σ) =
      .ok value ⟨x, rest⟩ := by
  rw [ProtocolString.decode, List.append_assoc, Decode.bind_ok (ProtocolShort.decode_append h)]
  exact Math.take_append rfl

theorem ProtocolBytes.decode_append {encoded : Bytes} {value : Option Bytes}
    (h : ProtocolBytes.encode value = .ok encoded) :
    ProtocolBytes.decode (⟨x, encoded ++ rest⟩ : Cursor σ) = .ok value ⟨x, rest⟩ := by
  cases value with
  | none =>
    cases h
    rw [ProtocolBytes.decode, Decode.bind_ok ProtocolInt.decode_minus_one]
    rfl
  | some value =>
    rw [ProtocolBytes.encode] at h
    split at h
    · cases h
    next hle =>
      cases h
      have hlt : value.length < 2 ^ 31 := by omega
      have hpos : (0 : Int) ≤ value.length := Int.natCast_nonneg _
      rw [ProtocolBytes.decode, List.append_assoc, Decode.bind_ok (ProtocolInt.decode_append hlt),
        if_pos hpos, Decode.bind_ok (Math.take_append (Int.toNat_natCast _).symm)]
      rfl

/-! ## Long strings and values -/

/-- A [int] n, followed by n bytes of a string. -/
def ProtocolLongString.decode : Decoder σ Bytes := do
  let size ← ProtocolInt.decode
  if 0 ≤ size then
    Math.take lengthNotEnough size.toNat
  else
    throw (.exception (decodeException "string length is negative"))

/-- A [short] n, followed by n bytes. -/
def ProtocolShortBytes.decode : Decoder σ Bytes := ProtocolString.decode

/-- A [value]: not set, null, or some bytes. -/
inductive ProtocolValue
  | normal (value : Bytes)
  | null
  | notSet
  deriving DecidableEq, Repr

/-- A [int] n, followed by n bytes if n is not negative. -/
def ProtocolValue.decode : Decoder σ ProtocolValue := do
  let size ← ProtocolInt.decode
  if 0 ≤ size then
    return .normal (← Math.take lengthNotEnough size.toNat)
  else if size = -1 then
    return .null
  else if size = -2 then
    return .notSet
  else
    throw (.exception (decodeException "invalid negative string length"))

theorem ProtocolLongString.decode_append (h : value.length < 2 ^ 31) :
    ProtocolLongString.decode
        (⟨x, ProtocolInt.encode value.length ++ value ++ rest⟩ : Cursor σ) =
      .ok value ⟨x, rest⟩ := by
  have hpos : (0 : Int) ≤ value.length := Int.natCast_nonneg _
  rw [ProtocolLongString.decode, List.append_assoc, Decode.bind_ok (ProtocolInt.decode_append h),
    if_pos hpos]
  exact Math.take_append (Int.toNat_natCast _).symm

theorem ProtocolValue.decode_normal (h : value.length < 2 ^ 31) :
    ProtocolValue.decode
        (⟨x, ProtocolInt.encode value.length ++ value ++ rest⟩ : Cursor σ) =
      .ok (.normal value) ⟨x, rest⟩ := by
  have hpos : (0 : Int) ≤ value.length := Int.natCast_nonneg _
  rw [ProtocolValue.decode, List.append_assoc, Decode.bind_ok (ProtocolInt.decode_append h),
    if_pos hpos, Decode.bind_ok (Math.take_append (Int.toNat_natCast _).symm)]
  rfl

theorem ProtocolValue.decode_null :
    ProtocolValue.decode (⟨x, ProtocolInt.encode (-1) ++ rest⟩ : Cursor σ) =
      .ok .null ⟨x, rest⟩ := by
  rw [ProtocolValue.decode, Decode.bind_ok ProtocolInt.decode_minus_one]
  rfl

/-! ## UUIDs -/

/-- A 16 bytes universally unique identifier, in two halves. -/
structure ProtocolUUID where
  high : Nat
  low : Nat
  deriving DecidableEq, Repr

def ProtocolUUID.decode : Decoder σ ProtocolUUID := do
  let bytes ← Math.take lengthNotEnough 16
  return ⟨ofBigEndian (bytes.take 8), ofBigEndian (bytes.drop 8)⟩

def ProtocolUUID.encode (uuid : ProtocolUUID) : Bytes :=
  bigEndian 8 uuid.high ++ bigEndian 8 uuid.low

theorem ProtocolUUID.decode_append {uuid : ProtocolUUID} (hhigh : uuid.high < 2 ^ 64)
    (hlow : uuid.low < 2 ^ 64) :
    ProtocolUUID.decode (⟨x, uuid.encode ++ rest⟩ : Cursor σ) = .ok uuid ⟨x, rest⟩ := by
  have hlength : uuid.encode.length = 16 := by
    rw [ProtocolUUID.encode, List.length_append, Math.length_bigEndian, Math.length_bigEndian]
  rw [ProtocolUUID.decode, Decode.bind_ok (Math.take_append hlength), ProtocolUUID.encode,
    List.take_left' (Math.length_bigEndian 8 _), List.drop_left' (Math.length_bigEndian 8 _),
    Math.ofBigEndian_bigEndian hhigh, Math.ofBigEndian_bigEndian hlow]
  rfl

end CqlDriver
