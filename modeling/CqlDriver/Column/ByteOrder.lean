import CqlDriver.Column.PointerScalars

/-!
# The byte order of scalars

On a little-endian host the least significant byte of a number is the first one in memory.
Integers and UUIDs are swapped before their bytes are appended and after bytes were copied;
floating point numbers are appended and copied as they are. What the driver writes for
one it reads back, but the bytes are those of the network only when they are the same in
both directions.

## Main definitions

* `inMemory`, `fromMemory`, `swapBytes` — numbers on a little-endian host
* `FloatingPointBase`, `UUIDBase`, `IntegerBase` — the three base classes on the host
* `FixedScalar` — the types with a fixed number of bytes
* `FixedScalar.NetworkOrder` — a pattern is written, read and refused in network byte order

## Main results

* `IntegerBase.encodeBodyOnHost_eq`, `IntegerBase.decodeBodyOnHost_eq` — what integers do
* `FixedScalar.networkOrder_iff` — floating point numbers need the same bytes in both directions
-/

namespace CqlDriver

open Math (Decode bigEndian ofBigEndian)

/-! ## The host -/

section Host

variable {size : Nat}

/-- The bytes of a number in memory, the least significant one first. -/
def inMemory (value : BitVec (8 * size)) : Bytes := (IntegerBase.toBytes value).reverse

/-- `std::memcpy(&value_, ptr, sizeof(value_))`. -/
def fromMemory (size : Nat) (bytes : Bytes) : BitVec (8 * size) :=
  IntegerBase.ofBytes size bytes.reverse

/-- `seastar::cpu_to_be` and `seastar::be_to_cpu`. -/
def swapBytes (value : BitVec (8 * size)) : BitVec (8 * size) :=
  IntegerBase.ofBytes size (IntegerBase.toBytes value).reverse

/-- A swapped number is in network byte order in memory. -/
theorem inMemory_swapBytes (value : BitVec (8 * size)) :
    inMemory (swapBytes value) = IntegerBase.toBytes value := by
  have hlength : (IntegerBase.toBytes value).reverse.length = size := by simp
  rw [inMemory, swapBytes, IntegerBase.toBytes_ofBytes hlength, List.reverse_reverse]

theorem swapBytes_fromMemory {bytes : Bytes} (h : bytes.length = size) :
    swapBytes (fromMemory size bytes) = IntegerBase.ofBytes size bytes := by
  have hlength : bytes.reverse.length = size := by simp [h]
  rw [swapBytes, fromMemory, IntegerBase.toBytes_ofBytes hlength, List.reverse_reverse]

theorem fromMemory_reverse (value : BitVec (8 * size)) :
    fromMemory size (IntegerBase.toBytes value).reverse = value := by
  rw [fromMemory, List.reverse_reverse, IntegerBase.ofBytes_toBytes]

end Host

/-- A value is written and read as its bytes in network order, and other lengths are refused. -/
structure NetworkOrder {α : Type} (encodeBody : α → Bytes → Bytes) (decodeBody : Decoder α Unit)
    (lengthNotMatched : Failure) (network : Bytes) (value : α) : Prop where
  encode : ∀ data, encodeBody value data = data ++ network
  decode : ∀ old, ∃ left, decodeBody ⟨old, network⟩ = .ok () ⟨value, left⟩
  reject : ∀ old body, body.length ≠ 0 → body.length ≠ network.length →
    ∃ left, decodeBody ⟨old, body⟩ = .error lengthNotMatched ⟨old, left⟩

/-! ## The base classes -/

namespace IntegerBase

variable {size : Nat}

/-- The bytes of the swapped value. -/
def encodeBodyOnHost (value : Value size) (data : Bytes) : Bytes :=
  data ++ inMemory (swapBytes value)

def decodeBodyOnHost (size : Nat) : Decoder (Value size) Unit :=
  decodeFixed size lengthNotMatched 0 fun body => swapBytes (fromMemory size body)

/-- Integers are written in network byte order. -/
theorem encodeBodyOnHost_eq (value : Value size) (data : Bytes) :
    encodeBodyOnHost value data = encodeBody value data := by
  rw [encodeBodyOnHost, inMemory_swapBytes, encodeBody]

/-- Integers are read in network byte order. -/
theorem decodeBodyOnHost_eq : decodeBodyOnHost size = decodeBody := by
  rw [decodeBodyOnHost, decodeBody]
  exact decodeFixed_congr fun body hlength => swapBytes_fromMemory hlength

theorem networkOrder (hpos : 0 < size) (value : Value size) :
    NetworkOrder encodeBodyOnHost (decodeBodyOnHost size) lengthNotMatched (toBytes value) value where
  encode data := encodeBodyOnHost_eq value data
  decode old := by
    refine ⟨toBytes value, ?_⟩
    rw [decodeBodyOnHost_eq, decodeBody_toBytes hpos]
  reject old body hne hlength := by
    rw [length_toBytes] at hlength
    exact ⟨body, decodeFixed_of_ne hne hlength⟩

end IntegerBase

namespace FloatingPointBase

/-- The bit pattern of a number. -/
abbrev Value (size : Nat) := BitVec (8 * size)

/-- The bytes are appended as they are. -/
def encodeBody {size : Nat} (value : Value size) (data : Bytes) : Bytes := data ++ inMemory value

/-- The bytes are copied as they are. -/
def decodeBody (size : Nat) : Decoder (Value size) Unit :=
  decodeFixed size Pointer.FloatingPointBase.lengthNotMatched 0 (fromMemory size)

/-- The driver reads back what it has written, in either case. -/
theorem decodeBody_encodeBody {size : Nat} (hpos : 0 < size) (value old : Value size) :
    decodeBody size ⟨old, encodeBody value []⟩ = .ok () ⟨value, encodeBody value []⟩ := by
  have hlength : (encodeBody value []).length = size := by simp [encodeBody, inMemory]
  rw [decodeBody, decodeFixed_of_length hpos hlength]
  simp [encodeBody, inMemory, fromMemory_reverse]

/-- What is in memory is in network byte order when it is the same in both directions. -/
theorem networkOrder_iff {size : Nat} (hpos : 0 < size) (value : Value size) :
    NetworkOrder encodeBody (decodeBody size) Pointer.FloatingPointBase.lengthNotMatched
        (IntegerBase.toBytes value) value ↔
      (IntegerBase.toBytes value).reverse = IntegerBase.toBytes value := by
  have hlength := IntegerBase.length_toBytes value
  constructor
  · intro horder
    exact horder.encode []
  · intro hsame
    refine ⟨fun data => ?_, fun old => ⟨IntegerBase.toBytes value, ?_⟩, fun old body hne hother => ?_⟩
    · rw [encodeBody, inMemory, hsame]
    · have hread : fromMemory size (IntegerBase.toBytes value) = value := by
        rw [← hsame, fromMemory_reverse]
      rw [decodeBody, decodeFixed_of_length hpos hlength, hread]
    · rw [hlength] at hother
      exact ⟨body, decodeFixed_of_ne hne hother⟩

end FloatingPointBase

namespace UUIDBase

/-- The bytes of both halves, each swapped. -/
def encodeBody (value : UUIDDataType) (data : Bytes) : Bytes :=
  let highBitsBe := @swapBytes 8 value.1.toBitVec
  let lowBitsBe := @swapBytes 8 value.2.toBitVec
  data ++ inMemory highBitsBe ++ inMemory lowBitsBe

def ofBytes (body : Bytes) : UUIDDataType :=
  (UInt64.ofBitVec (swapBytes (fromMemory 8 (body.take 8))),
    UInt64.ofBitVec (swapBytes (fromMemory 8 (body.drop 8))))

def decodeBody : Decoder UUIDDataType Unit :=
  decodeFixed 16 Pointer.UUIDBase.lengthNotMatched (0, 0) ofBytes

/-- The bit pattern of both halves. -/
def pattern (value : UUIDDataType) : Nat := value.1.toNat * 2 ^ 64 + value.2.toNat

theorem bigEndian_pattern (value : UUIDDataType) : bigEndian 16 (pattern value) =
    @IntegerBase.toBytes 8 value.1.toBitVec ++ @IntegerBase.toBytes 8 value.2.toBitVec :=
  Math.bigEndian_append 8 8 value.2.toNat_lt

theorem encodeBody_eq (value : UUIDDataType) (data : Bytes) :
    encodeBody value data = data ++ bigEndian 16 (pattern value) := by
  rw [bigEndian_pattern, encodeBody, inMemory_swapBytes, inMemory_swapBytes, List.append_assoc]

theorem ofBytes_pattern (value : UUIDDataType) : ofBytes (bigEndian 16 (pattern value)) = value := by
  have hlength := @IntegerBase.length_toBytes 8 value.1.toBitVec
  have hlength' := @IntegerBase.length_toBytes 8 value.2.toBitVec
  rw [bigEndian_pattern, ofBytes, List.take_left' hlength, List.drop_left' hlength,
    swapBytes_fromMemory hlength, swapBytes_fromMemory hlength', IntegerBase.ofBytes_toBytes,
    IntegerBase.ofBytes_toBytes]

theorem networkOrder (value : UUIDDataType) :
    NetworkOrder encodeBody decodeBody Pointer.UUIDBase.lengthNotMatched
      (bigEndian 16 (pattern value)) value where
  encode data := encodeBody_eq value data
  decode old := by
    refine ⟨bigEndian 16 (pattern value), ?_⟩
    rw [decodeBody, decodeFixed_of_length (by decide) (Math.length_bigEndian 16 _), ofBytes_pattern]
  reject old body hne hlength := by
    rw [Math.length_bigEndian] at hlength
    exact ⟨body, decodeFixed_of_ne hne hlength⟩

end UUIDBase

/-! ## The types -/

/-- The types with a fixed number of bytes. -/
inductive FixedScalar
  | tinyInt
  | smallInt
  | int
  | bigInt
  | counter
  | float
  | double
  | uuid
  | timeUUID
  deriving DecidableEq, Repr

namespace FixedScalar

/-- `EncodeSize`. -/
def encodeSize : FixedScalar → Nat
  | tinyInt => 1
  | smallInt => 2
  | int => 4
  | bigInt | counter => 8
  | float => 4
  | double => 8
  | uuid | timeUUID => 16

abbrev Value : FixedScalar → Type
  | tinyInt => IntegerBase.Value 1
  | smallInt => IntegerBase.Value 2
  | int => IntegerBase.Value 4
  | bigInt | counter => IntegerBase.Value 8
  | float => FloatingPointBase.Value 4
  | double => FloatingPointBase.Value 8
  | uuid | timeUUID => UUIDDataType

def encodeBody : (s : FixedScalar) → s.Value → Bytes → Bytes
  | tinyInt | smallInt | int | bigInt | counter => IntegerBase.encodeBodyOnHost
  | float | double => FloatingPointBase.encodeBody
  | uuid | timeUUID => UUIDBase.encodeBody

def decodeBody : (s : FixedScalar) → Decoder s.Value Unit
  | tinyInt => IntegerBase.decodeBodyOnHost 1
  | smallInt => IntegerBase.decodeBodyOnHost 2
  | int => IntegerBase.decodeBodyOnHost 4
  | bigInt | counter => IntegerBase.decodeBodyOnHost 8
  | float => FloatingPointBase.decodeBody 4
  | double => FloatingPointBase.decodeBody 8
  | uuid | timeUUID => UUIDBase.decodeBody

def lengthNotMatched : FixedScalar → Failure
  | tinyInt | smallInt | int | bigInt | counter => IntegerBase.lengthNotMatched
  | float | double => Pointer.FloatingPointBase.lengthNotMatched
  | uuid | timeUUID => Pointer.UUIDBase.lengthNotMatched

/-- The bit pattern of a value. -/
def pattern : (s : FixedScalar) → s.Value → Nat
  | tinyInt, value => value.toNat
  | smallInt, value => value.toNat
  | int, value => value.toNat
  | bigInt, value | counter, value => value.toNat
  | float, value => value.toNat
  | double, value => value.toNat
  | uuid, value | timeUUID, value => UUIDBase.pattern value

/-- The pattern in network byte order. -/
def network (s : FixedScalar) (value : s.Value) : Bytes := bigEndian s.encodeSize (s.pattern value)

def IsFloatingPoint (s : FixedScalar) : Prop := s = float ∨ s = double

/-- What holds of a bit pattern of a type. -/
def InNetworkOrder (s : FixedScalar) (value : s.Value) : Prop :=
  NetworkOrder s.encodeBody s.decodeBody s.lengthNotMatched (s.network value) value

/-- Integers and UUIDs keep to the network byte order. -/
theorem inNetworkOrder_of_not (s : FixedScalar) (value : s.Value) (h : ¬ s.IsFloatingPoint) :
    s.InNetworkOrder value := by
  cases s with
  | tinyInt => exact IntegerBase.networkOrder (by decide) value
  | smallInt => exact IntegerBase.networkOrder (by decide) value
  | int => exact IntegerBase.networkOrder (by decide) value
  | bigInt | counter => exact IntegerBase.networkOrder (by decide) value
  | float => exact absurd (Or.inl rfl) h
  | double => exact absurd (Or.inr rfl) h
  | uuid | timeUUID => exact UUIDBase.networkOrder value

/-- All types keep to the network byte order but the floating point ones, which do for the patterns
whose bytes are the same in both directions. -/
theorem inNetworkOrder_iff (s : FixedScalar) (value : s.Value) :
    s.InNetworkOrder value ↔
      (s.IsFloatingPoint → (s.network value).reverse = s.network value) := by
  by_cases hfloating : s.IsFloatingPoint
  · rw [forall_prop_of_true hfloating]
    rcases hfloating with rfl | rfl
    · exact FloatingPointBase.networkOrder_iff (by decide) value
    · exact FloatingPointBase.networkOrder_iff (by decide) value
  · rw [forall_prop_of_false hfloating]
    exact iff_of_true (inNetworkOrder_of_not s value hfloating) trivial

/-- The number one is written from its last byte on. -/
theorem not_inNetworkOrder_one : ¬ ∀ (s : FixedScalar) (value : s.Value), s.InNetworkOrder value := by
  intro hall
  have hwritten := (hall .float 0x3f800000).encode []
  exact absurd hwritten (by decide)

end FixedScalar

end CqlDriver
