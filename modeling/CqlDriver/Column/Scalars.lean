import CqlDriver.Column.ColumnTrait

/-!
# Integers, strings, decimals and addresses

An integer, a decimal or an address also reads an empty body, as zero. A variable length
integer drops the leading bytes that its sign puts back.

## Main definitions

* `decodeFixed` — what the decoders of a fixed number of bytes share
* `IntegerBase.column`, `StringBase.column`, `VarInt.column`, `Decimal.column`, `Inet.column`
* `Scalar` — the types, each with its class

## Main results

* `VarInt.pad_trim` — the bytes that were dropped are put back
* `Scalar.bodyRoundTrip` — every scalar type round trips
-/

namespace CqlDriver

open Math (Decode Cursor bigEndian ofBigEndian)

/-! ## Fixed sizes -/

section Fixed

variable {α : Type} {size : Nat} {lengthNotMatched : Failure} {initial old : α}
  {ofBytes : Bytes → α} {body : Bytes}

/-- The decoder of integers, floating point numbers, UUIDs, dates and times: the initial state, or a
number of bytes that is fixed. -/
def decodeFixed (size : Nat) (lengthNotMatched : Failure) (initial : α) (ofBytes : Bytes → α) :
    Decoder α Unit := do
  let body ← Decode.remaining
  if body.length = 0 then
    Decode.update fun _ => initial -- empty
  else if body.length ≠ size then
    throw lengthNotMatched
  else
    Decode.update fun _ => ofBytes body

theorem decodeFixed_of_length (hpos : 0 < size) (h : body.length = size) :
    decodeFixed size lengthNotMatched initial ofBytes ⟨old, body⟩ = .ok () ⟨ofBytes body, body⟩ := by
  rw [decodeFixed, Decode.bind_ok Decode.remaining_apply]
  rw [if_neg (by dsimp only; omega), if_neg (by dsimp only; omega), Decode.update_apply]

/-- A refused body leaves the value. -/
theorem decodeFixed_of_ne (hne : body.length ≠ 0) (h : body.length ≠ size) :
    decodeFixed size lengthNotMatched initial ofBytes ⟨old, body⟩ =
      .error lengthNotMatched ⟨old, body⟩ := by
  rw [decodeFixed, Decode.bind_ok Decode.remaining_apply]
  rw [if_neg hne, if_pos h]
  rfl

/-- Only what is read from bodies of the fixed length matters. -/
theorem decodeFixed_congr {other : Bytes → α}
    (h : ∀ body : Bytes, body.length = size → ofBytes body = other body) :
    decodeFixed size lengthNotMatched initial ofBytes =
      decodeFixed size lengthNotMatched initial other := by
  funext ⟨old, body⟩
  rw [decodeFixed, decodeFixed, Decode.bind_ok Decode.remaining_apply,
    Decode.bind_ok Decode.remaining_apply]
  dsimp only
  split
  · rfl
  · split
    · rfl
    next hlength => rw [h body (not_not.mp hlength)]

end Fixed

/-! ## Integers -/

namespace IntegerBase

/-- An integer of `size` bytes. -/
abbrev Value (size : Nat) := BitVec (8 * size)

variable {size : Nat}

/-- The conversion from a `std::size_t`. -/
def ofNat (size n : Nat) : Value size := BitVec.ofNat (8 * size) n

/-- The value that some bytes stand for. -/
def ofBytes (size : Nat) (bytes : Bytes) : Value size := ofNat size (ofBigEndian bytes)

/-- The bytes of a value in network byte order. -/
def toBytes (value : Value size) : Bytes := bigEndian size value.toNat

def lengthNotMatched : Failure :=
  .exception (decodeException "integer length not matched, expected to be")

def encodeBody (value : Value size) (data : Bytes) : Bytes := data ++ toBytes value

def decodeBody : Decoder (Value size) Unit :=
  decodeFixed size lengthNotMatched 0 (ofBytes size)

def column (size : Nat) : ColumnClass (Value size) :=
  ColumnTrait.column 0 (fun _ => 0) encodeBody decodeBody

@[simp] theorem length_toBytes (value : Value size) : (toBytes value).length = size :=
  Math.length_bigEndian size _

theorem ofBytes_toBytes (value : Value size) : ofBytes size (toBytes value) = value := by
  have hlt : value.toNat < 256 ^ size := by
    have hpow : 2 ^ (8 * size) = 256 ^ size := by rw [Nat.pow_mul]
    exact hpow ▸ value.isLt
  rw [ofBytes, ofNat, toBytes, Math.ofBigEndian_bigEndian hlt, BitVec.ofNat_toNat, BitVec.setWidth_eq]

theorem toBytes_inj {x y : Value size} : toBytes x = toBytes y ↔ x = y := by
  constructor
  · intro hbytes
    have hvalues := congrArg (ofBytes size) hbytes
    rwa [ofBytes_toBytes, ofBytes_toBytes] at hvalues
  · rintro rfl
    rfl

theorem toBytes_ofBytes {bytes : Bytes} (h : bytes.length = size) :
    toBytes (ofBytes size bytes) = bytes := by
  have hlt : ofBigEndian bytes < 2 ^ (8 * size) := by
    rw [Nat.pow_mul, ← h]
    exact Math.ofBigEndian_lt bytes
  rw [toBytes, ofBytes, ofNat, BitVec.toNat_ofNat, Nat.mod_eq_of_lt hlt, ← h, Math.bigEndian_ofBigEndian]

theorem decodeBody_toBytes (hsize : 0 < size) (value old : Value size) :
    decodeBody ⟨old, toBytes value⟩ = .ok () ⟨value, toBytes value⟩ := by
  rw [decodeBody, decodeFixed_of_length hsize (length_toBytes value), ofBytes_toBytes]

theorem bodyRoundTrip (hsize : 0 < size) : (column size).BodyRoundTrip (fun _ => True) Eq where
  encode_eq _ _ := rfl
  encodeBody_eq _ _ := rfl
  decodeBody_encodeBody value _ _ old :=
    ⟨value, toBytes value, decodeBody_toBytes hsize value old, rfl⟩

end IntegerBase

/-! ## Strings -/

namespace StringBase

def encodeBody (value data : Bytes) : Bytes := data ++ value

def decodeBody : Decoder Bytes Unit := do
  let body ← Decode.remaining
  Decode.update fun _ => body

def column : ColumnClass Bytes := ColumnTrait.column [] (fun _ => []) encodeBody decodeBody

theorem bodyRoundTrip : column.BodyRoundTrip (fun _ => True) Eq where
  encode_eq _ _ := rfl
  encodeBody_eq _ _ := rfl
  decodeBody_encodeBody value _ _ _ := ⟨value, value, rfl, rfl⟩

end StringBase

/-! ## Variable length integers -/

namespace VarInt

/-- The values a variable length integer can hold. -/
abbrev Value := IntegerBase.Value 8

/-- The most significant bit of a byte. -/
def isNegative (byte : UInt8) : Bool := byte &&& 0x80 ≠ 0

/-- Drop leading bytes that the sign of the next one puts back. -/
def trim : Bytes → Bytes
  | first :: second :: rest =>
    if (first = 0 ∧ isNegative second = false) ∨ (first = 0xff ∧ isNegative second = true) then
      trim (second :: rest)
    else
      first :: second :: rest
  | bytes => bytes

/-- Put copies of the sign in front, up to eight bytes. -/
def pad : Bytes → Bytes
  | [] => []
  | first :: rest =>
    List.replicate (8 - (rest.length + 1)) (if isNegative first then 0xff else 0) ++ first :: rest

def tooLarge : Failure :=
  .exception (decodeException "varint is too large, it's not supported to decode, size is")

def encodeBody (value : Value) (data : Bytes) : Bytes := data ++ trim (IntegerBase.toBytes value)

def decodeBody : Decoder Value Unit := do
  let body ← Decode.remaining
  if body.length = 0 then
    Decode.update fun _ => 0 -- empty
  else if 8 < body.length then
    throw tooLarge
  else
    Decode.update fun _ => IntegerBase.ofBytes 8 (pad body)

def column : ColumnClass Value := ColumnTrait.column 0 (fun _ => 0) encodeBody decodeBody

theorem length_trim_le (bytes : Bytes) : (trim bytes).length ≤ bytes.length := by
  fun_induction trim bytes with
  | case1 first second rest h ih => exact ih.trans (Nat.le_succ _)
  | case2 => exact le_rfl
  | case3 => exact le_rfl

theorem trim_ne_nil {bytes : Bytes} (h : bytes ≠ []) : trim bytes ≠ [] := by
  fun_induction trim bytes with
  | case1 first second rest _ ih => exact ih (List.cons_ne_nil _ _)
  | case2 => exact List.cons_ne_nil _ _
  | case3 => exact h

/-- Dropping bytes does not change what padding makes of them. -/
theorem pad_trim_eq {bytes : Bytes} (h : bytes.length ≤ 8) : pad (trim bytes) = pad bytes := by
  fun_induction trim bytes with
  | case1 first second rest hdrop ih =>
    rw [List.length_cons, List.length_cons] at h
    rw [ih (by rw [List.length_cons]; omega)]
    -- the dropped byte is one of the copies of the sign
    have hsign : first = (if isNegative second then 0xff else 0) ∧
        isNegative first = isNegative second := by
      rcases hdrop with ⟨rfl, hsecond⟩ | ⟨rfl, hsecond⟩
      · rw [hsecond]
        exact ⟨rfl, rfl⟩
      · rw [hsecond]
        exact ⟨rfl, rfl⟩
    have hcount : 8 - (rest.length + 1) = 8 - (rest.length + 1 + 1) + 1 := by omega
    rw [pad, pad, hsign.2, List.length_cons, hcount, List.replicate_succ', List.append_assoc,
      ← hsign.1, List.singleton_append]
  | case2 => rfl
  | case3 => rfl

/-- The bytes that were dropped are put back. -/
theorem pad_trim {bytes : Bytes} (h : bytes.length = 8) : pad (trim bytes) = bytes := by
  rw [pad_trim_eq (Nat.le_of_eq h)]
  cases bytes with
  | nil => cases h
  | cons first rest =>
    rw [List.length_cons] at h
    rw [pad, h, Nat.sub_self, List.replicate_zero, List.nil_append]

theorem decodeBody_trim (value old : Value) :
    decodeBody ⟨old, trim (IntegerBase.toBytes value)⟩ =
      .ok () ⟨value, trim (IntegerBase.toBytes value)⟩ := by
  have hlength : (IntegerBase.toBytes value).length = 8 := IntegerBase.length_toBytes value
  have hle := length_trim_le (IntegerBase.toBytes value)
  have hne : (trim (IntegerBase.toBytes value)).length ≠ 0 := by
    refine fun hzero => trim_ne_nil ?_ (List.length_eq_zero_iff.mp hzero)
    intro hnil
    rw [hnil] at hlength
    cases hlength
  rw [decodeBody, Decode.bind_ok (Decode.remaining_apply)]
  dsimp only
  rw [if_neg hne, if_neg (by omega), Decode.update_apply, pad_trim hlength,
    IntegerBase.ofBytes_toBytes]

theorem bodyRoundTrip : column.BodyRoundTrip (fun _ => True) Eq where
  encode_eq _ _ := rfl
  encodeBody_eq value data := by
    show data ++ _ = data ++ ([] ++ _)
    rw [List.nil_append]
  decodeBody_encodeBody value _ _ old := ⟨value, _, decodeBody_trim value old, rfl⟩

example : VarInt.encodeBody 0x80 [] = [0x00, 0x80] := by decide

example : VarInt.encodeBody (-129) [] = [0xff, 0x7f] := by decide

end VarInt

/-! ## Decimals -/

namespace Decimal

/-- The scale and the unscaled value. -/
abbrev Value := IntegerBase.Value 4 × VarInt.Value

def lengthNotEnough : Failure :=
  .exception (decodeException "date length not enough, should be atleast")

def encodeBody (value : Value) (data : Bytes) : Bytes :=
  VarInt.encodeBody value.2 (IntegerBase.encodeBody value.1 data)

def decodeBody : Decoder Value Unit := do
  let body ← Decode.remaining
  if body.length = 0 then
    Decode.update fun _ => (0, 0) -- empty
  else if body.length < 4 + 1 then
    throw lengthNotEnough
  else
    Decode.on Prod.fst (fun scale value => (scale, value.2))
      (Decode.inside (body.take 4) IntegerBase.decodeBody)
    Decode.on Prod.snd (fun unscaled value => (value.1, unscaled))
      (Decode.inside (body.drop 4) VarInt.decodeBody)

def column : ColumnClass Value :=
  ColumnTrait.column (0, 0) (fun _ => (0, 0)) encodeBody decodeBody

theorem bodyRoundTrip : column.BodyRoundTrip (fun _ => True) Eq where
  encode_eq _ _ := rfl
  encodeBody_eq value data := by
    show data ++ _ ++ _ = data ++ ([] ++ _ ++ _)
    rw [List.nil_append, List.append_assoc]
  decodeBody_encodeBody value _ _ old := by
    let body := IntegerBase.toBytes value.1 ++ VarInt.trim (IntegerBase.toBytes value.2)
    have hscale : (IntegerBase.toBytes value.1).length = 4 := IntegerBase.length_toBytes value.1
    have hunscaled : VarInt.trim (IntegerBase.toBytes value.2) ≠ [] := by
      refine VarInt.trim_ne_nil fun hnil => ?_
      have hlength : (IntegerBase.toBytes value.2).length = 8 := IntegerBase.length_toBytes value.2
      rw [hnil] at hlength
      cases hlength
    have hlength : 5 ≤ body.length := by
      have hpos := List.length_pos_iff.mpr hunscaled
      rw [List.length_append, hscale]
      omega
    refine ⟨value, body, ?_, rfl⟩
    show decodeBody ⟨old, body⟩ = _
    have hfirst : Decode.on Prod.fst (fun scale value => (scale, value.2))
        (Decode.inside (body.take 4) IntegerBase.decodeBody) ⟨old, body⟩ =
          .ok () ⟨(value.1, old.2), body⟩ := by
      have hdecode : Decode.inside (IntegerBase.toBytes value.1) IntegerBase.decodeBody
          ⟨old.1, body⟩ = .ok () ⟨value.1, body⟩ :=
        Decode.inside_ok (IntegerBase.decodeBody_toBytes (by decide) value.1 old.1)
      rw [List.take_left' hscale]
      simp only [Decode.on, hdecode]
    have hsecond : Decode.on Prod.snd (fun unscaled value => (value.1, unscaled))
        (Decode.inside (body.drop 4) VarInt.decodeBody) ⟨(value.1, old.2), body⟩ =
          .ok () ⟨value, body⟩ := by
      have hdecode : Decode.inside (VarInt.trim (IntegerBase.toBytes value.2)) VarInt.decodeBody
          ⟨old.2, body⟩ = .ok () ⟨value.2, body⟩ :=
        Decode.inside_ok (VarInt.decodeBody_trim value.2 old.2)
      rw [List.drop_left' hscale]
      simp only [Decode.on, hdecode]
    rw [decodeBody, Decode.bind_ok (Decode.remaining_apply)]
    dsimp only
    rw [if_neg (Nat.ne_of_gt (by omega)), if_neg (Nat.not_lt.mpr hlength), Decode.bind_ok hfirst]
    exact hsecond

end Decimal

/-! ## Addresses -/

namespace Inet

/-- A 4 byte or 16 byte sequence denoting an IPv4 or IPv6 address. -/
structure Value where
  bytes : Bytes
  size_eq : bytes.length = 4 ∨ bytes.length = 16
  deriving DecidableEq

/-- `UnderlyingType(::in_addr{})`. -/
def zero : Value := ⟨[0, 0, 0, 0], .inl rfl⟩

def unsupportedLength : Failure :=
  .exception (decodeException "unsupported inet address length")

def encodeBody (value : Value) (data : Bytes) : Bytes := data ++ value.bytes

def decodeBody : Decoder Value Unit := do
  let body ← Decode.remaining
  if body.length = 0 then
    Decode.update fun _ => zero -- empty
  else if h : body.length = 4 ∨ body.length = 16 then
    Decode.update fun _ => ⟨body, h⟩
  else
    throw unsupportedLength

def column : ColumnClass Value := ColumnTrait.column zero (fun _ => zero) encodeBody decodeBody

theorem bodyRoundTrip : column.BodyRoundTrip (fun _ => True) Eq where
  encode_eq _ _ := rfl
  encodeBody_eq _ _ := rfl
  decodeBody_encodeBody value _ _ old := by
    refine ⟨value, value.bytes, ?_, rfl⟩
    show decodeBody ⟨old, value.bytes⟩ = _
    have hne : value.bytes.length ≠ 0 := by
      rcases value.size_eq with h | h
      · rw [h]; decide
      · rw [h]; decide
    rw [decodeBody, Decode.bind_ok (Decode.remaining_apply)]
    rw [if_neg hne, dif_pos value.size_eq, Decode.update_apply]

end Inet

/-! ## The scalar types -/

/-- The types whose values hold no other column values. -/
inductive Scalar
  | boolean
  | tinyInt
  | smallInt
  | int
  | bigInt
  | counter
  | ascii
  | text
  | blob
  | varInt
  | decimal
  | inet
  deriving DecidableEq, Repr

namespace Scalar

/-- The values of the objects of a type. A `Boolean` stores a byte. -/
abbrev Value : Scalar → Type
  | boolean | tinyInt => IntegerBase.Value 1
  | smallInt => IntegerBase.Value 2
  | int => IntegerBase.Value 4
  | bigInt | counter => IntegerBase.Value 8
  | ascii | text | blob => Bytes
  | varInt => VarInt.Value
  | decimal => Decimal.Value
  | inet => Inet.Value

instance : (s : Scalar) → DecidableEq s.Value
  | boolean | tinyInt => inferInstanceAs (DecidableEq (IntegerBase.Value 1))
  | smallInt => inferInstanceAs (DecidableEq (IntegerBase.Value 2))
  | int => inferInstanceAs (DecidableEq (IntegerBase.Value 4))
  | bigInt | counter => inferInstanceAs (DecidableEq (IntegerBase.Value 8))
  | ascii | text | blob => inferInstanceAs (DecidableEq Bytes)
  | varInt => inferInstanceAs (DecidableEq VarInt.Value)
  | decimal => inferInstanceAs (DecidableEq Decimal.Value)
  | inet => inferInstanceAs (DecidableEq Inet.Value)

/-- The class of a scalar type. -/
def column : (s : Scalar) → ColumnClass s.Value
  | boolean | tinyInt => IntegerBase.column 1
  | smallInt => IntegerBase.column 2
  | int => IntegerBase.column 4
  | bigInt | counter => IntegerBase.column 8
  | ascii | text | blob => StringBase.column
  | varInt => VarInt.column
  | decimal => Decimal.column
  | inet => Inet.column

theorem column_isPlain (s : Scalar) : s.column.IsPlain := by
  cases s <;> exact ColumnTrait.column_isPlain

/-- Every scalar type round trips. -/
theorem bodyRoundTrip (s : Scalar) : s.column.BodyRoundTrip (fun _ => True) Eq := by
  cases s with
  | boolean | tinyInt => exact IntegerBase.bodyRoundTrip (by decide)
  | smallInt => exact IntegerBase.bodyRoundTrip (by decide)
  | int => exact IntegerBase.bodyRoundTrip (by decide)
  | bigInt | counter => exact IntegerBase.bodyRoundTrip (by decide)
  | ascii | text | blob => exact StringBase.bodyRoundTrip
  | varInt => exact VarInt.bodyRoundTrip
  | decimal => exact Decimal.bodyRoundTrip
  | inet => exact Inet.bodyRoundTrip

end Scalar

end CqlDriver
