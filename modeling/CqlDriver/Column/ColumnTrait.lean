import CqlDriver.Protocol.Primitive

/-!
# Column values with their size

A class of column values has a constructor, `reset`, and functions that append the body
of a value to a string and read one from a pointer and a size. `ColumnTrait` puts the
size in front: it leaves four bytes for it, appends the body, and then writes the size
back into the four bytes. A negative size stands for null.

The classes are templates, so a class is a record of its functions, and the templates are
functions between such records.

## Main definitions

* `ColumnClass` — the functions of a class of column values
* `ColumnTrait.encode`, `ColumnTrait.decode`, `ColumnTrait.column`
* `ColumnClass.BodyRoundTrip`, `ColumnClass.RoundTrip` — decoding an encoded value stores
  the same value

## Main results

* `ColumnTrait.encode_eq` — the size and the body are appended
* `ColumnClass.BodyRoundTrip.roundTrip` — bodies that round trip do so with their size
-/

namespace CqlDriver

open Math (Decode Cursor bigEndian ofBigEndian toSigned)

/-- The functions of a class of column values, and those of `ColumnTrait` for it. -/
structure ColumnClass (α : Type) where
  /-- The value of a default constructed object. -/
  init : α
  /-- Reset to initial state. -/
  reset : α → α
  /-- Append the body to a string. -/
  encodeBody : α → Bytes → Bytes
  /-- Decode from the bytes of a pointer and a size. What it leaves is not used. -/
  decodeBody : Decoder α Unit
  /-- Encode to binary data with size information. -/
  encode : α → Bytes → Bytes
  /-- Decode from binary data with size information. -/
  decode : Decoder α Unit

namespace ColumnTrait

variable {α : Type}

/-- Encode to binary data with size information. -/
def encode (encodeBody : Bytes → Bytes) (data : Bytes) : Bytes :=
  let prevSize := data.length + 4
  let data := encodeBody (data ++ List.replicate 4 0)
  data.take (prevSize - 4) ++ bigEndian 4 (data.length - prevSize) ++ data.drop prevSize

/-- The texts of the exceptions of `decode`, without the name of the type. -/
def sizeNotEnough : Failure :=
  .exception (decodeException "length of column body size not enough, type:")

def bodyNotEnough : Failure :=
  .exception (decodeException "length of column body not enough, type:")

def notNullable : Failure :=
  .exception (decodeException "column is not nullable but the value is null, type:")

/-- Read the size, and decode the body if it is not negative. The pointer only moves
when everything was read. -/
def decodeSized (decodeBody : Decoder α Unit) (onNull : Decoder α Unit) : Decoder α Unit := fun c =>
  if c.rest.length < 4 then
    .error sizeNotEnough c
  else
    let bodySize := toSigned 32 (ofBigEndian (c.rest.take 4))
    if 0 ≤ bodySize then
      if c.rest.length < 4 + bodySize.toNat then
        .error bodyNotEnough c
      else
        match Decode.inside ((c.rest.drop 4).take bodySize.toNat) decodeBody c with
        | .ok _ d => .ok () { d with rest := c.rest.drop (4 + bodySize.toNat) }
        | .error failure d => .error failure d
    else
      onNull c

/-- Decode from binary data with size information. -/
def decode (decodeBody : Decoder α Unit) : Decoder α Unit :=
  decodeSized decodeBody (throw notNullable)

/-- A class for which `ColumnTrait` is not specialised. -/
def column (init : α) (reset : α → α) (encodeBody : α → Bytes → Bytes)
    (decodeBody : Decoder α Unit) : ColumnClass α where
  init := init
  reset := reset
  encodeBody := encodeBody
  decodeBody := decodeBody
  encode value := encode (encodeBody value)
  decode := decode decodeBody

theorem encode_eq {encodeBody : Bytes → Bytes} {body : Bytes}
    (h : ∀ data, encodeBody data = data ++ body) (data : Bytes) :
    encode encodeBody data = data ++ (bigEndian 4 body.length ++ body) := by
  have hlength : (data ++ List.replicate 4 (0 : UInt8)).length = data.length + 4 := by
    rw [List.length_append, List.length_replicate]
  have hsize : (data ++ List.replicate 4 (0 : UInt8) ++ body).length - (data.length + 4) =
      body.length := by
    rw [List.length_append, hlength, Nat.add_sub_cancel_left]
  simp only [encode]
  rw [h, hsize, Nat.add_sub_cancel, List.drop_left' hlength, List.append_assoc data,
    List.take_left, List.append_assoc]

/-- The size in front of a body that fits leads to the body. -/
theorem decodeSized_append {decodeBody onNull : Decoder α Unit} {body rest : Bytes} {old value : α}
    {left : Bytes} (hlt : body.length < 2 ^ 31)
    (h : decodeBody ⟨old, body⟩ = .ok () ⟨value, left⟩) :
    decodeSized decodeBody onNull ⟨old, bigEndian 4 body.length ++ body ++ rest⟩ =
      .ok () ⟨value, rest⟩ := by
  have hsize : toSigned 32 (ofBigEndian ((bigEndian 4 body.length ++ body ++ rest).take 4)) =
      (body.length : Int) := by
    rw [List.append_assoc, List.take_left' (Math.length_bigEndian 4 _),
      Math.ofBigEndian_bigEndian (by omega), toSigned, if_pos hlt]
  have hdrop : (bigEndian 4 body.length ++ body ++ rest).drop 4 = body ++ rest := by
    rw [List.append_assoc, List.drop_left' (Math.length_bigEndian 4 _)]
  have hlength : (bigEndian 4 body.length ++ body ++ rest).length =
      4 + body.length + rest.length := by
    rw [List.length_append, List.length_append, Math.length_bigEndian]
  simp only [decodeSized]
  rw [if_neg (by omega), hsize, if_pos (Int.natCast_nonneg _), Int.toNat_natCast,
    if_neg (by omega), hdrop, List.take_left, Decode.inside_ok h, ← List.drop_drop, hdrop,
    List.drop_left]

/-- The size of null. -/
theorem decodeSized_null {decodeBody onNull : Decoder α Unit} {rest : Bytes} {old : α} :
    decodeSized decodeBody onNull ⟨old, ProtocolInt.encode (-1) ++ rest⟩ =
      onNull ⟨old, ProtocolInt.encode (-1) ++ rest⟩ := by
  have hlength : ¬ (ProtocolInt.encode (-1) ++ rest).length < 4 := by
    rw [List.length_append, ProtocolInt.encode, Math.length_bigEndian]
    omega
  have hsize : toSigned 32 (ofBigEndian ((ProtocolInt.encode (-1) ++ rest).take 4)) = -1 := by
    rw [ProtocolInt.encode, List.take_left' (Math.length_bigEndian 4 _)]
    decide
  simp only [decodeSized]
  rw [if_neg hlength, hsize]
  rfl

end ColumnTrait

/-! ## Round trips -/

namespace ColumnClass

variable {α : Type} {c : ColumnClass α} {kept kept' : α → Prop} {same : α → α → Prop}
  {value : α}

/-- The bytes that encoding a value appends. -/
def encoded (c : ColumnClass α) (value : α) : Bytes := c.encode value []

/-- The size of the body of a value. -/
def bodySize (c : ColumnClass α) (value : α) : Nat := (c.encoded value).length - 4

/-- The size of the body can be written. -/
def Fits (c : ColumnClass α) (value : α) : Prop := c.bodySize value < 2 ^ 31

instance (c : ColumnClass α) (value : α) : Decidable (c.Fits value) :=
  inferInstanceAs (Decidable (_ < _))

/-- The class has the `ColumnTrait` that is not specialised. -/
structure IsPlain (c : ColumnClass α) : Prop where
  encode_eq : ∀ value, c.encode value = ColumnTrait.encode (c.encodeBody value)
  decode_eq : c.decode = ColumnTrait.decode c.decodeBody

/-- The values of a kind are encoded as a size and a body, and decoding the body stores the
same value, whatever the object held. -/
structure BodyRoundTrip (c : ColumnClass α) (kept : α → Prop) (same : α → α → Prop) : Prop where
  encodeBody_eq : ∀ value data, c.encodeBody value data = data ++ c.encodeBody value []
  encode_eq : ∀ value, kept value → c.encode value = ColumnTrait.encode (c.encodeBody value)
  decodeBody_encodeBody : ∀ value, kept value → (c.encodeBody value []).length < 2 ^ 31 → ∀ old,
    ∃ stored left, c.decodeBody ⟨old, c.encodeBody value []⟩ = .ok () ⟨stored, left⟩ ∧
      same value stored

/-- Decoding an encoded value of a kind stores the same value, whatever the object held, and
stops right behind it. -/
structure RoundTrip (c : ColumnClass α) (kept : α → Prop) (same : α → α → Prop) : Prop where
  encode_eq : ∀ value data, c.encode value data = data ++ c.encoded value
  four_le : ∀ value, 4 ≤ (c.encoded value).length
  decode_encoded : ∀ value, kept value → c.Fits value → ∀ old rest,
    ∃ stored, c.decode ⟨old, c.encoded value ++ rest⟩ = .ok () ⟨stored, rest⟩ ∧ same value stored

theorem RoundTrip.fits_of_le (h : c.RoundTrip kept same) {value : α} {n : Nat}
    (hle : (c.encoded value).length ≤ n) (hlt : n < 2 ^ 31) : c.Fits value := by
  have hfour := h.four_le value
  rw [Fits, bodySize]
  omega

theorem encoded_eq_of_encode (hbody : ∀ data, c.encodeBody value data =
      data ++ c.encodeBody value [])
    (hencode : c.encode value = ColumnTrait.encode (c.encodeBody value)) :
    c.encoded value = bigEndian 4 (c.encodeBody value []).length ++ c.encodeBody value [] := by
  rw [encoded, hencode, ColumnTrait.encode_eq hbody]
  rfl

theorem BodyRoundTrip.encoded_eq (h : c.BodyRoundTrip kept same) (hkept : kept value) :
    c.encoded value = bigEndian 4 (c.encodeBody value []).length ++ c.encodeBody value [] :=
  encoded_eq_of_encode (h.encodeBody_eq value) (h.encode_eq value hkept)

theorem BodyRoundTrip.mono (h : c.BodyRoundTrip kept same) (hle : ∀ value, kept' value → kept value) :
    c.BodyRoundTrip kept' same where
  encodeBody_eq := h.encodeBody_eq
  encode_eq value hkept := h.encode_eq value (hle value hkept)
  decodeBody_encodeBody value hkept := h.decodeBody_encodeBody value (hle value hkept)

/-- The size of the body is the one that is written. -/
theorem BodyRoundTrip.length_lt (h : c.BodyRoundTrip kept same) (hkept : kept value)
    (hfits : c.Fits value) : (c.encodeBody value []).length < 2 ^ 31 := by
  rwa [Fits, bodySize, h.encoded_eq hkept, List.length_append, Math.length_bigEndian,
    Nat.add_sub_cancel_left] at hfits

/-- Bodies that round trip do so with their size in front. -/
theorem BodyRoundTrip.roundTrip (h : c.BodyRoundTrip kept same) (hplain : c.IsPlain) :
    c.RoundTrip kept same where
  encode_eq value data := by
    rw [hplain.encode_eq, ColumnTrait.encode_eq (h.encodeBody_eq value),
      encoded_eq_of_encode (h.encodeBody_eq value) (hplain.encode_eq value)]
  four_le value := by
    rw [encoded_eq_of_encode (h.encodeBody_eq value) (hplain.encode_eq value), List.length_append,
      Math.length_bigEndian]
    exact Nat.le_add_right 4 _
  decode_encoded value hkept hfits old rest := by
    have hlt := h.length_lt hkept hfits
    obtain ⟨stored, left, hdecode, hsame⟩ := h.decodeBody_encodeBody value hkept hlt old
    refine ⟨stored, ?_, hsame⟩
    rw [hplain.decode_eq, ColumnTrait.decode, h.encoded_eq hkept]
    exact ColumnTrait.decodeSized_append hlt hdecode

end ColumnClass

theorem ColumnTrait.column_isPlain {α : Type} {init : α} {reset : α → α}
    {encodeBody : α → Bytes → Bytes} {decodeBody : Decoder α Unit} :
    (ColumnTrait.column init reset encodeBody decodeBody).IsPlain :=
  ⟨fun _ => rfl, rfl⟩

end CqlDriver
