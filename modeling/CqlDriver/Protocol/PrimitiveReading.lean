import CqlDriver.Math.DecodeRelated
import CqlDriver.Math.DecodeTracks
import CqlDriver.Protocol.Primitive

/-!
# Reading primitives back

A primitive that was decoded stood in the bytes, and the object it was decoded for is as before.
Every size of four bytes is an integer of the protocol, and what it is written as again.

## Main results

* `ProtocolInt.decode_size`, `ProtocolInt.encode_size` — any four bytes are an integer
* `ProtocolInt.exists_of_decode` — and an integer that was read was four bytes
* `ProtocolInt.keeps_decode`, `ProtocolString.keeps_decode`, `ProtocolShort.keeps_decode`,
  `ProtocolBytes.keeps_decode` — reading leaves the object alone
* `related_short`, `related_int`, `related_string`, `related_bytes` — and does not depend on it
-/

namespace CqlDriver

open Math (Decode Cursor toSigned ofSigned ofBigEndian)
open Math.Decode (Keeps keeps_take keeps_number)

variable {σ τ : Type} {x : σ} {get : σ → τ} {c c' : Cursor σ} {size rest : Bytes}

namespace ProtocolInt

theorem decode_size (h : size.length = 4) :
    ProtocolInt.decode (⟨x, size ++ rest⟩ : Cursor σ) =
      .ok (toSigned 32 (ofBigEndian size)) ⟨x, rest⟩ := by
  have hbytes : size = Math.bigEndian 4 (ofBigEndian size) := by
    rw [← h, Math.bigEndian_ofBigEndian]
  have hlt : ofBigEndian size < 256 ^ 4 := h ▸ Math.ofBigEndian_lt size
  conv_lhs => rw [hbytes]
  rw [ProtocolInt.decode, Decode.bind_ok (Math.number_append hlt)]
  rfl

/-- An integer that was read is written as it was. -/
theorem encode_size (h : size.length = 4) :
    ProtocolInt.encode (toSigned 32 (ofBigEndian size)) = size := by
  have hlt : ofBigEndian size < 256 ^ 4 := h ▸ Math.ofBigEndian_lt size
  have hunsigned : ofSigned 32 (toSigned 32 (ofBigEndian size)) = ofBigEndian size := by
    rw [toSigned, ofSigned]
    split
    · omega
    · omega
  rw [ProtocolInt.encode, hunsigned, ← h, Math.bigEndian_ofBigEndian]

/-- Any integer is written as four bytes. -/
theorem decode_encode_mod (i : Int) :
    ProtocolInt.decode (⟨x, ProtocolInt.encode i ++ rest⟩ : Cursor σ) =
      .ok (toSigned 32 (ofSigned 32 i)) ⟨x, rest⟩ := by
  have hlt : ofSigned 32 i < 256 ^ 4 := by
    rw [ofSigned]
    omega
  rw [decode_size (by rw [ProtocolInt.encode, Math.length_bigEndian]), ProtocolInt.encode,
    Math.ofBigEndian_bigEndian hlt]

theorem exists_of_decode {value : Int}
    (h : ProtocolInt.decode c = .ok value c') :
    ∃ size : Bytes, size.length = 4 ∧ c.rest = size ++ c'.rest ∧
      value = toSigned 32 (ofBigEndian size) ∧ c'.object = c.object := by
  obtain ⟨number, d, hnumber, hpure⟩ := Decode.exists_of_bind_ok h
  obtain ⟨bytes, e, htake, hbytes⟩ := Decode.exists_of_bind_ok hnumber
  cases hpure
  cases hbytes
  obtain ⟨hlength, rfl, rfl⟩ := Decode.take_ok htake
  exact ⟨_, List.length_take_of_le hlength, (List.take_append_drop 4 c.rest).symm, rfl, rfl⟩

/-- An integer of the protocol is below 2^31. -/
theorem lt_of_decode {value : Int} (h : ProtocolInt.decode c = .ok value c') : value < 2 ^ 31 := by
  obtain ⟨size, hsize, -, rfl, -⟩ := exists_of_decode h
  have hlt : ofBigEndian size < 256 ^ 4 := hsize ▸ Math.ofBigEndian_lt size
  rw [toSigned]
  split
  · omega
  · omega

theorem keeps_decode : Keeps get ProtocolInt.decode := keeps_number.bind fun _ => .pure _

end ProtocolInt

theorem ProtocolShort.keeps_decode : Keeps get ProtocolShort.decode := keeps_number

theorem ProtocolLong.keeps_decode : Keeps get ProtocolLong.decode :=
  keeps_number.bind fun _ => .pure _

theorem ProtocolString.keeps_decode : Keeps get ProtocolString.decode :=
  ProtocolShort.keeps_decode.bind fun _ => keeps_take

theorem ProtocolBytes.keeps_decode : Keeps get ProtocolBytes.decode :=
  ProtocolInt.keeps_decode.bind fun _ => .ite (keeps_take.bind fun _ => .pure _) (.pure _)

/-- Bytes that were read are shorter than 2^31. -/
theorem ProtocolBytes.length_lt_of_decode {value : Option Bytes}
    (h : ProtocolBytes.decode c = .ok value c') : (value.getD []).length < 2 ^ 31 := by
  obtain ⟨length, d, hlength, hvalue⟩ := Decode.exists_of_bind_ok h
  have hlt := ProtocolInt.lt_of_decode hlength
  split at hvalue
  · obtain ⟨bytes, e, htake, hpure⟩ := Decode.exists_of_bind_ok hvalue
    cases hpure
    obtain ⟨hle, rfl, -⟩ := Decode.take_ok htake
    rw [Option.getD_some, List.length_take_of_le hle]
    omega
  · cases hvalue
    exact Nat.two_pow_pos 31

/-! ## Reading does not depend on the object -/

section Related

open Math.Decode (Related)

variable {P : σ → τ → Prop}

theorem related_short :
    Related P (fun a b x y => a = b ∧ P x y) ProtocolShort.decode ProtocolShort.decode :=
  Decode.related_number

theorem related_int :
    Related P (fun a b x y => a = b ∧ P x y) ProtocolInt.decode ProtocolInt.decode :=
  Decode.related_number.map_eq

theorem related_string :
    Related P (fun a b x y => a = b ∧ P x y) ProtocolString.decode ProtocolString.decode :=
  related_short.read fun _ => Decode.related_take

theorem related_bytes :
    Related P (fun a b x y => a = b ∧ P x y) ProtocolBytes.decode ProtocolBytes.decode := by
  apply related_int.read
  intro size
  split
  · exact Decode.related_take.map_eq
  · exact .pure fun x y hP => ⟨rfl, hP⟩

end Related

end CqlDriver
