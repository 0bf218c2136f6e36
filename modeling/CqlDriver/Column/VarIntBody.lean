import Mathlib.Data.Nat.Bitwise
import CqlDriver.Column.Scalars
import CqlDriver.Math.Register
import CqlDriver.Math.TwosComplement

/-!
# The bodies of variable length integers

A body is written without the bytes that repeat the sign, and padding puts them back on
the way in. So a body stands for the same number in all its lengths, and the one that is
written is the shortest.

## Main definitions

* `VarInt.Shortest` — the shortest bytes of a number
* `VarInt.BodyLaws` — writing, reading and writing again

## Main results

* `VarInt.bodyLaws`
-/

namespace CqlDriver

open Math (Decode ofTwosComplement ofBigEndian bigEndian toSigned Repeats)

namespace VarInt

/-- Bytes that stand for a number, and no fewer ones do. -/
structure Shortest (body : Bytes) (number : Int) : Prop where
  nonempty : body ≠ []
  value : ofTwosComplement body = number
  shortest : ∀ other : Bytes, other ≠ [] → ofTwosComplement other = number →
    body.length ≤ other.length

/-- What is written, read and written again. -/
structure BodyLaws : Prop where
  /-- The shortest body is appended. -/
  encode : ∀ (value : Value) (data : Bytes), ∃ body,
    encodeBody value data = data ++ body ∧ Shortest body value.toInt
  /-- It is read back. -/
  decode_encode : ∀ value old : Value,
    ∃ left, decodeBody ⟨old, encodeBody value []⟩ = .ok () ⟨value, left⟩
  /-- All bodies of one to eight bytes are read, and not made longer. -/
  decode : ∀ (body : Bytes) (old : Value), 1 ≤ body.length → body.length ≤ 8 →
    ∃ value left, decodeBody ⟨old, body⟩ = .ok () ⟨value, left⟩ ∧
      value.toInt = ofTwosComplement body ∧
      ofTwosComplement (encodeBody value []) = ofTwosComplement body ∧
      (encodeBody value []).length ≤ body.length
  /-- Longer ones are refused, and the value stays. -/
  reject : ∀ (body : Bytes) (old : Value), 8 < body.length →
    ∃ left, decodeBody ⟨old, body⟩ = .error tooLarge ⟨old, left⟩

section Bodies

variable {first second : UInt8} {body rest : Bytes} {value old : Value}

theorem isNegative_eq (byte : UInt8) : isNegative byte = decide (128 ≤ byte.toNat) := by
  have hlt := byte.toNat_lt
  have hbit : byte.toNat.testBit 7 = decide (128 ≤ byte.toNat) := by
    rw [Nat.testBit_eq_decide_div_mod_eq, decide_eq_decide]
    omega
  have hmask : (byte &&& 0x80).toNat = (byte.toNat.testBit 7).toNat * 2 ^ 7 := by
    rw [UInt8.toNat_and]
    exact Nat.and_two_pow _ 7
  have hzero : byte &&& 0x80 = 0 ↔ byte.toNat.testBit 7 = false := by
    rw [← UInt8.toNat_inj, hmask]
    cases byte.toNat.testBit 7 with
    | false => simp
    | true => simp
  rw [isNegative, decide_eq_decide, ne_eq, hzero, hbit]
  simp

/-- The test of the loop. -/
theorem repeats_iff : ((first = 0 ∧ isNegative second = false) ∨
    (first = 0xff ∧ isNegative second = true)) ↔ Repeats first second := by
  simp [Repeats, isNegative_eq]

/-- What is dropped does not change the number. -/
theorem ofTwosComplement_trim (bytes : Bytes) :
    ofTwosComplement (trim bytes) = ofTwosComplement bytes := by
  fun_induction trim bytes with
  | case1 first second rest hdrop ih =>
    rw [ih, Math.ofTwosComplement_of_repeats (repeats_iff.mp hdrop)]
  | case2 => rfl
  | case3 => rfl

/-- What is left is needed. -/
theorem length_trim_le_of_eq (hne : body ≠ []) (hvalue : ofTwosComplement body = ofTwosComplement rest) :
    (trim rest).length ≤ body.length := by
  fun_induction trim rest with
  | case1 first second rest hdrop ih =>
    exact ih (hvalue.trans (Math.ofTwosComplement_of_repeats (repeats_iff.mp hdrop)))
  | case2 first second rest hkeep =>
    exact Math.length_le_of_not_repeats (fun hrepeats => hkeep (repeats_iff.mpr hrepeats)) hne hvalue
  | case3 bytes hshort =>
    -- no byte, or one
    cases bytes with
    | nil => exact Nat.zero_le _
    | cons first rest =>
      cases rest with
      | nil => exact List.length_pos_iff.mpr hne
      | cons second rest => exact absurd rfl (hshort first second rest)

/-- The bytes of a register. -/
theorem ofTwosComplement_toBytes (value : Value) :
    ofTwosComplement (IntegerBase.toBytes value) = value.toInt := by
  have hlt : value.toNat < 256 ^ 8 := value.isLt
  rw [ofTwosComplement, IntegerBase.length_toBytes, IntegerBase.toBytes,
    Math.ofBigEndian_bigEndian hlt]
  exact Math.toSigned_toNat (by decide) value

/-- Copies of the sign in front change nothing. -/
theorem ofTwosComplement_pad (hne : body ≠ []) :
    ofTwosComplement (pad body) = ofTwosComplement body := by
  have hcopies : ∀ (count : Nat) (first : UInt8) (rest : Bytes),
      ofTwosComplement (List.replicate count (if isNegative first then 0xff else 0) ++
        first :: rest) = ofTwosComplement (first :: rest) := by
    intro count
    induction count with
    | zero => exact fun first rest => rfl
    | succ count ih =>
      intro first rest
      have hrepeats : Repeats (if isNegative first then 0xff else 0) first := by
        rw [← repeats_iff]
        cases hsign : isNegative first with
        | false => exact Or.inl ⟨rfl, rfl⟩
        | true => exact Or.inr ⟨rfl, rfl⟩
      -- the copy next to the byte has its sign
      have hsame : isNegative (if isNegative first then 0xff else 0) = isNegative first := by
        cases isNegative first with
        | false => rfl
        | true => rfl
      have hnext := ih (if isNegative first then 0xff else 0) (first :: rest)
      rw [hsame] at hnext
      rw [List.replicate_succ', List.append_assoc, List.singleton_append, hnext,
        Math.ofTwosComplement_of_repeats hrepeats]
  obtain ⟨first, rest, rfl⟩ := List.exists_cons_of_ne_nil hne
  exact hcopies _ first rest

theorem length_pad (hne : body ≠ []) (hle : body.length ≤ 8) : (pad body).length = 8 := by
  obtain ⟨first, rest, rfl⟩ := List.exists_cons_of_ne_nil hne
  rw [List.length_cons] at hle
  rw [pad, List.length_append, List.length_replicate, List.length_cons]
  omega

theorem toBytes_ne_nil (value : Value) : IntegerBase.toBytes value ≠ [] := by
  refine fun hnil => absurd (IntegerBase.length_toBytes value) ?_
  rw [hnil]
  decide

/-- The body that is written is the shortest one. -/
theorem shortest_trim (value : Value) : Shortest (trim (IntegerBase.toBytes value)) value.toInt where
  nonempty := trim_ne_nil (toBytes_ne_nil value)
  value := (ofTwosComplement_trim _).trans (ofTwosComplement_toBytes value)
  shortest _ hne hvalue :=
    length_trim_le_of_eq hne (hvalue.trans (ofTwosComplement_toBytes value).symm)

/-- A body of one to eight bytes is read as the number that it stands for. -/
theorem decodeBody_of_le (hne : body ≠ []) (hle : body.length ≤ 8) :
    decodeBody ⟨old, body⟩ = .ok () ⟨IntegerBase.ofBytes 8 (pad body), body⟩ ∧
      (IntegerBase.ofBytes 8 (pad body)).toInt = ofTwosComplement body := by
  constructor
  · have hpos := List.length_pos_iff.mpr hne
    rw [decodeBody, Decode.bind_ok Decode.remaining_apply]
    rw [if_neg (by dsimp only; omega), if_neg (by dsimp only; omega), Decode.update_apply]
  · rw [← ofTwosComplement_toBytes, IntegerBase.toBytes_ofBytes (length_pad hne hle),
      ofTwosComplement_pad hne]

theorem decodeBody_of_lt (h : 8 < body.length) :
    decodeBody ⟨old, body⟩ = .error tooLarge ⟨old, body⟩ := by
  rw [decodeBody, Decode.bind_ok Decode.remaining_apply]
  rw [if_neg (by dsimp only; omega), if_pos h]
  rfl

end Bodies

/-- Numbers are written as their shortest bodies, and all bodies that fit are read. -/
theorem bodyLaws : BodyLaws where
  encode value data := ⟨_, rfl, shortest_trim value⟩
  decode_encode value old := ⟨_, decodeBody_trim value old⟩
  decode body old hpos hle := by
    have hne := List.length_pos_iff.mp hpos
    obtain ⟨hread, hnumber⟩ := @decodeBody_of_le body old hne hle
    have hshortest := shortest_trim (IntegerBase.ofBytes 8 (pad body))
    exact ⟨_, _, hread, hnumber, hshortest.value.trans hnumber,
      hshortest.shortest body hne hnumber.symm⟩
  reject body old hlt := ⟨_, decodeBody_of_lt hlt⟩

/-- Two bytes, one more than needed, and nine. -/
theorem bodyLaws_lengths :
    (∃ value left, decodeBody ⟨0, [0, 7]⟩ = .ok () ⟨value, left⟩ ∧
      value.toInt = ofTwosComplement [0, 7] ∧
      ofTwosComplement (encodeBody value []) = ofTwosComplement [0, 7] ∧
      (encodeBody value []).length ≤ 2) ∧
      ∃ left, decodeBody ⟨0, List.replicate 9 1⟩ = .error tooLarge ⟨0, left⟩ :=
  ⟨bodyLaws.decode [0, 7] 0 (by decide) (by decide),
    bodyLaws.reject (List.replicate 9 1) 0 (by decide)⟩

end VarInt

end CqlDriver
