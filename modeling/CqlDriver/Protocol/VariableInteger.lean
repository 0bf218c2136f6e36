import Mathlib.Algebra.Order.Ring.Int
import Mathlib.Algebra.Order.Ring.Nat
import CqlDriver.Common.TimeUUID
import CqlDriver.Math.DecodeTracks
import CqlDriver.Protocol.Primitive

/-!
# Integers of variable length

The leading ones of the first byte say how many bytes follow. `encode` drops the bytes in
front of a value that are zero and puts the ones into the first byte that is left, or into
a byte of its own when there is no room. A value below 2^(7 k) takes at most k bytes, up
to eight, and nine bytes hold every value.

A signed value is moved next to its negative: 0, -1, 1, -2, 2 and so forth.

## Main definitions

* `ProtocolVariableIntegerBase.encode`, `ProtocolVariableIntegerBase.decode`
* `ProtocolVint.get`, `ProtocolVint.set` — signed values

## Main results

* `ProtocolVariableIntegerBase.decode_encode` — what is encoded is decoded
* `ProtocolVariableIntegerBase.length_encode_le_iff` — how long a value is encoded
* `ProtocolVariableIntegerBase.length_encode_le` — nothing shorter is decoded to it
* `ProtocolVint.get_set` — signed values
-/

namespace CqlDriver

open Math (Decode Cursor bigEndian ofBigEndian)

namespace ProtocolVariableIntegerBase

/-- The first byte use to indicate how many extra bytes followed. -/
def ExtraBytesHeaders : List UInt8 :=
  [0b00000000, 0b10000000, 0b11000000, 0b11100000, 0b11110000, 0b11111000, 0b11111100, 0b11111110,
    0b11111111]

/-- The entry of the table; all indexes that are used are inside. -/
def extraBytesHeader (extraBytes : Nat) : UInt8 := ExtraBytesHeaders.getD extraBytes 0

def encode (value : UInt64) : Bytes :=
  -- trim empty bytes and calculate total bytes
  match (bigEndian 8 value.toNat).dropWhile (· == 0) with
  | [] => [0]
  | first :: rest =>
    let totalBytes := rest.length + 1
    -- check the header can embed to the first byte
    let header := extraBytesHeader totalBytes
    if header &&& first ≠ 0 then header :: first :: rest
    else (first ||| extraBytesHeader (totalBytes - 1)) :: rest

/-- `__builtin_clz(~(header << bitsDistance))`. -/
def countExtraBytes (header : UInt8) : Nat := (~~~(header.toUInt32 <<< 24)).toBitVec.clz.toNat

/-- `static_cast<uint8_t>(header << extraBytes) >> extraBytes`, in the width of an int. -/
def clearOnes (header : UInt8) (extraBytes : Nat) : UInt8 :=
  UInt8.ofNat (((header.toNat <<< extraBytes) % 2 ^ 8) >>> extraBytes)

def decode : Decoder UInt64 Unit := do
  let first ← Math.take lengthNotEnough 1
  let header := first.headD 0
  let extraBytes := countExtraBytes header
  let extra ← Math.take lengthNotEnough extraBytes
  Decode.update fun _ => extra.foldl (fun value byte => value <<< 8 ||| byte.toUInt64)
    (clearOnes header extraBytes).toUInt64

/-! ## The first byte -/

/-- The loop of other processors, which counts and shifts the ones out. -/
def shiftOnes : Nat → Nat → UInt8 → Nat × UInt8
  | 0, extraBytes, header => (extraBytes, header)
  | fuel + 1, extraBytes, header =>
    if header &&& 0b10000000 ≠ 0 then shiftOnes fuel (extraBytes + 1) (header <<< 1)
    else (extraBytes, header)

/-- Both branches of the preprocessor read the same from the first byte. -/
theorem shiftOnes_eq (header : UInt8) : (shiftOnes 9 0 header).1 = countExtraBytes header ∧
    UInt8.ofNat ((shiftOnes 9 0 header).2.toNat >>> countExtraBytes header) =
      clearOnes header (countExtraBytes header) := by
  have hall : ∀ n : Fin 256, (shiftOnes 9 0 (UInt8.ofNat n)).1 = countExtraBytes (UInt8.ofNat n) ∧
      UInt8.ofNat ((shiftOnes 9 0 (UInt8.ofNat n)).2.toNat >>> countExtraBytes (UInt8.ofNat n)) =
        clearOnes (UInt8.ofNat n) (countExtraBytes (UInt8.ofNat n)) := by
    decide +kernel
  have hheader := hall ⟨header.toNat, header.toNat_lt⟩
  rw [UInt8.ofNat_toNat] at hheader
  exact hheader

/-- The ones that were put into a byte with room for them are found again. -/
theorem header_spec {extraBytes first : Nat} (hextra : extraBytes ≤ 8)
    (hfirst : first < 2 ^ (7 - extraBytes)) (hnine : extraBytes = 8 → first = 0) :
    countExtraBytes (UInt8.ofNat first ||| extraBytesHeader extraBytes) = extraBytes ∧
      (clearOnes (UInt8.ofNat first ||| extraBytesHeader extraBytes) extraBytes).toNat = first := by
  have hall : ∀ (k : Fin 9) (n : Fin 256), n.val < 2 ^ (7 - k.val) → (k.val = 8 → n.val = 0) →
      countExtraBytes (UInt8.ofNat n ||| extraBytesHeader k) = k ∧
        (clearOnes (UInt8.ofNat n ||| extraBytesHeader k) k).toNat = n := by
    decide +kernel
  have hlt : first < 256 := by
    have hpow : 2 ^ (7 - extraBytes) ≤ 2 ^ 7 := Nat.pow_le_pow_right (by decide) (by omega)
    omega
  exact hall ⟨extraBytes, by omega⟩ ⟨first, hlt⟩ hfirst hnine

/-- What a first byte leaves for the value. -/
theorem header_lt (header : UInt8) : countExtraBytes header ≤ 8 ∧ (countExtraBytes header ≤ 7 →
    (clearOnes header (countExtraBytes header)).toNat < 2 ^ (7 - countExtraBytes header)) := by
  have hall : ∀ n : Fin 256, countExtraBytes (UInt8.ofNat n) ≤ 8 ∧
      (countExtraBytes (UInt8.ofNat n) ≤ 7 →
        (clearOnes (UInt8.ofNat n) (countExtraBytes (UInt8.ofNat n))).toNat <
          2 ^ (7 - countExtraBytes (UInt8.ofNat n))) := by
    decide +kernel
  have hheader := hall ⟨header.toNat, header.toNat_lt⟩
  rw [UInt8.ofNat_toNat] at hheader
  exact hheader

/-- There is room for the ones exactly when the first byte is small. -/
theorem header_and_eq_zero_iff {totalBytes first : Nat} (htotal : totalBytes ≤ 8)
    (hfirst : first < 256) : extraBytesHeader totalBytes &&& UInt8.ofNat first = 0 ↔
      first < 2 ^ (8 - totalBytes) := by
  have hall : ∀ (k : Fin 9) (n : Fin 256),
      extraBytesHeader k &&& UInt8.ofNat n = 0 ↔ n.val < 2 ^ (8 - k.val) := by
    decide +kernel
  exact hall ⟨totalBytes, by omega⟩ ⟨first, hfirst⟩

/-! ## What is decoded -/

/-- Bytes are shifted in as they follow, and what does not fit into 64 bits is lost. -/
theorem foldl_shift (value : Nat) (extra : Bytes) :
    extra.foldl (fun (value : UInt64) byte => value <<< 8 ||| byte.toUInt64) (UInt64.ofNat value) =
      UInt64.ofNat (value * 256 ^ extra.length + ofBigEndian extra) := by
  induction extra generalizing value with
  | nil => rw [List.foldl_nil, List.length_nil, ofBigEndian, Nat.pow_zero, Nat.mul_one, Nat.add_zero]
  | cons byte extra ih =>
    have hbyte : byte.toNat < 2 ^ 8 := byte.toNat_lt
    have hstep : UInt64.ofNat value <<< 8 ||| byte.toUInt64 =
        UInt64.ofNat (value * 256 + byte.toNat) := by
      apply UInt64.toNat_inj.mp
      have hshift : (value % 2 ^ 64) <<< 8 % 2 ^ 64 = 2 ^ 8 * (value % 2 ^ 56) := by
        rw [Nat.shiftLeft_eq]
        omega
      rw [UInt64.toNat_or, UInt64.toNat_shiftLeft, UInt8.toNat_toUInt64, UInt64.toNat_ofNat',
        UInt64.toNat_ofNat']
      change (value % 2 ^ 64) <<< 8 % 2 ^ 64 ||| byte.toNat = _
      rw [hshift, ← Nat.two_pow_add_eq_or_of_lt hbyte]
      omega
    rw [List.foldl_cons, hstep, ih, List.length_cons, ofBigEndian, Nat.pow_succ, Nat.add_mul,
      Nat.mul_assoc, Nat.mul_comm 256, Nat.add_assoc]

/-- The bytes that belong to a first byte. -/
theorem decode_cons {header : UInt8} {extra rest : Bytes}
    (h : extra.length = countExtraBytes header) (old : UInt64) :
    decode ⟨old, header :: (extra ++ rest)⟩ = .ok () ⟨UInt64.ofNat
      ((clearOnes header extra.length).toNat * 256 ^ extra.length + ofBigEndian extra), rest⟩ := by
  have hheader : Math.take lengthNotEnough 1 (⟨old, [header] ++ (extra ++ rest)⟩ : Cursor UInt64) =
      .ok [header] ⟨old, extra ++ rest⟩ := Math.take_append rfl
  rw [decode, ← List.singleton_append, Decode.bind_ok hheader]
  simp only [List.headD_cons]
  rw [Decode.bind_ok (Math.take_append h), Decode.update_apply, ← foldl_shift, h,
    UInt64.ofNat_uInt8ToNat]

/-- Whatever was decoded was a first byte and the bytes that belong to it. -/
theorem exists_of_decode {old value : UInt64} {bytes rest : Bytes}
    (h : decode ⟨old, bytes⟩ = .ok () ⟨value, rest⟩) :
    ∃ header extra, bytes = header :: (extra ++ rest) ∧ extra.length = countExtraBytes header ∧
      value = UInt64.ofNat
        ((clearOnes header extra.length).toNat * 256 ^ extra.length + ofBigEndian extra) := by
  obtain ⟨first, c, hfirst, hnext⟩ := Decode.exists_of_bind_ok h
  obtain ⟨hlength, rfl, rfl⟩ := Decode.take_ok hfirst
  obtain ⟨extra, d, hextra, -⟩ := Decode.exists_of_bind_ok hnext
  obtain ⟨hle, rfl, -⟩ := Decode.take_ok hextra
  cases bytes with
  | nil => cases hlength
  | cons header bytes =>
    have hsplit : bytes = bytes.take (countExtraBytes header) ++
        bytes.drop (countExtraBytes header) := (List.take_append_drop _ _).symm
    have hcount : (bytes.take (countExtraBytes header)).length = countExtraBytes header :=
      List.length_take_of_le hle
    have hdecode := @decode_cons header _ (bytes.drop (countExtraBytes header)) hcount old
    rw [← hsplit, h] at hdecode
    injection hdecode with _ hcursor
    injection hcursor with hvalue hrest
    exact ⟨header, bytes.take (countExtraBytes header), by rw [hrest, ← hsplit], hcount, hvalue⟩

/-! ## What is encoded -/

/-- A value is written as its last bytes behind a first byte that has room for the rest of
the value, and one byte less would not do. -/
theorem exists_encode (value : UInt64) : ∃ extraBytes ≤ 8,
    encode value = (UInt8.ofNat (value.toNat / 256 ^ extraBytes) ||| extraBytesHeader extraBytes) ::
        bigEndian extraBytes value.toNat ∧
      value.toNat / 256 ^ extraBytes < 2 ^ (7 - extraBytes) ∧
        (0 < extraBytes → 2 ^ (7 * extraBytes) ≤ value.toNat) := by
  have hfits : value.toNat < 256 ^ 8 := value.toNat_lt
  obtain ⟨count, hle, hdrop, hlt, hge⟩ := Math.dropWhile_bigEndian hfits
  rw [encode, hdrop]
  cases count with
  | zero =>
    have hzero : value.toNat = 0 := by
      rw [Nat.pow_zero] at hlt
      omega
    refine ⟨0, Nat.zero_le 8, ?_, ?_, fun hpos => absurd hpos (Nat.lt_irrefl 0)⟩
    · rw [hzero]
      rfl
    · rw [hzero, Nat.zero_div]
      exact Nat.two_pow_pos _
  | succ count =>
    have hpos : 0 < 256 ^ count := Nat.pow_pos (by decide)
    have hfirst : value.toNat / 256 ^ count < 256 := by
      rw [Nat.div_lt_iff_lt_mul hpos, Nat.mul_comm, ← Nat.pow_succ]
      exact hlt
    have hlength : (bigEndian count value.toNat).length + 1 = count + 1 := by
      rw [Math.length_bigEndian]
    simp only [bigEndian, hlength, Nat.add_sub_cancel]
    by_cases hroom : value.toNat / 256 ^ count < 2 ^ (8 - (count + 1))
    · -- the first byte has room for the ones
      refine ⟨count, by omega, ?_, ?_, ?_⟩
      · rw [if_neg (not_not_intro ((header_and_eq_zero_iff hle hfirst).mpr hroom))]
      · have hexp : 8 - (count + 1) = 7 - count := by omega
        rw [hexp] at hroom
        exact hroom
      · intro _
        calc 2 ^ (7 * count)
          _ ≤ 2 ^ (8 * count) := Nat.pow_le_pow_right (by decide) (by omega)
          _ = 256 ^ count := Nat.pow_mul 2 8 count
          _ ≤ value.toNat := hge count rfl
    · -- the ones stand in front
      refine ⟨count + 1, hle, ?_, ?_, ?_⟩
      · have hheader : extraBytesHeader (count + 1) &&& UInt8.ofNat (value.toNat / 256 ^ count) ≠ 0 :=
          fun hzero => hroom ((header_and_eq_zero_iff hle hfirst).mp hzero)
        rw [if_pos hheader, Nat.div_eq_of_lt hlt]
        simp [bigEndian]
      · rw [Nat.div_eq_of_lt hlt]
        exact Nat.two_pow_pos _
      · intro _
        have hmul := (Nat.le_div_iff_mul_le hpos).mp (Nat.not_lt.mp hroom)
        calc 2 ^ (7 * (count + 1))
          _ = 2 ^ (8 - (count + 1)) * 2 ^ (8 * count) := by
            rw [← Nat.pow_add]
            congr 1
            omega
          _ = 2 ^ (8 - (count + 1)) * 256 ^ count := by rw [Nat.pow_mul 2 8 count]
          _ ≤ value.toNat := hmul

/-- What is encoded is decoded, whatever was there before. -/
theorem decode_encode (value old : UInt64) (rest : Bytes) :
    decode ⟨old, encode value ++ rest⟩ = .ok () ⟨value, rest⟩ := by
  obtain ⟨extraBytes, hle, hencode, hroom, -⟩ := exists_encode value
  have hnine : extraBytes = 8 → value.toNat / 256 ^ extraBytes = 0 := by
    rintro rfl
    exact Nat.div_eq_of_lt value.toNat_lt
  obtain ⟨hcount, hclear⟩ := header_spec hle hroom hnine
  rw [hencode, List.cons_append, decode_cons (by rw [Math.length_bigEndian, hcount]),
    Math.length_bigEndian, hclear, Math.ofBigEndian_bigEndian_mod, Nat.div_add_mod',
    UInt64.ofNat_toNat]

/-- Up to eight bytes hold seven bits each. -/
theorem length_encode_le_iff {value : UInt64} {length : Nat} (hpos : 0 < length) (hle : length ≤ 8) :
    (encode value).length ≤ length ↔ value.toNat < 2 ^ (7 * length) := by
  obtain ⟨extraBytes, hextra, hencode, hroom, hneeded⟩ := exists_encode value
  rw [hencode, List.length_cons, Math.length_bigEndian]
  constructor
  · intro hlength
    have hbyte := (Nat.div_lt_iff_lt_mul (Nat.pow_pos (by decide))).mp hroom
    calc value.toNat
      _ < 2 ^ (7 - extraBytes) * 256 ^ extraBytes := hbyte
      _ = 2 ^ (7 - extraBytes) * 2 ^ (8 * extraBytes) := by rw [Nat.pow_mul 2 8 extraBytes]
      _ = 2 ^ (7 - extraBytes + 8 * extraBytes) := (Nat.pow_add _ _ _).symm
      _ ≤ 2 ^ (7 * length) := Nat.pow_le_pow_right (by decide) (by omega)
  · intro hlt
    by_cases hzero : extraBytes = 0
    · omega
    · have hpow := Nat.lt_of_le_of_lt (hneeded (Nat.pos_of_ne_zero hzero)) hlt
      have hexp : 7 * extraBytes < 7 * length := (Nat.pow_lt_pow_iff_right (by decide)).mp hpow
      omega

theorem length_encode_le_nine (value : UInt64) : (encode value).length ≤ 9 := by
  obtain ⟨extraBytes, hle, hencode, -⟩ := exists_encode value
  rw [hencode, List.length_cons, Math.length_bigEndian]
  omega

/-- Larger values are not shorter. -/
theorem length_encode_mono {value other : UInt64} (h : value.toNat ≤ other.toNat) :
    (encode value).length ≤ (encode other).length := by
  obtain ⟨extraBytes, hle, hencode, -⟩ := exists_encode other
  have hpos : 0 < (encode other).length := by
    rw [hencode]
    exact Nat.succ_pos _
  by_cases hlength : (encode other).length ≤ 8
  · have hlt := (length_encode_le_iff hpos hlength).mp (Nat.le_refl _)
    exact (length_encode_le_iff hpos hlength).mpr (Nat.lt_of_le_of_lt h hlt)
  · have hnine := length_encode_le_nine value
    omega

/-- Nothing that is decoded to a value is shorter than what it is encoded as. -/
theorem length_encode_le {old value : UInt64} {bytes rest : Bytes}
    (h : decode ⟨old, bytes⟩ = .ok () ⟨value, rest⟩) : (encode value).length ≤ bytes.length := by
  obtain ⟨header, extra, rfl, hcount, hvalue⟩ := exists_of_decode h
  have hlength : (header :: (extra ++ rest)).length = extra.length + 1 + rest.length := by
    rw [List.length_cons, List.length_append]
    omega
  rw [hlength]
  obtain ⟨hle, hroom⟩ := header_lt header
  rw [← hcount] at hle hroom
  by_cases hnine : extra.length = 8
  · have hmax := length_encode_le_nine value
    omega
  · have hsmall : (encode value).length ≤ extra.length + 1 := by
      rw [length_encode_le_iff (Nat.succ_pos _) (by omega)]
      have hclear := hroom (by omega)
      have hextra := Math.ofBigEndian_lt extra
      calc value.toNat
        _ ≤ (clearOnes header extra.length).toNat * 256 ^ extra.length + ofBigEndian extra := by
          rw [hvalue, UInt64.toNat_ofNat']
          exact Nat.mod_le _ _
        _ < (clearOnes header extra.length).toNat * 256 ^ extra.length + 256 ^ extra.length := by
          omega
        _ = ((clearOnes header extra.length).toNat + 1) * 256 ^ extra.length :=
          (Nat.succ_mul _ _).symm
        _ ≤ 2 ^ (7 - extra.length) * 256 ^ extra.length := Nat.mul_le_mul_right _ hclear
        _ = 2 ^ (7 - extra.length) * 2 ^ (8 * extra.length) := by rw [Nat.pow_mul 2 8 extra.length]
        _ = 2 ^ (7 * (extra.length + 1)) := by
          rw [← Nat.pow_add]
          congr 1
          omega
    omega

end ProtocolVariableIntegerBase

/-! ## Signed values -/

namespace ProtocolVint

open ProtocolVariableIntegerBase (encode decode)

def get (value : UInt64) : Int64 := ((value >>> 1) ^^^ -(value &&& 1)).toInt64

def set (value : Int64) : UInt64 :=
  -- avoid signed shifting
  (if value < 0 then (0xffffffffffffffff : UInt64) else 0) ^^^ value.toUInt64 <<< 1

/-- A negative value is next to its absolute value. -/
theorem toNat_set (value : Int64) : ((set value).toNat : Int) =
    if value.toInt < 0 then -2 * value.toInt - 1 else 2 * value.toInt := by
  have hcast := toInt_toUInt64 value
  have hlt := value.toUInt64.toNat_lt
  have hshift : (value.toUInt64 <<< 1).toNat = 2 * value.toUInt64.toNat % 2 ^ 64 := by
    rw [UInt64.toNat_shiftLeft, Nat.shiftLeft_eq]
    change value.toUInt64.toNat * 2 ^ 1 % 2 ^ 64 = _
    rw [Nat.mul_comm]
  have hneg : value < 0 ↔ value.toInt < 0 := Int64.lt_iff_toInt_lt
  rw [set]
  by_cases hvalue : value.toInt < 0
  · have hxor : (0xffffffffffffffff : UInt64) ^^^ value.toUInt64 <<< 1 =
        ~~~(value.toUInt64 <<< 1) := UInt64.neg_one_xor
    rw [if_pos (hneg.mpr hvalue), if_pos hvalue, hxor, UInt64.toNat_not, hshift]
    rw [UInt64.size]
    split at hcast
    · omega
    · omega
  · rw [if_neg (fun h => hvalue (hneg.mp h)), if_neg hvalue, UInt64.zero_xor, hshift]
    split at hcast
    · omega
    · omega

theorem toInt_toInt64 (value : UInt64) : value.toInt64.toInt =
    if 2 * value.toNat < 2 ^ 64 then (value.toNat : Int) else value.toNat - (2 ^ 64 : Nat) := by
  have hcast := toInt_toUInt64 value.toInt64
  rw [UInt64.toUInt64_toInt64] at hcast
  exact hcast

theorem toInt_get (value : UInt64) : (get value).toInt =
    if value.toNat % 2 = 0 then (value.toNat / 2 : Int) else -(value.toNat / 2 : Int) - 1 := by
  have hlt := value.toNat_lt
  have hbit : (value &&& 1).toNat = value.toNat % 2 := by
    rw [UInt64.toNat_and]
    exact Nat.and_one_is_mod _
  have hshift : (value >>> 1).toNat = value.toNat / 2 := by
    rw [UInt64.toNat_shiftRight, Nat.shiftRight_eq_div_pow]
    rfl
  rw [get, toInt_toInt64]
  by_cases heven : value.toNat % 2 = 0
  · have hzero : value &&& 1 = 0 := UInt64.toNat_inj.mp (hbit.trans heven)
    rw [hzero, UInt64.neg_zero, UInt64.xor_zero, hshift, if_pos heven, if_pos (by omega)]
    omega
  · have hone : value &&& 1 = 1 := by
      apply UInt64.toNat_inj.mp
      rw [hbit, UInt64.toNat_one]
      omega
    rw [hone, UInt64.xor_neg_one, UInt64.toNat_not, hshift, if_neg heven, UInt64.size,
      if_neg (by omega)]
    omega

/-- The bijection between signed and unsigned values. -/
theorem get_set (value : Int64) : get (set value) = value := by
  apply Int64.toInt_inj.mp
  have hset := toNat_set value
  rw [toInt_get]
  split at hset
  · split
    · omega
    · omega
  · split
    · omega
    · omega

/-- A value closer to zero is not encoded longer. -/
theorem length_encode_set_mono {value other : Int64}
    (h : (value.toInt.natAbs : Int) ≤ other.toInt.natAbs - 1) :
    (encode (set value)).length ≤ (encode (set other)).length := by
  apply ProtocolVariableIntegerBase.length_encode_mono
  have hvalue := toNat_set value
  have hother := toNat_set other
  split at hvalue
  · split at hother
    · omega
    · omega
  · split at hother
    · omega
    · omega

end ProtocolVint

/-- The codecs of integers of variable length. -/
structure VariableIntegerCodecs : Prop where
  /-- An unsigned value is read back and the suffix is left. -/
  unsigned (value old : UInt64) (rest : Bytes) :
    ProtocolVariableIntegerBase.decode ⟨old, ProtocolVariableIntegerBase.encode value ++ rest⟩ =
      .ok () ⟨value, rest⟩
  /-- No bytes that are decoded to a value are fewer than those it is encoded as. -/
  shortest (value old : UInt64) (bytes rest : Bytes)
    (decodes : ProtocolVariableIntegerBase.decode ⟨old, bytes⟩ = .ok () ⟨value, rest⟩) :
    (ProtocolVariableIntegerBase.encode value).length ≤ bytes.length
  /-- A signed value is what was set. -/
  getSet (value : Int64) : ProtocolVint.get (ProtocolVint.set value) = value
  /-- A signed value is read back and the suffix is left. -/
  signed (value : Int64) (old : UInt64) (rest : Bytes) :
    ∃ read, ProtocolVariableIntegerBase.decode
        ⟨old, ProtocolVariableIntegerBase.encode (ProtocolVint.set value) ++ rest⟩ =
      .ok () ⟨read, rest⟩ ∧ ProtocolVint.get read = value
  /-- A signed value closer to zero is not longer. -/
  closer (value other : Int64) (closer : (value.toInt.natAbs : Int) ≤ other.toInt.natAbs - 1) :
    (ProtocolVariableIntegerBase.encode (ProtocolVint.set value)).length ≤
      (ProtocolVariableIntegerBase.encode (ProtocolVint.set other)).length

theorem variableIntegerCodecs : VariableIntegerCodecs where
  unsigned := ProtocolVariableIntegerBase.decode_encode
  shortest _ _ _ _ decodes := ProtocolVariableIntegerBase.length_encode_le decodes
  getSet := ProtocolVint.get_set
  signed value old rest :=
    ⟨_, ProtocolVariableIntegerBase.decode_encode _ old rest, ProtocolVint.get_set value⟩
  closer _ _ := ProtocolVint.length_encode_set_mono

/-- 256000 takes three bytes. -/
example : ProtocolVariableIntegerBase.encode 256000 = [0b11000011, 0b11101000, 0b00000000] := by
  decide

end CqlDriver
