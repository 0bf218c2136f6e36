import CqlDriver.Common.TimeUUID
import CqlDriver.Math.Hexadecimal
import CqlDriver.Math.Register
import CqlDriver.Protocol.Primitive

/-!
# The text of UUIDs

A UUID is read from six groups of digits at fixed offsets, and the text has to have the right
size. The four characters between the groups are looked at by no one.

## Main definitions

* `dumpIntToHex`, `loadIntFromHex` — integers as digits
* `uuidToStr`, `strToUUID`
* `UUIDForm` — the texts of the form 8-4-4-4-12
* `TextAgrees` — what is accepted, what is written for it, and the round trip

## Main results

* `textAgrees_iff` — a text with its digits in place needs its separators
-/

namespace CqlDriver

open Math (hexValue hexDigit upperCase readHex writeHex)

/-! ## Integers as digits -/

/-- `"0123456789ABCDEF"`. -/
def digits : Bytes :=
  [0x30, 0x31, 0x32, 0x33, 0x34, 0x35, 0x36, 0x37, 0x38, 0x39, 0x41, 0x42, 0x43, 0x44, 0x45, 0x46]

section Loops

variable {w : Nat}

/-- The last `count` digits of an integer. -/
def dumpDigits (value : BitVec w) : Nat → Bytes → Bytes
  | 0, str => str
  | count + 1, str =>
    dumpDigits value count (str ++ [digits.getD (value >>> (4 * count) &&& 0xf).toNat 0])

/-- The next `count` digits, behind those that are in `uvalue`. A text ends with a zero byte. -/
def loadDigits : Nat → Bytes → BitVec w → Option (BitVec w)
  | 0, _, uvalue => some uvalue
  | count + 1, hex, uvalue =>
    let c := hex.headD 0
    if c = 0 then none
    else if c - 0x30 ≤ 9 then
      loadDigits count hex.tail (uvalue <<< 4 ||| (c - 0x30).toBitVec.setWidth w)
    else if c - 0x61 ≤ 5 then
      loadDigits count hex.tail (uvalue <<< 4 ||| (c - 0x61 + 0xa).toBitVec.setWidth w)
    else if c - 0x41 ≤ 5 then
      loadDigits count hex.tail (uvalue <<< 4 ||| (c - 0x41 + 0xa).toBitVec.setWidth w)
    else none

end Loops

/-- Convert an integer of `size` bytes to hex and write it to a string. -/
def dumpIntToHex (size : Nat) (value : BitVec (8 * size)) (str : Bytes) : Bytes :=
  dumpDigits value (size * 2) str

/-- Convert hex to an integer of `size` bytes, where this succeeds. -/
def loadIntFromHex (size : Nat) (hex : Bytes) : Option (BitVec (8 * size)) :=
  loadDigits (size * 2) hex 0

/-! ## UUIDs -/

def sizeNotMatched : Exception := ⟨.format, "invalid uuid string: size should be 36, str is"⟩

def nonHexCharacter : Exception :=
  ⟨.format, "invalid uuid string: contains non-hex character, str is"⟩

/-- `static_cast<std::uint64_t>(...)`. -/
def toUInt64 {w : Nat} (value : BitVec w) : UInt64 := UInt64.ofBitVec (value.setWidth 64)

/-- Set the UUID by its string representation. -/
def strToUUID (str : Bytes) : Except Exception UUIDDataType :=
  -- example: 00112233-4455-6677-8899-aabbccddeeff
  if str.length ≠ 36 then
    .error sizeNotMatched
  else
    match loadIntFromHex 4 str, loadIntFromHex 2 (str.drop 9), loadIntFromHex 2 (str.drop 14),
        loadIntFromHex 2 (str.drop 19), loadIntFromHex 2 (str.drop 24),
        loadIntFromHex 4 (str.drop 28) with
    | some a, some b, some c, some d, some e, some f =>
      .ok (toUInt64 a <<< 32 ||| toUInt64 b <<< 16 ||| toUInt64 c,
        toUInt64 d <<< 48 ||| toUInt64 e <<< 32 ||| toUInt64 f)
    | _, _, _, _, _, _ => .error nonHexCharacter

/-- Get the string representation of a UUID. -/
def uuidToStr (uuid : UUIDDataType) : Bytes :=
  let result := dumpIntToHex 4 ((uuid.1 >>> 32).toBitVec.setWidth 32) [] ++ [0x2d]
  let result := dumpIntToHex 2 ((uuid.1 >>> 16 &&& 0xffff).toBitVec.setWidth 16) result ++ [0x2d]
  let result := dumpIntToHex 2 ((uuid.1 &&& 0xffff).toBitVec.setWidth 16) result ++ [0x2d]
  let result := dumpIntToHex 2 ((uuid.2 >>> 48 &&& 0xffff).toBitVec.setWidth 16) result ++ [0x2d]
  let result := dumpIntToHex 2 ((uuid.2 >>> 32 &&& 0xffff).toBitVec.setWidth 16) result
  dumpIntToHex 4 ((uuid.2 &&& 0xffffffff).toBitVec.setWidth 32) result

/-- The positions of the separators. -/
def IsSeparator (i : Nat) : Prop := i = 8 ∨ i = 13 ∨ i = 18 ∨ i = 23

instance (i : Nat) : Decidable (IsSeparator i) := inferInstanceAs (Decidable (_ ∨ _))

/-- There are 36 characters, and digits of either case everywhere but at the separators. -/
structure DigitsInPlace (str : Bytes) : Prop where
  length : str.length = 36
  digits : ∀ i, ¬ IsSeparator i → ∀ c, str[i]? = some c → (hexValue c).isSome

/-- The form 8-4-4-4-12. -/
structure UUIDForm (str : Bytes) : Prop extends DigitsInPlace str where
  separators : ∀ i, IsSeparator i → str[i]? = some 0x2d

/-- What holds of a text and a UUID. -/
structure TextAgrees (str : Bytes) (uuid : UUIDDataType) : Prop where
  accepts : (∃ read, strToUUID str = .ok read) ↔ UUIDForm str
  upper : ∀ read, strToUUID str = .ok read → uuidToStr read = str.map upperCase
  roundTrip : strToUUID (uuidToStr uuid) = .ok uuid

/-! ## The loops -/

section Loops

variable {w count : Nat} {c : UInt8} {hex str : Bytes}

theorem getD_digits : ∀ n < 16, digits.getD n 0 = hexDigit n := by decide

/-- The digits of an integer are appended. -/
theorem dumpDigits_eq (hw : 4 ≤ w) (value : BitVec w) (count : Nat) :
    dumpDigits value count str = str ++ writeHex count value.toNat := by
  induction count generalizing str with
  | zero => rw [dumpDigits, writeHex, List.append_nil]
  | succ count ih =>
    have hmask : (0xf#w).toNat = 2 ^ 4 - 1 :=
      Nat.mod_eq_of_lt (Nat.lt_of_lt_of_le (by decide : 15 < 2 ^ 4) (Nat.pow_le_pow_right (by decide) hw))
    have hpow : 2 ^ (4 * count) = 16 ^ count := by rw [Nat.pow_mul]
    have hdigit : (value >>> (4 * count) &&& 0xf).toNat = value.toNat / 16 ^ count % 16 := by
      show (value >>> (4 * count) &&& 0xf#w).toNat = _
      rw [BitVec.toNat_and, BitVec.toNat_ushiftRight, Nat.shiftRight_eq_div_pow, hmask, hpow,
        Nat.and_two_pow_sub_one_eq_mod]
    rw [dumpDigits, ih, hdigit, getD_digits _ (Nat.mod_lt _ (by decide)), writeHex,
      List.append_assoc, List.singleton_append]

/-- The next digit is put behind those that were read. -/
theorem append_digit (acc : Nat) {digit : Nat} (h : digit < 16) :
    BitVec.ofNat w acc <<< 4 ||| BitVec.ofNat w digit = BitVec.ofNat w (acc * 16 + digit) := by
  have hshift : BitVec.ofNat w acc <<< 4 = BitVec.ofNat w (acc <<< 4) := by
    apply BitVec.eq_of_toNat_eq
    simp only [BitVec.toNat_shiftLeft, BitVec.toNat_ofNat, Nat.shiftLeft_eq, Nat.mod_mul_mod]
  have hor : acc <<< 4 + digit = acc <<< 4 ||| digit := Nat.shiftLeft_add_eq_or_of_lt h acc
  rw [hshift, ← BitVec.ofNat_or, ← hor, Nat.shiftLeft_eq]

/-- A byte in a wider integer. -/
theorem setWidth_byte {n : Nat} (h : c.toNat = n) : c.toBitVec.setWidth w = BitVec.ofNat w n := by
  subst h
  apply BitVec.eq_of_toNat_eq
  rw [BitVec.toNat_setWidth, BitVec.toNat_ofNat, UInt8.toNat_toBitVec]

/-- The test for a range of characters, with the difference held in a byte. -/
theorem sub_le_iff {first last : UInt8} (h : first.toNat + last.toNat < 256) :
    c - first ≤ last ↔ first.toNat ≤ c.toNat ∧ c.toNat ≤ first.toNat + last.toNat := by
  have hlt := c.toNat_lt
  rw [UInt8.le_iff_toNat_le, UInt8.toNat_sub]
  omega

/-- The tests find the value of a digit. -/
theorem loadDigits_cons (count : Nat) (c : UInt8) (hex : Bytes) (uvalue : BitVec w) :
    loadDigits (count + 1) (c :: hex) uvalue = (hexValue c).bind fun digit =>
      loadDigits count hex (uvalue <<< 4 ||| BitVec.ofNat w digit) := by
  have hlt := c.toNat_lt
  have hsub : ∀ first : UInt8, first.toNat ≤ c.toNat → (c - first).toNat = c.toNat - first.toNat :=
    fun first hle => UInt8.toNat_sub_of_le _ _ (UInt8.le_iff_toNat_le.mpr hle)
  have hdecimal := @sub_le_iff c 0x30 9 (by decide)
  have hlower := @sub_le_iff c 0x61 5 (by decide)
  have hupper := @sub_le_iff c 0x41 5 (by decide)
  simp only [UInt8.reduceToNat] at hdecimal hlower hupper
  simp only [loadDigits, List.headD_cons, List.tail_cons, hdecimal, hlower, hupper, hexValue]
  by_cases hzero : c = 0
  · subst hzero
    simp
  rw [if_neg hzero]
  split_ifs with h0 ha hA
  · rw [Option.bind_some, setWidth_byte (hsub 0x30 h0.1)]
    rfl
  · have hten : (c - 0x61 + 0xa).toNat = c.toNat - 87 := by
      rw [UInt8.toNat_add, hsub 0x61 ha.1]
      simp only [UInt8.reduceToNat]
      omega
    rw [Option.bind_some, setWidth_byte hten]
  · have hten : (c - 0x41 + 0xa).toNat = c.toNat - 55 := by
      rw [UInt8.toNat_add, hsub 0x41 hA.1]
      simp only [UInt8.reduceToNat]
      omega
    rw [Option.bind_some, setWidth_byte hten]
  · rfl

/-- The loop reads as many digits as there are characters for them. -/
theorem loadDigits_eq (acc : Nat) (h : count ≤ hex.length) :
    loadDigits count hex (BitVec.ofNat w acc) =
      (readHex acc (hex.take count)).map (BitVec.ofNat w) := by
  induction count generalizing acc hex with
  | zero => rfl
  | succ count ih =>
    obtain ⟨c, hex, rfl⟩ := List.exists_cons_of_length_pos (Nat.lt_of_lt_of_le count.succ_pos h)
    rw [loadDigits_cons, List.take_succ_cons, readHex]
    cases hvalue : hexValue c with
    | none => rfl
    | some digit =>
      rw [Option.bind_some, Option.bind_some, append_digit acc (Math.hexValue_lt hvalue),
        ih _ (Nat.le_of_succ_le_succ h)]

end Loops

/-! ## The groups -/

section Groups

variable {str : Bytes} {uuid : UUIDDataType}

/-- `count` characters from an offset on. -/
def slice (str : Bytes) (offset count : Nat) : Bytes := (str.drop offset).take count

theorem forall_mem_slice {p : UInt8 → Prop} {offset count : Nat} :
    (∀ c ∈ slice str offset count, p c) ↔
      ∀ i, offset ≤ i → i < offset + count → ∀ c, str[i]? = some c → p c := by
  simp only [slice, List.mem_iff_getElem?, List.getElem?_take, List.getElem?_drop]
  constructor
  · intro hall i hge hlt c hc
    refine hall c ⟨i - offset, ?_⟩
    rw [if_pos (by omega), Nat.add_sub_cancel' hge]
    exact hc
  · rintro hall c ⟨i, hc⟩
    split_ifs at hc with hlt
    exact hall _ (Nat.le_add_right _ _) (by omega) c hc

theorem slice_append {offset count next : Nat} (h : offset + count = next) :
    slice str offset count ++ str.drop next = str.drop offset := by
  rw [slice, ← h, ← List.drop_drop]
  exact List.take_append_drop count _

/-- A group is read where the text reaches so far. -/
theorem loadIntFromHex_drop (size offset : Nat) (h : offset + size * 2 ≤ str.length) :
    loadIntFromHex size (str.drop offset) =
      (readHex 0 (slice str offset (size * 2))).map (BitVec.ofNat (8 * size)) :=
  loadDigits_eq 0 (by rw [List.length_drop]; omega)

/-- The numbers of the six groups. -/
structure Groups (str : Bytes) (a b c d e f : Nat) : Prop where
  a : readHex 0 (slice str 0 8) = some a
  b : readHex 0 (slice str 9 4) = some b
  c : readHex 0 (slice str 14 4) = some c
  d : readHex 0 (slice str 19 4) = some d
  e : readHex 0 (slice str 24 4) = some e
  f : readHex 0 (slice str 28 8) = some f

/-- The UUID of six groups. -/
def ofGroups (a b c d e f : Nat) : UUIDDataType :=
  (UInt64.ofNat (a * 2 ^ 32 + b * 2 ^ 16 + c), UInt64.ofNat (d * 2 ^ 48 + e * 2 ^ 32 + f))

/-- Shifted groups do not overlap. -/
theorem shifted_or {high middle low i j : Nat} (hlow : low < 2 ^ i) (hmiddle : middle < 2 ^ j) :
    high <<< (i + j) ||| middle <<< i ||| low = high * 2 ^ (i + j) + middle * 2 ^ i + low := by
  have hbound : middle <<< i < 2 ^ (i + j) := by
    rw [Nat.shiftLeft_eq, Nat.pow_add, Nat.mul_comm]
    exact Nat.mul_lt_mul_of_pos_left hmiddle (Nat.two_pow_pos i)
  have hfactor : high <<< (i + j) + middle <<< i = (high <<< j + middle) <<< i := by
    simp only [Nat.shiftLeft_eq, Nat.pow_add]
    ring
  rw [← Nat.shiftLeft_add_eq_or_of_lt hbound, hfactor, ← Nat.shiftLeft_add_eq_or_of_lt hlow,
    ← hfactor]
  simp only [Nat.shiftLeft_eq]

theorem shiftLeft_lt {n i j : Nat} (h : n < 2 ^ j) (hle : j + i ≤ 64) : n <<< i < 2 ^ 64 := by
  rw [Nat.shiftLeft_eq]
  calc n * 2 ^ i
    _ < 2 ^ j * 2 ^ i := Nat.mul_lt_mul_of_pos_right h (Nat.two_pow_pos i)
    _ = 2 ^ (j + i) := (Nat.pow_add 2 j i).symm
    _ ≤ 2 ^ 64 := Nat.pow_le_pow_right (by decide) hle

theorem toNat_toUInt64 {w n : Nat} (hw : w ≤ 64) (h : n < 2 ^ w) :
    (toUInt64 (BitVec.ofNat w n)).toNat = n := by
  have hlt : n < 2 ^ 64 := h.trans_le (Nat.pow_le_pow_right (by decide) hw)
  rw [toUInt64, UInt64.toNat_ofBitVec, BitVec.toNat_setWidth, BitVec.toNat_ofNat,
    Nat.mod_eq_of_lt h, Nat.mod_eq_of_lt hlt]

/-- What is put together from six groups. -/
theorem assembled {a b c d e f : Nat} (ha : a < 2 ^ 32) (hb : b < 2 ^ 16) (hc : c < 2 ^ 16)
    (hd : d < 2 ^ 16) (he : e < 2 ^ 16) (hf : f < 2 ^ 32) :
    (toUInt64 (BitVec.ofNat 32 a) <<< 32 ||| toUInt64 (BitVec.ofNat 16 b) <<< 16 |||
        toUInt64 (BitVec.ofNat 16 c),
      toUInt64 (BitVec.ofNat 16 d) <<< 48 ||| toUInt64 (BitVec.ofNat 16 e) <<< 32 |||
        toUInt64 (BitVec.ofNat 32 f)) = ofGroups a b c d e f := by
  refine Prod.ext (UInt64.toNat_inj.mp ?_) (UInt64.toNat_inj.mp ?_)
  · have hfirst : a * 2 ^ 32 + b * 2 ^ 16 + c < 2 ^ 64 := by
      simp only [Nat.reducePow] at ha hb hc ⊢
      omega
    have hor : a <<< 32 ||| b <<< 16 ||| c = _ := @shifted_or a b c 16 16 hc hb
    simp only [ofGroups, UInt64.toNat_or, UInt64.toNat_shiftLeft, UInt64.reduceToNat,
      toNat_toUInt64 (by decide : 32 ≤ 64) ha, toNat_toUInt64 (by decide : 16 ≤ 64) hb,
      toNat_toUInt64 (by decide : 16 ≤ 64) hc, UInt64.toNat_ofNat', Nat.reduceMod,
      Nat.mod_eq_of_lt hfirst]
    rw [Nat.mod_eq_of_lt (shiftLeft_lt ha (by decide)), Nat.mod_eq_of_lt (shiftLeft_lt hb (by decide)),
      hor]
  · have hsecond : d * 2 ^ 48 + e * 2 ^ 32 + f < 2 ^ 64 := by
      simp only [Nat.reducePow] at hd he hf ⊢
      omega
    have hor : d <<< 48 ||| e <<< 32 ||| f = _ := @shifted_or d e f 32 16 hf he
    simp only [ofGroups, UInt64.toNat_or, UInt64.toNat_shiftLeft, UInt64.reduceToNat,
      toNat_toUInt64 (by decide : 16 ≤ 64) hd, toNat_toUInt64 (by decide : 16 ≤ 64) he,
      toNat_toUInt64 (by decide : 32 ≤ 64) hf, UInt64.toNat_ofNat', Nat.reduceMod,
      Nat.mod_eq_of_lt hsecond]
    rw [Nat.mod_eq_of_lt (shiftLeft_lt hd (by decide)), Nat.mod_eq_of_lt (shiftLeft_lt he (by decide)),
      hor]

/-- The six groups are below their powers. -/
theorem Groups.lt {a b c d e f : Nat} (h : Groups str a b c d e f) (hlength : str.length = 36) :
    (a < 2 ^ 32 ∧ b < 2 ^ 16 ∧ c < 2 ^ 16) ∧ d < 2 ^ 16 ∧ e < 2 ^ 16 ∧ f < 2 ^ 32 := by
  have hcount : ∀ offset count, offset + count ≤ 36 → (slice str offset count).length = count := by
    intro offset count hle
    rw [slice, List.length_take, List.length_drop, hlength]
    omega
  have hlt : ∀ offset count n, offset + count ≤ 36 →
      readHex 0 (slice str offset count) = some n → n < 16 ^ count := by
    intro offset count n hle hread
    have hbound := Math.lt_of_readHex hread
    rwa [hcount offset count hle] at hbound
  exact ⟨⟨hlt 0 8 a (by decide) h.a, hlt 9 4 b (by decide) h.b, hlt 14 4 c (by decide) h.c⟩,
    hlt 19 4 d (by decide) h.d, hlt 24 4 e (by decide) h.e, hlt 28 8 f (by decide) h.f⟩

/-- The six reads of a text of the right size. -/
theorem strToUUID_of_length (hlength : str.length = 36) :
    strToUUID str =
      match readHex 0 (slice str 0 8), readHex 0 (slice str 9 4), readHex 0 (slice str 14 4),
        readHex 0 (slice str 19 4), readHex 0 (slice str 24 4), readHex 0 (slice str 28 8) with
      | some a, some b, some c, some d, some e, some f => .ok (ofGroups a b c d e f)
      | _, _, _, _, _, _ => .error nonHexCharacter := by
  have hreads : ∀ size offset, offset + size * 2 ≤ 36 → loadIntFromHex size (str.drop offset) =
      (readHex 0 (slice str offset (size * 2))).map (BitVec.ofNat (8 * size)) :=
    fun size offset hle => loadIntFromHex_drop size offset (hlength.symm ▸ hle)
  have hfirst := hreads 4 0 (by decide)
  rw [List.drop_zero] at hfirst
  rw [strToUUID, if_neg (not_not.mpr hlength), hfirst, hreads 2 9 (by decide),
    hreads 2 14 (by decide), hreads 2 19 (by decide), hreads 2 24 (by decide),
    hreads 4 28 (by decide)]
  -- a group that is not read leaves the same exception on both sides
  cases ha : readHex 0 (slice str 0 8) with
  | none => simp
  | some a =>
  cases hb : readHex 0 (slice str 9 4) with
  | none => simp
  | some b =>
  cases hc : readHex 0 (slice str 14 4) with
  | none => simp
  | some c =>
  cases hd : readHex 0 (slice str 19 4) with
  | none => simp
  | some d =>
  cases he : readHex 0 (slice str 24 4) with
  | none => simp
  | some e =>
  cases hf : readHex 0 (slice str 28 8) with
  | none => simp
  | some f =>
    have hlt := Groups.lt ⟨ha, hb, hc, hd, he, hf⟩ hlength
    exact congrArg Except.ok (assembled hlt.1.1 hlt.1.2.1 hlt.1.2.2 hlt.2.1 hlt.2.2.1 hlt.2.2.2)

theorem strToUUID_of_groups {a b c d e f : Nat} (hlength : str.length = 36)
    (h : Groups str a b c d e f) : strToUUID str = .ok (ofGroups a b c d e f) := by
  rw [strToUUID_of_length hlength, h.a, h.b, h.c, h.d, h.e, h.f]

/-- A text that is read has the right size and six groups. -/
theorem groups_of_strToUUID (h : strToUUID str = .ok uuid) :
    str.length = 36 ∧ ∃ a b c d e f, Groups str a b c d e f ∧ uuid = ofGroups a b c d e f := by
  by_cases hlength : str.length = 36
  · rw [strToUUID_of_length hlength] at h
    split at h
    · next a b c d e f ha hb hc hd he hf =>
      exact ⟨hlength, a, b, c, d, e, f, ⟨ha, hb, hc, hd, he, hf⟩, (Except.ok.inj h).symm⟩
    · cases h
  · rw [strToUUID, if_pos hlength] at h
    cases h

/-- The groups are read exactly when the digits are in place. -/
theorem groups_iff (hlength : str.length = 36) :
    (∃ a b c d e f, Groups str a b c d e f) ↔ DigitsInPlace str := by
  have hgroup : ∀ offset count, (∃ n, readHex 0 (slice str offset count) = some n) ↔
      ∀ i, offset ≤ i → i < offset + count → ∀ c, str[i]? = some c → (hexValue c).isSome := by
    intro offset count
    rw [← Option.isSome_iff_exists, Math.readHex_isSome, forall_mem_slice]
  constructor
  · rintro ⟨a, b, c, d, e, f, h⟩
    refine ⟨hlength, fun i hi char hchar => ?_⟩
    have hlt : i < 36 := hlength ▸ (List.getElem?_eq_some_iff.mp hchar).1
    simp only [IsSeparator, not_or] at hi
    -- the group of the position
    have hcases : i < 8 ∨ (9 ≤ i ∧ i < 13) ∨ (14 ≤ i ∧ i < 18) ∨ (19 ≤ i ∧ i < 23) ∨
        (24 ≤ i ∧ i < 28) ∨ 28 ≤ i := by omega
    rcases hcases with hin | hin | hin | hin | hin | hin
    · exact (hgroup 0 8).mp ⟨a, h.a⟩ i (Nat.zero_le i) hin char hchar
    · exact (hgroup 9 4).mp ⟨b, h.b⟩ i hin.1 hin.2 char hchar
    · exact (hgroup 14 4).mp ⟨c, h.c⟩ i hin.1 hin.2 char hchar
    · exact (hgroup 19 4).mp ⟨d, h.d⟩ i hin.1 hin.2 char hchar
    · exact (hgroup 24 4).mp ⟨e, h.e⟩ i hin.1 hin.2 char hchar
    · exact (hgroup 28 8).mp ⟨f, h.f⟩ i hin hlt char hchar
  · intro hplace
    have hread : ∀ offset count, (∀ i, offset ≤ i → i < offset + count → ¬ IsSeparator i) →
        ∃ n, readHex 0 (slice str offset count) = some n :=
      fun offset count hnone => (hgroup offset count).mpr
        fun i hge hlt => hplace.digits i (hnone i hge hlt)
    obtain ⟨a, ha⟩ := hread 0 8 fun i hge hlt => by rw [IsSeparator]; omega
    obtain ⟨b, hb⟩ := hread 9 4 fun i hge hlt => by rw [IsSeparator]; omega
    obtain ⟨c, hc⟩ := hread 14 4 fun i hge hlt => by rw [IsSeparator]; omega
    obtain ⟨d, hd⟩ := hread 19 4 fun i hge hlt => by rw [IsSeparator]; omega
    obtain ⟨e, he⟩ := hread 24 4 fun i hge hlt => by rw [IsSeparator]; omega
    obtain ⟨f, hf⟩ := hread 28 8 fun i hge hlt => by rw [IsSeparator]; omega
    exact ⟨a, b, c, d, e, f, ha, hb, hc, hd, he, hf⟩

/-- The separators are not looked at. -/
theorem strToUUID_accepts : (∃ read, strToUUID str = .ok read) ↔ DigitsInPlace str := by
  constructor
  · rintro ⟨read, h⟩
    obtain ⟨hlength, a, b, c, d, e, f, hgroups, -⟩ := groups_of_strToUUID h
    exact (groups_iff hlength).mp ⟨a, b, c, d, e, f, hgroups⟩
  · intro hplace
    obtain ⟨a, b, c, d, e, f, hgroups⟩ := (groups_iff hplace.length).mpr hplace
    exact ⟨_, strToUUID_of_groups hplace.length hgroups⟩

/-! ## Texts -/

/-- The text of six groups. -/
def textOf (a b c d e f : Nat) : Bytes :=
  writeHex 8 a ++ 0x2d :: (writeHex 4 b ++ 0x2d :: (writeHex 4 c ++ 0x2d ::
    (writeHex 4 d ++ 0x2d :: (writeHex 4 e ++ writeHex 8 f))))

theorem toNat_setWidth {w : Nat} (value : UInt64) :
    (value.toBitVec.setWidth w).toNat = value.toNat % 2 ^ w := by
  rw [BitVec.toNat_setWidth, UInt64.toNat_toBitVec]

/-- The text of a UUID is that of its six fields. -/
theorem uuidToStr_eq (uuid : UUIDDataType) : uuidToStr uuid =
    textOf (uuid.1.toNat / 2 ^ 32) (uuid.1.toNat / 2 ^ 16 % 2 ^ 16) (uuid.1.toNat % 2 ^ 16)
      (uuid.2.toNat / 2 ^ 48) (uuid.2.toNat / 2 ^ 32 % 2 ^ 16) (uuid.2.toNat % 2 ^ 32) := by
  have hlt := uuid.1.toNat_lt
  have hlt' := uuid.2.toNat_lt
  have hshift : ∀ (value : UInt64) (k : UInt64), (value >>> k).toNat =
      value.toNat / 2 ^ (k.toNat % 64) := by
    intro value k
    rw [UInt64.toNat_shiftRight, Nat.shiftRight_eq_div_pow]
  have hmask : ∀ value : UInt64, (value &&& 0xffff).toNat = value.toNat % 2 ^ 16 := by
    intro value
    rw [UInt64.toNat_and]
    exact Nat.and_two_pow_sub_one_eq_mod _ 16
  have hmask' : (uuid.2 &&& 0xffffffff).toNat = uuid.2.toNat % 2 ^ 32 := by
    rw [UInt64.toNat_and]
    exact Nat.and_two_pow_sub_one_eq_mod _ 32
  have hfirst : uuid.1.toNat / 2 ^ 32 % 2 ^ 32 = uuid.1.toNat / 2 ^ 32 := by omega
  have hfourth : uuid.2.toNat / 2 ^ 48 % 2 ^ 16 = uuid.2.toNat / 2 ^ 48 := by omega
  simp only [uuidToStr, dumpIntToHex, textOf, dumpDigits_eq (by decide : 4 ≤ 32),
    dumpDigits_eq (by decide : 4 ≤ 16), toNat_setWidth, hmask, hmask', hshift, UInt64.reduceToNat,
    Nat.reduceMod, Nat.reduceMul, Nat.mod_mod, hfirst, hfourth, List.append_assoc, List.nil_append,
    List.cons_append]

/-- The six fields of a UUID make it up. -/
theorem ofGroups_fields (uuid : UUIDDataType) :
    ofGroups (uuid.1.toNat / 2 ^ 32) (uuid.1.toNat / 2 ^ 16 % 2 ^ 16) (uuid.1.toNat % 2 ^ 16)
      (uuid.2.toNat / 2 ^ 48) (uuid.2.toNat / 2 ^ 32 % 2 ^ 16) (uuid.2.toNat % 2 ^ 32) = uuid := by
  have hfirst : uuid.1.toNat / 2 ^ 32 * 2 ^ 32 + uuid.1.toNat / 2 ^ 16 % 2 ^ 16 * 2 ^ 16 +
      uuid.1.toNat % 2 ^ 16 = uuid.1.toNat := by
    simp only [Nat.reducePow]
    omega
  have hsecond : uuid.2.toNat / 2 ^ 48 * 2 ^ 48 + uuid.2.toNat / 2 ^ 32 % 2 ^ 16 * 2 ^ 32 +
      uuid.2.toNat % 2 ^ 32 = uuid.2.toNat := by
    clear hfirst
    simp only [Nat.reducePow]
    omega
  rw [ofGroups, hfirst, hsecond, UInt64.ofNat_toNat, UInt64.ofNat_toNat]

variable {a b c d e f : Nat}

/-- The fields of a UUID that was made of groups are these groups. -/
theorem uuidToStr_ofGroups (hfirst : a < 2 ^ 32 ∧ b < 2 ^ 16 ∧ c < 2 ^ 16)
    (hsecond : d < 2 ^ 16 ∧ e < 2 ^ 16 ∧ f < 2 ^ 32) :
    uuidToStr (ofGroups a b c d e f) = textOf a b c d e f := by
  have hx : a * 2 ^ 32 + b * 2 ^ 16 + c < 2 ^ 64 ∧ (a * 2 ^ 32 + b * 2 ^ 16 + c) / 2 ^ 32 = a ∧
      (a * 2 ^ 32 + b * 2 ^ 16 + c) / 2 ^ 16 % 2 ^ 16 = b ∧
      (a * 2 ^ 32 + b * 2 ^ 16 + c) % 2 ^ 16 = c := by
    simp only [Nat.reducePow] at hfirst ⊢
    omega
  have hy : d * 2 ^ 48 + e * 2 ^ 32 + f < 2 ^ 64 ∧ (d * 2 ^ 48 + e * 2 ^ 32 + f) / 2 ^ 48 = d ∧
      (d * 2 ^ 48 + e * 2 ^ 32 + f) / 2 ^ 32 % 2 ^ 16 = e ∧
      (d * 2 ^ 48 + e * 2 ^ 32 + f) % 2 ^ 32 = f := by
    clear hx
    simp only [Nat.reducePow] at hsecond ⊢
    omega
  rw [uuidToStr_eq, ofGroups]
  simp only [UInt64.toNat_ofNat', Nat.mod_eq_of_lt hx.1, Nat.mod_eq_of_lt hy.1, hx.2.1, hx.2.2.1,
    hx.2.2.2, hy.2.1, hy.2.2.1, hy.2.2.2]

/-- A text is cut at its separators. -/
theorem cut (hlength : str.length = 36) (hseparators : ∀ i, IsSeparator i → str[i]? = some 0x2d) :
    str = slice str 0 8 ++ 0x2d :: (slice str 9 4 ++ 0x2d :: (slice str 14 4 ++ 0x2d ::
      (slice str 19 4 ++ 0x2d :: (slice str 24 4 ++ slice str 28 8)))) := by
  have hseparator : ∀ i, IsSeparator i → 0x2d :: str.drop (i + 1) = str.drop i := by
    intro i hi
    rw [@List.drop_eq_getElem?_toList_append _ str i, hseparators i hi]
    rfl
  have hlast : slice str 28 8 = str.drop 28 :=
    List.take_of_length_le (by rw [List.length_drop, hlength])
  rw [hlast, slice_append rfl, hseparator 23 (by decide), slice_append rfl,
    hseparator 18 (by decide), slice_append rfl, hseparator 13 (by decide), slice_append rfl,
    hseparator 8 (by decide), slice_append rfl, List.drop_zero]

/-- What was read from the form is written in upper case. -/
theorem textOf_of_groups (hform : UUIDForm str) (h : Groups str a b c d e f) :
    textOf a b c d e f = str.map upperCase := by
  have hgroup : ∀ offset count n, offset + count ≤ 36 →
      readHex 0 (slice str offset count) = some n →
      writeHex count n = (slice str offset count).map upperCase := by
    intro offset count n hle hread
    have hwritten := Math.writeHex_of_readHex hread
    have hcount : (slice str offset count).length = count := by
      rw [slice, List.length_take, List.length_drop, hform.length]
      omega
    rwa [hcount] at hwritten
  have hdash : upperCase 0x2d = 0x2d := by decide
  conv_rhs => rw [cut hform.length hform.separators]
  simp only [List.map_append, List.map_cons, hdash]
  rw [textOf, hgroup 0 8 a (by decide) h.a, hgroup 9 4 b (by decide) h.b,
    hgroup 14 4 c (by decide) h.c, hgroup 19 4 d (by decide) h.d, hgroup 24 4 e (by decide) h.e,
    hgroup 28 8 f (by decide) h.f]

theorem length_textOf (a b c d e f : Nat) : (textOf a b c d e f).length = 36 := by
  simp [textOf]

/-- The groups of a text that was written. -/
theorem groups_textOf (hfirst : a < 2 ^ 32 ∧ b < 2 ^ 16 ∧ c < 2 ^ 16)
    (hsecond : d < 2 ^ 16 ∧ e < 2 ^ 16 ∧ f < 2 ^ 32) :
    Groups (textOf a b c d e f) a b c d e f := by
  have hread : ∀ count n, n < 16 ^ count → readHex 0 (writeHex count n) = some n := by
    intro count n hlt
    rw [Math.readHex_writeHex, Nat.zero_mul, Nat.zero_add, Nat.mod_eq_of_lt hlt]
  -- what stands before a group is dropped, and what stands behind it is not taken
  constructor
  · rw [← hread 8 a hfirst.1]
    simp [slice, textOf]
  · rw [← hread 4 b hfirst.2.1]
    simp [slice, textOf, List.drop_append, List.drop_of_length_le]
  · rw [← hread 4 c hfirst.2.2]
    simp [slice, textOf, List.drop_append, List.drop_of_length_le]
  · rw [← hread 4 d hsecond.1]
    simp [slice, textOf, List.drop_append, List.drop_of_length_le]
  · rw [← hread 4 e hsecond.2.1]
    simp [slice, textOf, List.drop_append, List.drop_of_length_le]
  · rw [← hread 8 f hsecond.2.2]
    simp [slice, textOf, List.drop_append, List.drop_of_length_le, List.take_of_length_le]

/-- A UUID that was written is read back. -/
theorem strToUUID_uuidToStr (uuid : UUIDDataType) : strToUUID (uuidToStr uuid) = .ok uuid := by
  have hlt := uuid.1.toNat_lt
  have hlt' := uuid.2.toNat_lt
  have hgroups := groups_textOf (a := uuid.1.toNat / 2 ^ 32) (b := uuid.1.toNat / 2 ^ 16 % 2 ^ 16)
    (c := uuid.1.toNat % 2 ^ 16) (d := uuid.2.toNat / 2 ^ 48) (e := uuid.2.toNat / 2 ^ 32 % 2 ^ 16)
    (f := uuid.2.toNat % 2 ^ 32) (by omega) (by omega)
  have hread := strToUUID_of_groups (length_textOf ..) hgroups
  rwa [← uuidToStr_eq, ofGroups_fields] at hread

/-- What is read from the form is written as the form in upper case. -/
theorem uuidToStr_of_strToUUID (hform : UUIDForm str) (h : strToUUID str = .ok uuid) :
    uuidToStr uuid = str.map upperCase := by
  obtain ⟨hlength, a, b, c, d, e, f, hgroups, rfl⟩ := groups_of_strToUUID h
  have hlt := hgroups.lt hlength
  rw [uuidToStr_ofGroups hlt.1 hlt.2, textOf_of_groups hform hgroups]

end Groups

/-- Text and UUID agree exactly where a text with its digits in place has its separators. -/
theorem textAgrees_iff (str : Bytes) (uuid : UUIDDataType) :
    TextAgrees str uuid ↔ (DigitsInPlace str → ∀ i, IsSeparator i → str[i]? = some 0x2d) := by
  constructor
  · intro hagrees hplace
    exact (hagrees.accepts.mp (strToUUID_accepts.mpr hplace)).separators
  · intro hseparators
    have hform : DigitsInPlace str → UUIDForm str := fun hplace => ⟨hplace, hseparators hplace⟩
    refine ⟨⟨fun hread => hform (strToUUID_accepts.mp hread),
      fun hform => strToUUID_accepts.mpr hform.toDigitsInPlace⟩, ?_, strToUUID_uuidToStr uuid⟩
    intro read hread
    exact uuidToStr_of_strToUUID (hform (strToUUID_accepts.mp ⟨read, hread⟩)) hread

/-- A text with blanks for its separators is read. -/
theorem not_textAgrees_blanks : ¬ ∀ (str : Bytes) (uuid : UUIDDataType), TextAgrees str uuid := by
  intro hall
  let str : Bytes := List.replicate 8 0x30 ++ 0x20 :: (List.replicate 4 0x30 ++ 0x20 ::
    (List.replicate 4 0x30 ++ 0x20 :: (List.replicate 4 0x30 ++ 0x20 :: List.replicate 12 0x30)))
  have hread : strToUUID str = .ok (0, 0) := by decide
  have hform := (hall str (0, 0)).accepts.mp ⟨_, hread⟩
  exact absurd (hform.separators 8 (by decide)) (by decide)

end CqlDriver
