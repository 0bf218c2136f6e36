import Mathlib.Algebra.Order.Field.Rat
import CqlDriver.Column.DecimalArithmetic
import CqlDriver.Common.OStream
import CqlDriver.Math.Numeral

/-!
# The text of decimals

A positive scale cuts the unscaled value in two, at a power of ten that is held modulo
2^64. The first part is written as it is and the second one padded with zeros to the scale;
the field width belongs to the next output only.

## Main definitions

* `Decimal.write` — `operator<<`
* `Decimal.WritesRight` — a numeral of the exact number with all its digits
* `Decimal.WritesSafely` — the decimals that are written as they should be

## Main results

* `Decimal.writesRight_iff_writesSafely`
-/

namespace CqlDriver

open Math (Fits fits_toInt readNumeral readUnsigned writeNatural writeInteger IsDigits)

namespace Decimal

/-- The remainder of a division by an `unsigned long long`. -/
def modUnsigned (dividend divisor : BitVec 64) : Except DivisionTrap (BitVec 64) :=
  if divisor = 0 then .error .divisionByZero else .ok (dividend % divisor)

/-- `operator<<`. -/
def write (stream : OStream) (value : DecimalDataType) : Except DivisionTrap OStream :=
  let scale := value.1
  if scale = 0 then
    .ok (stream.insert (writeInteger value.2.toInt))
  else if 0 < scale.toInt then do
    let unscaled := value.2
    let unscaledAbs := unscaled.abs
    let boundary := powerOfTen scale
    let sign := if 0 ≤ unscaled.toInt then [] else ['-']
    let stream := (stream.insert sign).insert
      (writeNatural (← divUnsigned unscaledAbs boundary).toNat)
    let stream := ((stream.insert ['.']).setfill '0').setw scale.toInt
    return stream.insert (writeNatural (← modUnsigned unscaledAbs boundary).toNat)
  else
    let unscaled := value.2
    let stream := stream.insert (writeInteger unscaled.toInt)
    let stream := (stream.setfill '0').setw (-scale).toInt
    .ok (stream.insert ['0'])

/-- On a stream without a pending field width a numeral is appended that denotes the exact
number, with the digits of a positive scale after the point. -/
def WritesRight (value : DecimalDataType) : Prop :=
  ∀ text fill, ∃ chars after numeral, write ⟨text, 0, fill⟩ value = .ok ⟨text ++ chars, 0, after⟩ ∧
    readNumeral chars = some numeral ∧ numeral.value = exact value ∧
    (0 < value.1.toInt → numeral.places = value.1.toInt)

/-- The decimals that are written as they should be. -/
def WritesSafely (value : DecimalDataType) : Prop :=
  if 0 < value.1.toInt then
    value.1.toInt ≤ 19 ∨ value.2.toInt.natAbs < 10 ^ value.1.toInt.toNat % 2 ^ 64
  else value.1.toInt = -2 ^ 31 → value.2.toInt = 0

/-! ## The two parts -/

variable {value : DecimalDataType}

/-- The magnitude is that of the integer, also for the least one, which has no negative. -/
theorem toNat_abs (x : BitVec 64) : x.abs.toNat = x.toInt.natAbs := by
  rw [BitVec.toNat_abs, BitVec.toInt_eq_msb_cond]
  have hlt := x.isLt
  split
  · omega
  · omega

/-- Two parts that were cut at `b` are put together at `p`. -/
theorem parts_eq_iff {n b p : Nat} (hb : 0 < b) : n / b * p + n % b = n ↔ b = p ∨ n < b := by
  have hcut := Nat.div_add_mod n b
  rw [← Nat.div_eq_zero_iff_lt hb]
  constructor
  · intro hparts
    have hproduct : n / b * b = n / b * p := by
      rw [mul_comm (n / b) b]
      omega
    rcases Nat.eq_zero_or_pos (n / b) with hzero | hpos
    · exact Or.inr hzero
    · exact Or.inl (Nat.eq_of_mul_eq_mul_left hpos hproduct)
  · rintro (rfl | hzero)
    · rwa [mul_comm]
    · rw [hzero, Nat.mul_zero, Nat.zero_add] at hcut
      rw [hzero, Nat.zero_mul, Nat.zero_add, hcut]

theorem tenPow_mod_eq_iff {e : Nat} : 10 ^ e % 2 ^ 64 = 10 ^ e ↔ e ≤ 19 := by
  constructor
  · intro hexact
    by_contra hlarge
    have hlt := Math.lt_tenPow (e := e) (by omega)
    have hmod := Nat.mod_lt (10 ^ e) (show 0 < 2 ^ 64 by decide)
    omega
  · intro hle
    exact Nat.mod_eq_of_lt (Math.tenPow_le hle)

/-! ## The three kinds of scale -/

theorem write_of_zero (h : value.1 = 0) (text : List Char) (fill : Char) :
    write ⟨text, 0, fill⟩ value = .ok ⟨text ++ writeInteger value.2.toInt, 0, fill⟩ := by
  simp only [write, h, if_true, OStream.insert_of_width_zero]

/-- The zeros of a negative scale, of which one is written in any case. -/
theorem write_of_neg (h : value.1.toInt < 0) (text : List Char) (fill : Char) :
    write ⟨text, 0, fill⟩ value = .ok ⟨text ++ (writeInteger value.2.toInt ++
      List.replicate ((-value.1).toInt.toNat - 1 + 1) '0'), 0, '0'⟩ := by
  have hne : value.1 ≠ 0 := by
    intro hzero
    rw [hzero] at h
    exact absurd h (by decide)
  have hwidth : ((-value.1).toInt - (['0'] : List Char).length).toNat =
      (-value.1).toInt.toNat - 1 := by
    rw [List.length_singleton]
    omega
  simp only [write, hne, if_false, if_neg (not_lt.mpr h.le), OStream.insert_of_width_zero]
  rw [OStream.setfill, OStream.setw, OStream.insert]
  simp only [hwidth, List.append_assoc, List.replicate_succ']

section Positive

variable (h : 0 < value.1.toInt)

include h

theorem scale_ne_zero : value.1 ≠ 0 := by
  intro hzero
  rw [hzero] at h
  exact absurd h (by decide)

/-- The power that cuts the value in two is lost. -/
theorem write_eq_error (he : 64 ≤ value.1.toInt) (stream : OStream) :
    write stream value = .error .divisionByZero := by
  have hpower : powerOfTen value.1 = 0 := by
    apply BitVec.eq_of_toNat_eq
    rw [toNat_powerOfTen_of_pos h, Math.mod_tenPow_eq_zero_iff.mpr (by omega)]
    rfl
  simp only [write, scale_ne_zero h, if_false, if_pos h, divUnsigned, hpower, if_true]
  rfl

/-- The sign, the two parts and the point between them. -/
theorem write_of_pos (he : value.1.toInt < 64) (text : List Char) (fill : Char) :
    let n := value.2.toInt.natAbs
    let e := value.1.toInt.toNat
    let b := 10 ^ e % 2 ^ 64
    write ⟨text, 0, fill⟩ value = .ok ⟨text ++
      ((if value.2.toInt < 0 then ['-'] else []) ++ (writeNatural (n / b) ++ '.' ::
        (List.replicate (e - (writeNatural (n % b)).length) '0' ++ writeNatural (n % b)))),
      0, '0'⟩ := by
  intro n e b
  have hpower : (powerOfTen value.1).toNat = b := toNat_powerOfTen_of_pos h
  have hpos : 0 < b := Math.mod_tenPow_pos (by omega)
  have hne : powerOfTen value.1 ≠ 0 := by
    intro hzero
    rw [hzero] at hpower
    exact absurd hpower hpos.ne
  have hdiv : divUnsigned value.2.abs (powerOfTen value.1) =
      .ok (value.2.abs / powerOfTen value.1) := if_neg hne
  have hmod : modUnsigned value.2.abs (powerOfTen value.1) =
      .ok (value.2.abs % powerOfTen value.1) := if_neg hne
  have hquotient : (value.2.abs / powerOfTen value.1).toNat = n / b := by
    rw [BitVec.toNat_udiv, toNat_abs, hpower]
  have hremainder : (value.2.abs % powerOfTen value.1).toNat = n % b := by
    rw [BitVec.toNat_umod, toNat_abs, hpower]
  have hsign : (if 0 ≤ value.2.toInt then [] else ['-']) =
      if value.2.toInt < 0 then ['-'] else [] := by
    split
    · rw [if_neg (by omega)]
    · rw [if_pos (by omega)]
  simp only [write, scale_ne_zero h, if_false, if_pos h, hdiv, hmod]
  change Except.ok _ = _
  rw [OStream.insert_of_width_zero, OStream.insert_of_width_zero, OStream.insert_of_width_zero,
    OStream.setfill, OStream.setw, OStream.insert]
  have hwidth : (value.1.toInt - (writeNatural (n % b)).length).toNat =
      e - (writeNatural (n % b)).length := by omega
  simp [hsign, hquotient, hremainder, hwidth]

end Positive

/-! ## When the text is right -/

/-- What is read back decides. -/
theorem writesRight_iff {chars : List Char} {after : Char → Char} {numeral : Math.Numeral}
    (hwrite : ∀ text fill, write ⟨text, 0, fill⟩ value = .ok ⟨text ++ chars, 0, after fill⟩)
    (hread : readNumeral chars = some numeral) :
    WritesRight value ↔
      numeral.value = exact value ∧ (0 < value.1.toInt → numeral.places = value.1.toInt) := by
  constructor
  · intro hright
    obtain ⟨chars', after', numeral', hwritten, hsome, hvalue, hplaces⟩ := hright [] ' '
    rw [hwrite] at hwritten
    obtain rfl : chars = chars' := by
      injection hwritten with hstream
      injection hstream
    rw [hread, Option.some_inj] at hsome
    rw [hsome]
    exact ⟨hvalue, hplaces⟩
  · rintro ⟨hvalue, hplaces⟩ text fill
    exact ⟨chars, after fill, numeral, hwrite text fill, hread, hvalue, hplaces⟩

/-- Two parts of a magnitude denote the number when they give the magnitude back. -/
theorem signed_parts_eq_iff {u : Int} {e q r : Nat} :
    (if u < 0 then -((q : ℚ) + r / 10 ^ e) else q + r / 10 ^ e) = u * 10 ^ (-(e : Int)) ↔
      q * 10 ^ e + r = u.natAbs := by
  have hpow : (10 : ℚ) ^ e ≠ 0 := pow_ne_zero _ (by norm_num)
  have hparts : (q : ℚ) + r / 10 ^ e = u.natAbs / 10 ^ e ↔ q * 10 ^ e + r = u.natAbs := by
    rw [eq_div_iff hpow, add_mul, div_mul_cancel₀ _ hpow]
    exact_mod_cast Iff.rfl
  rw [← hparts, zpow_neg, zpow_natCast, ← div_eq_mul_inv]
  by_cases hneg : u < 0
  · have hcast : (u : ℚ) = -u.natAbs := by
      rw [← Math.signed_natAbs u, if_pos hneg]
    rw [if_pos hneg, hcast, neg_div, neg_inj]
  · have hcast : (u : ℚ) = u.natAbs := by
      rw [← Math.signed_natAbs u, if_neg hneg]
    rw [if_neg hneg, hcast]

theorem writesRight_iff_of_pos (h : 0 < value.1.toInt) : WritesRight value ↔
    value.1.toInt ≤ 19 ∨ value.2.toInt.natAbs < 10 ^ value.1.toInt.toNat % 2 ^ 64 := by
  by_cases he : value.1.toInt < 64
  · have hexp : value.1.toInt = (value.1.toInt.toNat : Int) := by omega
    have hpos : 0 < 10 ^ value.1.toInt.toNat % 2 ^ 64 := Math.mod_tenPow_pos (by omega)
    have hpart : value.2.toInt.natAbs % (10 ^ value.1.toInt.toNat % 2 ^ 64) <
        10 ^ value.1.toInt.toNat := (Nat.mod_lt _ hpos).trans_le (Nat.mod_le _ _)
    have hexact : exact value = value.2.toInt * 10 ^ (-(value.1.toInt.toNat : Int)) := by
      rw [exact, ← hexp]
    rw [writesRight_iff (write_of_pos h he) (Math.readNumeral_point _ _ (by omega) hpart), hexact,
      signed_parts_eq_iff, parts_eq_iff hpos, tenPow_mod_eq_iff]
    dsimp only
    omega
  · -- the division by zero
    have hzero := Math.mod_tenPow_eq_zero_iff (e := value.1.toInt.toNat) |>.mpr (by omega)
    refine iff_of_false ?_ (by omega)
    intro hright
    obtain ⟨chars, after, numeral, hwritten, -⟩ := hright [] ' '
    rw [write_eq_error h (by omega)] at hwritten
    cases hwritten

theorem writesRight_of_zero (h : value.1.toInt = 0) : WritesRight value := by
  have hzero : value.1 = 0 := BitVec.eq_of_toInt_eq h
  have hread := Math.readNumeral_integer_zeros value.2.toInt 0
  rw [List.replicate_zero, List.append_nil] at hread
  refine (writesRight_iff (write_of_zero hzero) hread).mpr ⟨?_, by omega⟩
  rw [exact, h, neg_zero, zpow_zero, pow_zero]

/-- The least scale has no negative, and one zero is written instead of 2^31. -/
theorem writesRight_iff_of_neg (h : value.1.toInt < 0) : WritesRight value ↔
    (value.1.toInt = -2 ^ 31 → value.2.toInt = 0) := by
  have hneg : (-value.1).toInt = (-value.1.toInt).bmod (2 ^ 32) := BitVec.toInt_neg
  obtain ⟨hge, hlt⟩ := fits_toInt value.1
  rw [writesRight_iff (write_of_neg h) (Math.readNumeral_integer_zeros _ _), exact]
  by_cases hleast : value.1.toInt = -2 ^ 31
  · rw [hleast] at hneg ⊢
    have hwidth : (-value.1).toInt.toNat - 1 + 1 = 1 := by
      rw [hneg]
      decide
    have hpow : (10 : ℚ) ^ 1 ≠ 10 ^ (-(-2 ^ 31 : Int)) := by
      rw [neg_neg, ← zpow_natCast, Ne, zpow_right_inj₀ (by norm_num) (by norm_num)]
      decide
    rw [hwidth]
    constructor
    · rintro ⟨hvalue, -⟩ -
      by_contra hne
      exact hpow (mul_left_cancel₀ (Int.cast_ne_zero.mpr hne) hvalue)
    · intro hzero
      rw [hzero rfl, Int.cast_zero, zero_mul, zero_mul]
      exact ⟨rfl, fun hpos => absurd hpos (by decide)⟩
  · have hfits : Fits 32 (-value.1.toInt) := ⟨by omega, by omega⟩
    rw [Math.bmod_of_fits (by decide) hfits] at hneg
    have hwidth : (((-value.1).toInt.toNat - 1 + 1 : Nat) : Int) = -value.1.toInt := by omega
    refine iff_of_true ⟨?_, by omega⟩ (by omega)
    rw [← hwidth, zpow_natCast]

/-- A decimal is written as it should be exactly when it is safe to write. -/
theorem writesRight_iff_writesSafely (value : DecimalDataType) :
    WritesRight value ↔ WritesSafely value := by
  rw [WritesSafely]
  rcases lt_trichotomy value.1.toInt 0 with hneg | hzero | hpos
  · rw [if_neg (not_lt.mpr hneg.le), writesRight_iff_of_neg hneg]
  · rw [if_neg (by omega)]
    exact iff_of_true (writesRight_of_zero hzero) (by omega)
  · rw [if_pos hpos, writesRight_iff_of_pos hpos]

/-- 10^64 is a multiple of 2^64, so the value is divided by zero. -/
theorem not_writesRight_lost_power :
    write ⟨[], 0, ' '⟩ (64, 1) = .error .divisionByZero ∧ ¬ WritesRight (64, 1) := by
  refine ⟨write_eq_error (by decide) (by decide) _, ?_⟩
  rw [writesRight_iff_of_pos (by decide)]
  decide

end Decimal

end CqlDriver
