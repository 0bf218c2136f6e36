import Mathlib.Algebra.Order.Ring.Int
import Mathlib.Algebra.Order.Ring.Nat
import Mathlib.Data.BitVec
import Mathlib.Data.Nat.Prime.Basic
import CqlDriver.Math.BigEndian

/-!
# Registers

A register of `w` bits holds an integer up to multiples of 2^w. Sums and products of
registers are those of the integers, whatever overflows on the way; reading a signed
register gives the integer back when it fits.

The power of ten that a register holds is exact up to 10^19 with 64 bits, and zero from 10^64
on.

## Main definitions

* `Fits` — the integers that a signed register holds

## Main results

* `toInt_intCast_of_fits` — reading a register
* `toSigned_toNat`, `ofSigned_eq_toNat` — registers as two's complement numbers
* `mod_tenPow_eq_zero_iff` — when a power of ten is lost
-/

namespace CqlDriver.Math

/-- The integers of a signed register. -/
def Fits (bits : Nat) (i : Int) : Prop := -2 ^ (bits - 1) ≤ i ∧ i < 2 ^ (bits - 1)

instance (bits : Nat) (i : Int) : Decidable (Fits bits i) := inferInstanceAs (Decidable (_ ∧ _))

section Registers

variable {w : Nat} {i : Int}

theorem fits_toInt (x : BitVec w) : Fits w x.toInt := ⟨x.le_toInt, BitVec.toInt_lt⟩

/-- A register holds the integer that is read from it. -/
@[simp] theorem intCast_toInt (x : BitVec w) : (x.toInt : BitVec w) = x := BitVec.ofInt_toInt

theorem toInt_intCast (i : Int) : (i : BitVec w).toInt = i.bmod (2 ^ w) := BitVec.toInt_ofInt i

theorem toNat_natCast (n : Nat) : (n : BitVec w).toNat = n % 2 ^ w := BitVec.toNat_ofNat n w

theorem bmod_of_fits (hpos : 0 < w) (h : Fits w i) : i.bmod (2 ^ w) = i := by
  have hpow : (2 : Int) ^ w = 2 * 2 ^ (w - 1) := by
    rw [← pow_succ', Nat.sub_add_cancel hpos]
  have hge := h.1
  have hlt := h.2
  apply Int.bmod_eq_of_le_mul_two
  · push_cast
    omega
  · push_cast
    omega

/-- An integer that fits is read back. -/
theorem toInt_intCast_of_fits (hpos : 0 < w) (h : Fits w i) : (i : BitVec w).toInt = i := by
  rw [toInt_intCast, bmod_of_fits hpos h]

/-- A register only holds what fits. -/
theorem fits_bmod (i : Int) : Fits w (i.bmod (2 ^ w)) := by
  rw [← toInt_intCast]
  exact fits_toInt _

/-- Two's complement numbers are the contents of registers. -/
theorem ofSigned_eq_toNat (i : Int) : ofSigned w i = (i : BitVec w).toNat :=
  (BitVec.toNat_ofInt i).symm

theorem toSigned_toNat (hpos : 0 < w) (x : BitVec w) : toSigned w x.toNat = x.toInt := by
  have hhalf : 2 ^ w = 2 * 2 ^ (w - 1) := by rw [← pow_succ', Nat.sub_add_cancel hpos]
  have hcast : ((2 ^ w : Nat) : Int) = 2 ^ w := by push_cast; rfl
  rw [toSigned, BitVec.toInt_eq_toNat_cond, ← hcast]
  by_cases hlt : x.toNat < 2 ^ (w - 1)
  · rw [if_pos hlt, if_pos (by omega)]
  · rw [if_neg hlt, if_neg (by omega)]

/-- What is lost are the multiples of 2^w. -/
theorem intCast_eq_zero_iff : (i : BitVec w) = 0 ↔ (2 ^ w : Int) ∣ i := by
  have hnat : (i : BitVec w).toNat = (i % 2 ^ w).toNat := BitVec.toNat_ofInt i
  have hnonneg : 0 ≤ i % 2 ^ w := Int.emod_nonneg _ (pow_ne_zero _ (by decide))
  rw [Int.dvd_iff_emod_eq_zero]
  constructor
  · intro hzero
    have hnone : (0 : BitVec w).toNat = 0 := BitVec.toNat_zero
    rw [hzero, hnone] at hnat
    omega
  · intro hmod
    apply BitVec.eq_of_toNat_eq
    rw [hnat, hmod]
    rfl

/-- A signed number is the unsigned one, or less by 2^w. -/
theorem toNat_eq_toInt (x : BitVec w) : (x.toNat : Int) =
    if x.toInt < 0 then x.toInt + 2 ^ w else x.toInt := by
  have hcond := BitVec.toInt_eq_toNat_cond x
  have hlt : x.toNat < 2 ^ w := x.isLt
  have hcast : ((2 ^ w : Nat) : Int) = 2 ^ w := by push_cast; rfl
  split at hcond
  · rw [if_neg (by omega), hcond]
  · rw [if_pos (by omega), hcond, hcast]
    omega

end Registers

section TenPow

variable {e : Nat}

theorem tenPow_le (h : e ≤ 19) : 10 ^ e < 2 ^ 64 :=
  Nat.lt_of_le_of_lt (Nat.pow_le_pow_right (by decide) h) (by decide)

/-- The magnitudes of 64 bits are below the powers of ten that do not fit. -/
theorem lt_tenPow (h : 20 ≤ e) : 2 ^ 64 < 10 ^ e :=
  Nat.lt_of_lt_of_le (by decide) (Nat.pow_le_pow_right (by decide) h)

/-- The factors of two fill the register. -/
theorem mod_tenPow_eq_zero_iff : 10 ^ e % 2 ^ 64 = 0 ↔ 64 ≤ e := by
  have hsplit : 10 ^ e = 2 ^ e * 5 ^ e := (Nat.mul_pow 2 5 e)
  have hcoprime : Nat.Coprime (2 ^ 64) (5 ^ e) := Nat.Coprime.pow _ _ (by decide)
  rw [← Nat.dvd_iff_mod_eq_zero, hsplit]
  constructor
  · intro hdvd
    exact (Nat.pow_dvd_pow_iff_le_right (by decide)).mp (hcoprime.dvd_of_dvd_mul_right hdvd)
  · intro hle
    exact Dvd.dvd.mul_right (Nat.pow_dvd_pow 2 hle) _

theorem mod_tenPow_pos (h : e < 64) : 0 < 10 ^ e % 2 ^ 64 := by
  rw [Nat.pos_iff_ne_zero, Ne, mod_tenPow_eq_zero_iff]
  omega

/-- A power of ten that was cut is a multiple of the power of two with its exponent. -/
theorem twoPow_dvd_mod_tenPow (h : e ≤ 64) : 2 ^ e ∣ 10 ^ e % 2 ^ 64 := by
  have hsplit : 10 ^ e = 2 ^ e * 5 ^ e := (Nat.mul_pow 2 5 e)
  rw [Nat.dvd_mod_iff (Nat.pow_dvd_pow 2 h), hsplit]
  exact Nat.dvd_mul_right _ _

end TenPow

end CqlDriver.Math
