import Mathlib.Algebra.Field.Rat
import Mathlib.Algebra.Order.Field.Basic
import Mathlib.Logic.Function.Basic
import Mathlib.Tactic.NormNum
import CqlDriver.Column.Scalars
import CqlDriver.Common.MathUtils
import CqlDriver.Math.Register

/-!
# Arithmetic on decimals

A decimal is an unscaled value of 64 bits and a scale of 32 bits. The operators bring the
operand with the smaller scale to the larger one, by a power of ten of unsigned 64 bits. The
compound operators work on references, which may be the same object; the binary ones copy
their left operand. Overloads for the underlying pair convert it first.

Sums, differences, products and negatives of signed integers wrap.

## Main definitions

* `Decimal.exact` — the rational number of a decimal
* `Decimal.scale` — another scale
* `Decimal.addAssign`, `Decimal.subAssign`, `Decimal.mulAssign`, `Decimal.divAssign`
* `Decimal.add`, `Decimal.sub`, `Decimal.mul`, `Decimal.div`

## Main results

* `Decimal.powerOfTen_of_pos`, `Decimal.powerOfTen_neg` — the power of a scale difference
* `Decimal.addAssign_eq`, `Decimal.mulAssign_eq` — compound and binary operators agree
* `Decimal.exactArithmetic` — results that fit are exact
-/

namespace CqlDriver

open Math (Fits fits_toInt)

/-- The scale and the unscaled value. -/
abbrev DecimalDataType := BitVec 32 × BitVec 64

/-- A division that has no result. -/
inductive DivisionTrap
  | divisionByZero
  | overflow
  deriving DecidableEq, Repr

namespace Decimal

/-- The number that a decimal stands for: unscaled * 10^(-scale). -/
def exact (value : DecimalDataType) : ℚ := value.2.toInt * 10 ^ (-value.1.toInt)

/-! ## The operators -/

/-- `powInteger(10ULL, scaleDiff)`; the exponent becomes a `std::size_t`. -/
def powerOfTen (scaleDiff : BitVec 32) : BitVec 64 :=
  powInteger 10 (scaleDiff.signExtend 64).toNat

/-- A division by an `unsigned long long`, to which the dividend is converted. -/
def divUnsigned (dividend divisor : BitVec 64) : Except DivisionTrap (BitVec 64) :=
  if divisor = 0 then .error .divisionByZero else .ok (dividend / divisor)

/-- A division of signed integers. -/
def divSigned (dividend divisor : BitVec 64) : Except DivisionTrap (BitVec 64) :=
  if divisor = 0 then .error .divisionByZero
  else if dividend = BitVec.intMin 64 ∧ divisor = -1 then .error .overflow
  else .ok (dividend.sdiv divisor)

/-- `Decimal::scale`. -/
def scale (value : DecimalDataType) (scaleValue : BitVec 32) :
    Except DivisionTrap DecimalDataType :=
  let scaleDiff := value.1 - scaleValue
  if 0 < scaleDiff.toInt then do
    return (scaleValue, ← divUnsigned value.2 (powerOfTen scaleDiff))
  else if scaleDiff.toInt < 0 then
    .ok (scaleValue, value.2 * powerOfTen (-scaleDiff))
  else .ok value

/-- The decimals that references can point to. -/
abbrev Objects (ι : Type) := ι → DecimalDataType

section Compound

variable {ι : Type} [DecidableEq ι]

def setScale (objects : Objects ι) (a : ι) (scale : BitVec 32) : Objects ι :=
  Function.update objects a (scale, (objects a).2)

def setUnscaled (objects : Objects ι) (a : ι) (unscaled : BitVec 64) : Objects ι :=
  Function.update objects a ((objects a).1, unscaled)

/-- `operator +=` and `operator -=`. -/
def compoundAssignAddSub (op : BitVec 64 → BitVec 64 → BitVec 64) (objects : Objects ι)
    (a b : ι) : Objects ι :=
  let scaleDiff := (objects a).1 - (objects b).1
  if 0 < scaleDiff.toInt then
    setUnscaled objects a (op (objects a).2 ((objects b).2 * powerOfTen scaleDiff))
  else if scaleDiff.toInt < 0 then
    let objects := setScale objects a ((objects a).1 - scaleDiff)
    let objects := setUnscaled objects a ((objects a).2 * powerOfTen (-scaleDiff))
    setUnscaled objects a (op (objects a).2 (objects b).2)
  else
    setUnscaled objects a (op (objects a).2 (objects b).2)

def addAssign (objects : Objects ι) (a b : ι) : Objects ι :=
  compoundAssignAddSub (fun x y => x + y) objects a b

def subAssign (objects : Objects ι) (a b : ι) : Objects ι :=
  compoundAssignAddSub (fun x y => x - y) objects a b

/-- `operator *=`. -/
def mulAssign (objects : Objects ι) (a b : ι) : Objects ι :=
  let objects := setScale objects a ((objects a).1 + (objects b).1)
  setUnscaled objects a ((objects a).2 * (objects b).2)

/-- The first part of `operator /=`, which adjusts the unscaled value of `a`. -/
def adjustForDiv (objects : Objects ι) (a b : ι) : Except DivisionTrap (Objects ι) :=
  let bScale := (objects b).1
  if 0 < bScale.toInt then
    .ok (setUnscaled objects a ((objects a).2 * powerOfTen bScale))
  else if bScale.toInt < 0 then do
    return setUnscaled objects a (← divUnsigned (objects a).2 (powerOfTen (-bScale)))
  else .ok objects

/-- `operator /=`. -/
def divAssign (objects : Objects ι) (a b : ι) : Except DivisionTrap (Objects ι) := do
  let objects ← adjustForDiv objects a b
  -- scale of a unchanged
  return setUnscaled objects a (← divSigned (objects a).2 (objects b).2)

end Compound

/-- The objects of a binary operator: the copy of its left operand, and the right one. -/
inductive Operand
  | result
  | b
  deriving DecidableEq, Repr

/-- `auto result = T(a)`. -/
def copied (a b : DecimalDataType) : Objects Operand
  | .result => a
  | .b => b

def add (a b : DecimalDataType) : DecimalDataType := addAssign (copied a b) .result .b .result

def sub (a b : DecimalDataType) : DecimalDataType := subAssign (copied a b) .result .b .result

def mul (a b : DecimalDataType) : DecimalDataType := mulAssign (copied a b) .result .b .result

def div (a b : DecimalDataType) : Except DivisionTrap DecimalDataType := do
  return (← divAssign (copied a b) .result .b) .result

/-! ## Powers of ten -/

section Power

variable {d : BitVec 32}

theorem powerOfTen_eq (d : BitVec 32) :
    powerOfTen d = ((10 ^ (d.signExtend 64).toNat : Nat) : BitVec 64) := by
  rw [powerOfTen, powInteger_eq_pow (d.signExtend 64).isLt]
  push_cast
  rfl

/-- Powers from 10^64 on are zero. -/
theorem natCast_tenPow_eq_zero {e : Nat} (h : 64 ≤ e) : ((10 ^ e : Nat) : BitVec 64) = 0 := by
  apply BitVec.eq_of_toNat_eq
  rw [Math.toNat_natCast, Math.mod_tenPow_eq_zero_iff.mpr h]
  rfl

theorem powerOfTen_of_pos (h : 0 < d.toInt) :
    powerOfTen d = ((10 ^ d.toInt.toNat : Nat) : BitVec 64) := by
  have hextend : (d.signExtend 64).toInt = d.toInt := BitVec.toInt_signExtend_of_le (by decide)
  have hunsigned := Math.toNat_eq_toInt (d.signExtend 64)
  rw [hextend, if_neg (by omega)] at hunsigned
  rw [powerOfTen_eq]
  congr 2
  omega

/-- The negative of the smallest difference is that difference, which becomes an exponent
near 2^64; the power is zero as it should be. -/
theorem powerOfTen_neg (h : d.toInt < 0) :
    powerOfTen (-d) = ((10 ^ (-d.toInt).toNat : Nat) : BitVec 64) := by
  have hneg : (-d).toInt = (-d.toInt).bmod (2 ^ 32) := BitVec.toInt_neg
  have hge := d.le_toInt
  by_cases hmin : d.toInt = -2 ^ 31
  · have hself : (-d).toInt = -2 ^ 31 := by
      rw [hneg, hmin]
      decide
    have hextend : ((-d).signExtend 64).toInt = (-d).toInt :=
      BitVec.toInt_signExtend_of_le (by decide)
    have hunsigned := Math.toNat_eq_toInt ((-d).signExtend 64)
    rw [hextend, hself, if_pos (by decide)] at hunsigned
    rw [powerOfTen_eq, natCast_tenPow_eq_zero (by omega), natCast_tenPow_eq_zero (by omega)]
  · have hpos : (-d).toInt = -d.toInt := by
      rw [hneg]
      exact Math.bmod_of_fits (by decide) ⟨by omega, by omega⟩
    rw [powerOfTen_of_pos (by omega), hpos]

theorem toNat_powerOfTen_of_pos (h : 0 < d.toInt) :
    (powerOfTen d).toNat = 10 ^ d.toInt.toNat % 2 ^ 64 := by
  rw [powerOfTen_of_pos h, Math.toNat_natCast]

theorem toNat_powerOfTen_neg (h : d.toInt < 0) :
    (powerOfTen (-d)).toNat = 10 ^ (-d.toInt).toNat % 2 ^ 64 := by
  rw [powerOfTen_neg h, Math.toNat_natCast]

end Power

/-! ## What the operators compute -/

/-- The difference of the scales is taken in 32 bits. -/
theorem toInt_sub_scales (s t : BitVec 32) : (s - t).toInt =
    if 2 ^ 31 ≤ s.toInt - t.toInt then s.toInt - t.toInt - 2 ^ 32
    else if s.toInt - t.toInt < -2 ^ 31 then s.toInt - t.toInt + 2 ^ 32
    else s.toInt - t.toInt := by
  obtain ⟨hs, hs'⟩ := fits_toInt s
  obtain ⟨ht, ht'⟩ := fits_toInt t
  rw [BitVec.toInt_sub, Int.bmod]
  split
  · split
    · omega
    split
    · omega
    · omega
  · split
    · omega
    split
    · omega
    · omega


section Compound

variable {ι : Type} [DecidableEq ι]

/-- The value that `operator +=` and `operator -=` leave in `a`. -/
def addSub (op : BitVec 64 → BitVec 64 → BitVec 64) (x y : DecimalDataType) : DecimalDataType :=
  let scaleDiff := x.1 - y.1
  if 0 < scaleDiff.toInt then (x.1, op x.2 (y.2 * powerOfTen scaleDiff))
  else if scaleDiff.toInt < 0 then (y.1, op (x.2 * powerOfTen (-scaleDiff)) y.2)
  else (x.1, op x.2 y.2)

/-- Two references to one object have the same scale, so it is not rescaled before it is
read. -/
theorem compoundAssignAddSub_eq (op : BitVec 64 → BitVec 64 → BitVec 64) (objects : Objects ι)
    (a b : ι) : compoundAssignAddSub op objects a b =
      Function.update objects a (addSub op (objects a) (objects b)) := by
  rw [compoundAssignAddSub, addSub]
  split
  · rfl
  split
  next hneg =>
    have hne : b ≠ a := by
      rintro rfl
      rw [BitVec.sub_self] at hneg
      exact absurd hneg (by decide)
    simp [setScale, setUnscaled, hne]
  · rfl

theorem addAssign_copied (a b : DecimalDataType) : add a b = addSub (fun x y => x + y) a b := by
  rw [add, addAssign, compoundAssignAddSub_eq, Function.update_self]
  rfl

theorem subAssign_copied (a b : DecimalDataType) : sub a b = addSub (fun x y => x - y) a b := by
  rw [sub, subAssign, compoundAssignAddSub_eq, Function.update_self]
  rfl

/-- The compound operator leaves in `a` what the binary one returns, and changes nothing
else. -/
theorem addAssign_eq (objects : Objects ι) (a b : ι) :
    addAssign objects a b = Function.update objects a (add (objects a) (objects b)) := by
  rw [addAssign, compoundAssignAddSub_eq, addAssign_copied]

theorem subAssign_eq (objects : Objects ι) (a b : ι) :
    subAssign objects a b = Function.update objects a (sub (objects a) (objects b)) := by
  rw [subAssign, compoundAssignAddSub_eq, subAssign_copied]

/-- The scale is written first, and the unscaled values are read after that. -/
theorem mulAssign_update (objects : Objects ι) (a b : ι) : mulAssign objects a b =
    Function.update objects a ((objects a).1 + (objects b).1, (objects a).2 * (objects b).2) := by
  rw [mulAssign]
  by_cases hsame : b = a
  · subst hsame
    simp [setScale, setUnscaled]
  · simp [setScale, setUnscaled, hsame]

theorem mul_eq (x y : DecimalDataType) : mul x y = (x.1 + y.1, x.2 * y.2) := by
  rw [mul, mulAssign_update, Function.update_self]
  rfl

theorem mulAssign_eq (objects : Objects ι) (a b : ι) :
    mulAssign objects a b = Function.update objects a (mul (objects a) (objects b)) := by
  rw [mulAssign_update, mul_eq]

end Compound

/-! ## Results that fit -/

section Exact

variable {x y : DecimalDataType} {u : Int}

/-- A decimal written at a scale that is not smaller. -/
theorem exact_at {scale : Int} (h : x.1.toInt ≤ scale) :
    exact x = ((x.2.toInt * 10 ^ (scale - x.1.toInt).toNat : Int) : ℚ) * 10 ^ (-scale) := by
  have hexp : -x.1.toInt = ((scale - x.1.toInt).toNat : Int) + -scale := by omega
  rw [exact, hexp, zpow_add₀ (by norm_num), zpow_natCast, ← mul_assoc]
  push_cast
  rfl

/-- A number has one unscaled value at a scale. -/
theorem unscaled_unique {v : Int} {scale : Int}
    (h : (u : ℚ) * 10 ^ (-scale) = (v : ℚ) * 10 ^ (-scale)) : u = v := by
  have hpow : (10 : ℚ) ^ (-scale) ≠ 0 := zpow_ne_zero _ (by norm_num)
  exact_mod_cast mul_right_cancel₀ hpow h

/-- The wrapping operators compute the exact unscaled value, up to multiples of 2^64. -/
theorem addSub_eq {op : BitVec 64 → BitVec 64 → BitVec 64} {exactOp : Int → Int → Int}
    (hop : ∀ i j : Int, ((exactOp i j : Int) : BitVec 64) = op i j)
    (hscales : Fits 32 (x.1.toInt - y.1.toInt)) :
    (addSub op x y).1.toInt = max x.1.toInt y.1.toInt ∧
      (addSub op x y).2 = (exactOp
        (x.2.toInt * 10 ^ (max x.1.toInt y.1.toInt - x.1.toInt).toNat)
        (y.2.toInt * 10 ^ (max x.1.toInt y.1.toInt - y.1.toInt).toNat) : Int) := by
  have hdiff : (x.1 - y.1).toInt = x.1.toInt - y.1.toInt := by
    rw [BitVec.toInt_sub, Math.bmod_of_fits (by decide) hscales]
  rw [addSub, hop]
  push_cast
  simp only [hdiff, Math.intCast_toInt]
  split
  next hpos =>
    have hmax : max x.1.toInt y.1.toInt = x.1.toInt := max_eq_left (by omega)
    rw [hmax, Int.sub_self, powerOfTen_of_pos (hdiff ▸ hpos), hdiff]
    simp
  split
  next hneg =>
    have hmax : max x.1.toInt y.1.toInt = y.1.toInt := max_eq_right (by omega)
    have hexp : -(x.1.toInt - y.1.toInt) = y.1.toInt - x.1.toInt := by omega
    rw [hmax, Int.sub_self, powerOfTen_neg (hdiff ▸ hneg), hdiff, hexp]
    simp
  · have hsame : x.1.toInt = y.1.toInt := by omega
    rw [hsame, max_self, Int.sub_self]
    simp

theorem add_of_exact (hscales : Fits 32 (x.1.toInt - y.1.toInt)) (hu : Fits 64 u)
    (h : exact x + exact y = u * 10 ^ (-max x.1.toInt y.1.toInt)) :
    (add x y).1.toInt = max x.1.toInt y.1.toInt ∧ (add x y).2.toInt = u := by
  rw [exact_at (le_max_left _ _), exact_at (le_max_right _ _), ← add_mul, ← Int.cast_add] at h
  obtain ⟨hscale, hunscaled⟩ := @addSub_eq x y (fun i j => i + j) (fun i j => i + j)
    (fun i j => Int.cast_add i j) hscales
  rw [addAssign_copied, hscale, hunscaled, unscaled_unique h,
    Math.toInt_intCast_of_fits (by decide) hu]
  exact ⟨rfl, rfl⟩

theorem sub_of_exact (hscales : Fits 32 (x.1.toInt - y.1.toInt)) (hu : Fits 64 u)
    (h : exact x - exact y = u * 10 ^ (-max x.1.toInt y.1.toInt)) :
    (sub x y).1.toInt = max x.1.toInt y.1.toInt ∧ (sub x y).2.toInt = u := by
  rw [exact_at (le_max_left _ _), exact_at (le_max_right _ _), ← sub_mul, ← Int.cast_sub] at h
  obtain ⟨hscale, hunscaled⟩ := @addSub_eq x y (fun i j => i - j) (fun i j => i - j)
    (fun i j => Int.cast_sub i j) hscales
  rw [subAssign_copied, hscale, hunscaled, unscaled_unique h,
    Math.toInt_intCast_of_fits (by decide) hu]
  exact ⟨rfl, rfl⟩

theorem mul_of_exact (hscales : Fits 32 (x.1.toInt + y.1.toInt)) (hu : Fits 64 u)
    (h : exact x * exact y = u * 10 ^ (-(x.1.toInt + y.1.toInt))) :
    (mul x y).1.toInt = x.1.toInt + y.1.toInt ∧ (mul x y).2.toInt = u := by
  have hproduct : exact x * exact y =
      ((x.2.toInt * y.2.toInt : Int) : ℚ) * 10 ^ (-(x.1.toInt + y.1.toInt)) := by
    rw [exact, exact, neg_add, zpow_add₀ (by norm_num), mul_mul_mul_comm]
    push_cast
    rfl
  rw [hproduct] at h
  have hunscaled : x.2 * y.2 = (u : BitVec 64) := by
    rw [← unscaled_unique h, Int.cast_mul, Math.intCast_toInt, Math.intCast_toInt]
  rw [mul_eq]
  constructor
  · rw [BitVec.toInt_add, Math.bmod_of_fits (by decide) hscales]
  · rw [hunscaled, Math.toInt_intCast_of_fits (by decide) hu]

end Exact

/-- Addition, subtraction and multiplication are exact when the scales and the result fit,
and the compound operators agree with the binary ones for any two references. -/
structure ExactArithmetic : Prop where
  add (x y : DecimalDataType) (u : Int) (scales : Fits 32 (x.1.toInt - y.1.toInt))
    (fits : Fits 64 u) (result : exact x + exact y = u * 10 ^ (-max x.1.toInt y.1.toInt)) :
    (Decimal.add x y).1.toInt = max x.1.toInt y.1.toInt ∧ (Decimal.add x y).2.toInt = u
  sub (x y : DecimalDataType) (u : Int) (scales : Fits 32 (x.1.toInt - y.1.toInt))
    (fits : Fits 64 u) (result : exact x - exact y = u * 10 ^ (-max x.1.toInt y.1.toInt)) :
    (Decimal.sub x y).1.toInt = max x.1.toInt y.1.toInt ∧ (Decimal.sub x y).2.toInt = u
  mul (x y : DecimalDataType) (u : Int) (scales : Fits 32 (x.1.toInt + y.1.toInt))
    (fits : Fits 64 u) (result : exact x * exact y = u * 10 ^ (-(x.1.toInt + y.1.toInt))) :
    (Decimal.mul x y).1.toInt = x.1.toInt + y.1.toInt ∧ (Decimal.mul x y).2.toInt = u
  addAssign {ι : Type} [DecidableEq ι] (objects : Objects ι) (a b : ι) :
    Decimal.addAssign objects a b = Function.update objects a (Decimal.add (objects a) (objects b))
  subAssign {ι : Type} [DecidableEq ι] (objects : Objects ι) (a b : ι) :
    Decimal.subAssign objects a b = Function.update objects a (Decimal.sub (objects a) (objects b))
  mulAssign {ι : Type} [DecidableEq ι] (objects : Objects ι) (a b : ι) :
    Decimal.mulAssign objects a b = Function.update objects a (Decimal.mul (objects a) (objects b))

theorem exactArithmetic : ExactArithmetic where
  add _ _ _ scales fits result := add_of_exact scales fits result
  sub _ _ _ scales fits result := sub_of_exact scales fits result
  mul _ _ _ scales fits result := mul_of_exact scales fits result
  addAssign := addAssign_eq
  subAssign := subAssign_eq
  mulAssign := mulAssign_eq

/-- 12.3 and 1.23. -/
theorem exactArithmetic_tenths :
    ((add (1, 123) (2, 123)).1.toInt = 2 ∧ (add (1, 123) (2, 123)).2.toInt = 1353) ∧
      ((sub (1, 123) (2, 123)).1.toInt = 2 ∧ (sub (1, 123) (2, 123)).2.toInt = 1107) ∧
        (mul (1, 123) (2, 123)).1.toInt = 3 ∧ (mul (1, 123) (2, 123)).2.toInt = 15129 := by
  have hone : (1 : BitVec 32).toInt = 1 := rfl
  have htwo : (2 : BitVec 32).toInt = 2 := rfl
  have hvalue : (123 : BitVec 64).toInt = 123 := rfl
  have hx : exact (1, 123) = 123 / 10 := by norm_num [exact, hone, hvalue]
  have hy : exact (2, 123) = 123 / 100 := by norm_num [exact, htwo, hvalue]
  refine ⟨exactArithmetic.add (1, 123) (2, 123) 1353 (by decide) (by decide) ?_,
    exactArithmetic.sub (1, 123) (2, 123) 1107 (by decide) (by decide) ?_,
    exactArithmetic.mul (1, 123) (2, 123) 15129 (by decide) (by decide) ?_⟩
  · rw [hx, hy]
    norm_num [hone, htwo]
  · rw [hx, hy]
    norm_num [hone, htwo]
  · rw [hx, hy]
    norm_num [hone, htwo]

end Decimal

end CqlDriver
