import Mathlib.Algebra.Order.Floor.Ring
import Mathlib.Algebra.Order.Ring.Int
import Mathlib.Algebra.Order.Ring.Nat
import Mathlib.Data.Rat.Floor
import CqlDriver.Math.Register

/-!
# Truncation toward zero

Signed division truncates. Dividing the unsigned contents of a register is right for
numbers that are not negative, and otherwise only when nothing is left of the quotient.

## Main definitions

* `truncate` — the integer next to a rational number, toward zero

## Main results

* `truncate_div` — the quotient of integers
* `tdiv_of_pos` — its distance from the quotient that rounds down
* `bmod_tdiv_eq_iff` — when a product that wraps can be divided back
* `unsigned_tdiv_iff` — when the unsigned quotient by a power of ten is the signed one
-/

namespace CqlDriver.Math

/-- The integer part of a number. -/
def truncate (q : ℚ) : Int := if 0 ≤ q then ⌊q⌋ else ⌈q⌉

theorem truncate_neg (q : ℚ) : truncate (-q) = -truncate q := by
  rw [truncate, truncate]
  rcases lt_trichotomy q 0 with hneg | rfl | hpos
  · rw [if_pos (by linarith), if_neg (not_le.mpr hneg), Int.floor_neg]
  · simp
  · rw [if_neg (by linarith), if_pos hpos.le, Int.ceil_neg]

theorem truncate_natCast_div (m n : Nat) : truncate ((m : ℚ) / n) = (m : Int).tdiv n := by
  have hnonneg : (0 : ℚ) ≤ (m : ℚ) / n := by positivity
  have hfloor := Rat.floor_intCast_div_natCast m n
  rw [truncate, if_pos hnonneg, Int.natCast_tdiv_eq_ediv, ← hfloor]
  push_cast
  rfl

/-- The quotient of integers is truncated. -/
theorem truncate_div (m n : Int) : truncate ((m : ℚ) / n) = m.tdiv n := by
  -- the signs are moved out of the division
  obtain ⟨i, rfl | rfl⟩ := Int.eq_nat_or_neg m
  · obtain ⟨j, rfl | rfl⟩ := Int.eq_nat_or_neg n
    · exact truncate_natCast_div i j
    · rw [Int.cast_neg, div_neg, truncate_neg, Int.tdiv_neg]
      exact congrArg Neg.neg (truncate_natCast_div i j)
  · obtain ⟨j, rfl | rfl⟩ := Int.eq_nat_or_neg n
    · rw [Int.cast_neg, neg_div, truncate_neg, Int.neg_tdiv]
      exact congrArg Neg.neg (truncate_natCast_div i j)
    · rw [Int.cast_neg, Int.cast_neg, neg_div_neg_eq, Int.neg_tdiv_neg]
      exact truncate_natCast_div i j

/-- A negative quotient that is not exact is rounded up. -/
theorem tdiv_of_pos (m : Int) {n : Int} (hn : 0 < n) :
    m.tdiv n = m / n + if 0 ≤ m ∨ n ∣ m then 0 else 1 := by
  rw [Int.tdiv_eq_ediv, Int.sign_eq_one_of_pos hn]

/-- A quotient is zero when the divisor is larger. -/
theorem tdiv_eq_zero_iff {m n : Int} (hn : n ≠ 0) : m.tdiv n = 0 ↔ m.natAbs < n.natAbs := by
  rw [← Int.natAbs_eq_zero, Int.natAbs_tdiv]
  exact Nat.div_eq_zero_iff_lt (Int.natAbs_pos.mpr hn)

/-- A quotient is not farther from zero. -/
theorem fits_tdiv {w : Nat} {i n : Int} (hn : 0 < n) (h : Fits w i) : Fits w (i.tdiv n) := by
  obtain ⟨hge, hlt⟩ := h
  rcases le_or_gt 0 i with hnonneg | hneg
  · have hquotient := Int.tdiv_nonneg hnonneg hn.le
    have hle := Int.tdiv_le_self n hnonneg
    constructor <;> omega
  · -- the opposite number has the opposite quotient
    have hopposite := Int.tdiv_nonneg (neg_nonneg.mpr hneg.le) hn.le
    have hle := Int.tdiv_le_self n (neg_nonneg.mpr hneg.le)
    rw [Int.neg_tdiv] at hopposite hle
    constructor <;> omega

/-- A product that wrapped gives its factor back only when it fitted. -/
theorem bmod_tdiv_eq_iff {w : Nat} {i n : Int} (hw : 0 < w) (hn : 0 < n) :
    ((i * n).bmod (2 ^ w)).tdiv n = i ↔ Fits w (i * n) := by
  constructor
  · intro hquotient
    obtain ⟨hge, hlt⟩ := @fits_bmod w (i * n)
    generalize (i * n).bmod (2 ^ w) = wrapped at *
    -- the quotient times its divisor is between zero and what was divided
    have hsplit := Int.tmod_add_tdiv_mul wrapped n
    rw [hquotient] at hsplit
    rcases le_or_gt 0 wrapped with hnonneg | hneg
    · have hrest : 0 ≤ wrapped.tmod n := Int.tmod_nonneg n hnonneg
      have hfactor : 0 ≤ i * n := by
        rw [← hquotient]
        exact mul_nonneg (Int.tdiv_nonneg hnonneg hn.le) hn.le
      constructor <;> omega
    · have hrest : wrapped.tmod n ≤ 0 := by
        have hopposite := Int.tmod_nonneg n (neg_nonneg.mpr hneg.le)
        rw [Int.neg_tmod] at hopposite
        omega
      have hfactor : i * n ≤ 0 := by
        have hopposite := Int.tdiv_nonneg (neg_nonneg.mpr hneg.le) hn.le
        rw [Int.neg_tdiv, hquotient] at hopposite
        exact mul_nonpos_of_nonpos_of_nonneg (neg_nonneg.mp hopposite) hn.le
      constructor <;> omega
  · intro hfits
    rw [bmod_of_fits hw hfits]
    exact Int.mul_tdiv_cancel i hn.ne'

section Unsigned

variable {u : BitVec 64} {e : Nat}

/-- The quotient of the contents of a register by a power of ten, as far as the register
holds the power, divided once more. -/
theorem unsigned_tdiv_iff (he : e < 64) {v : Int} (hv : v ≠ 0) :
    ((u.toNat / (10 ^ e % 2 ^ 64) : Nat) : Int).tdiv v = u.toInt.tdiv (v * 10 ^ e) ↔
      (0 ≤ u.toInt ∧ e ≤ 19) ∨ u.toNat < v.natAbs * (10 ^ e % 2 ^ 64) := by
  have hpos := mod_tenPow_pos he
  have hunsigned := toNat_eq_toInt u
  obtain ⟨hge, hlt⟩ := fits_toInt u
  have hdivisor : v * 10 ^ e ≠ 0 := mul_ne_zero hv (pow_ne_zero _ (by decide))
  have hsize : (v * 10 ^ e).natAbs = v.natAbs * 10 ^ e := by
    rw [Int.natAbs_mul, Int.natAbs_pow]
    rfl
  have hnat : 0 < v.natAbs := Int.natAbs_pos.mpr hv
  -- the left side is zero when the contents are below both divisors
  have hzero : ((u.toNat / (10 ^ e % 2 ^ 64) : Nat) : Int).tdiv v = 0 ↔
      u.toNat < v.natAbs * (10 ^ e % 2 ^ 64) := by
    rw [tdiv_eq_zero_iff hv, Int.natAbs_natCast, Nat.div_lt_iff_lt_mul hpos]
  have hright : u.toInt.tdiv (v * 10 ^ e) = 0 ↔ u.toInt.natAbs < v.natAbs * 10 ^ e := by
    rw [tdiv_eq_zero_iff hdivisor, hsize]
  have hle : 10 ^ e % 2 ^ 64 ≤ 10 ^ e := Nat.mod_le _ _
  have hbelow : v.natAbs * (10 ^ e % 2 ^ 64) ≤ v.natAbs * 10 ^ e := Nat.mul_le_mul_left _ hle
  by_cases hsign : 0 ≤ u.toInt
  · rw [if_neg (by omega)] at hunsigned
    by_cases hexp : e ≤ 19
    · -- the power is held exactly
      have hexact : 10 ^ e % 2 ^ 64 = 10 ^ e := Nat.mod_eq_of_lt (tenPow_le hexp)
      refine iff_of_true ?_ (Or.inl ⟨hsign, hexp⟩)
      rw [hexact, ← hunsigned, Int.natCast_tdiv_eq_ediv, Int.natCast_tdiv_eq_ediv, mul_comm v,
        ← Int.ediv_ediv_of_nonneg (by positivity)]
      push_cast
      rfl
    · -- the power is above every value
      have hlarge := lt_tenPow (e := e) (by omega)
      have hfactor : 10 ^ e ≤ v.natAbs * 10 ^ e := Nat.le_mul_of_pos_left _ hnat
      have hsmall : u.toInt.natAbs < v.natAbs * 10 ^ e := by omega
      rw [hright.mpr hsmall, hzero]
      simp only [hexp, and_false, false_or]
  · rw [if_pos (by omega)] at hunsigned
    simp only [hsign, false_and, false_or]
    constructor
    · -- a quotient that is not zero has the wrong sign
      intro heq
      rw [← hzero]
      rcases lt_or_gt_of_ne hv with hneg | hpositive
      · have hleft : ((u.toNat / (10 ^ e % 2 ^ 64) : Nat) : Int).tdiv v ≤ 0 :=
          Int.tdiv_nonpos_of_nonneg_of_nonpos (Int.natCast_nonneg _) hneg.le
        have hproduct : v * 10 ^ e ≤ 0 := mul_nonpos_of_nonpos_of_nonneg hneg.le (by positivity)
        have hnonneg := Int.tdiv_nonneg_of_nonpos_of_nonpos (not_le.mp hsign).le hproduct
        omega
      · have hleft : 0 ≤ ((u.toNat / (10 ^ e % 2 ^ 64) : Nat) : Int).tdiv v :=
          Int.tdiv_nonneg (Int.natCast_nonneg _) hpositive.le
        have hproduct : 0 ≤ v * 10 ^ e := by positivity
        have hnonneg := Int.tdiv_nonneg (neg_nonneg.mpr (not_le.mp hsign).le) hproduct
        rw [Int.neg_tdiv] at hnonneg
        omega
    · intro hlt
      have hsmall : u.toInt.natAbs < v.natAbs * 10 ^ e := by omega
      rw [hzero.mpr hlt, hright.mpr hsmall]

end Unsigned

end CqlDriver.Math
